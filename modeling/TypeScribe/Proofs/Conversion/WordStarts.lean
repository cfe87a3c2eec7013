import Mathlib.Data.List.Nodup
import TypeScribe.Proofs.Conversion.Splice
import TypeScribe.Proofs.Scan.HeaderParts
import TypeScribe.Proofs.Scan.WordStarts

/-!
# Where the properties of a run begin

No step of a run ends with a word character, so no search for the next one begins within a word. A
property that begins with its type is therefore never found behind a word character: the search would
have found it there already. Behind a name in other letters, behind a dot, and where the word that is
cut ends like a modifier, properties are found all the same.
-/

namespace TypeScribe

open Text Scan

/-! ### Where steps end -/

/-- What is read off the text to leave `rest` ends with something else than a word character. -/
def Scan.EndsOutsideWord (text rest : List Char) : Prop :=
  ∃ front c, text = front ++ c :: rest ∧ isAsciiWord c = false

/-- No word character stands right before the cursor. -/
def Scan.Window.OutsideWord (window : Window) : Prop := window.behind.head?.any isAsciiWord = false

section Hits

variable {config : Config} {window : Window} {hit : Hit} {text rest : List Char}

theorem Scan.EndsOutsideWord.outsideWord (h : EndsOutsideWord window.ahead rest) :
    (window.advance (window.ahead.length - rest.length)).OutsideWord := by
  obtain ⟨front, c, hahead, hc⟩ := h
  have htaken : window.ahead.take (window.ahead.length - rest.length) = front ++ [c] := by
    rw [hahead, List.append_cons, take_sub_length]
  rw [Window.OutsideWord, Window.advance, htaken]
  simpa using hc

theorem Scan.EndsBody.endsOutsideWord (h : EndsBody text rest) : EndsOutsideWord text rest := by
  obtain ⟨front, c, hc, htext⟩ := h
  refine ⟨front, c, htext, ?_⟩
  simp only [List.mem_cons, List.not_mem_nil, or_false] at hc
  rcases hc with rfl | rfl <;> decide

theorem outsideWord_of_propertyPattern (h : propertyPattern config window = some hit) :
    (window.advance hit.length).OutsideWord := by
  obtain ⟨property, type, hproperty, -, -, rfl⟩ := exists_of_propertyPattern h
  exact (endsBody_of_readProperty? hproperty).endsOutsideWord.outsideWord

theorem outsideWord_of_headerPattern (h : headerPattern config window = some hit) :
    (window.advance hit.length).OutsideWord := by
  obtain ⟨header, ⟨parts⟩, rfl⟩ := exists_of_headerPattern h
  have hends : EndsOutsideWord window.ahead header.rest :=
    ⟨parts.front, '\x7b', parts.text_eq_front, by decide⟩
  exact hends.outsideWord

theorem outsideWord_of_summaryPattern (h : summaryPattern window = some hit) :
    (window.advance hit.length).OutsideWord := by
  obtain ⟨⟨lines, rest⟩, hsummary, h⟩ := Option.bind_eq_some_iff.mp h
  obtain rfl := Option.some.inj h
  obtain ⟨front, _, htext⟩ := exists_of_readSummary? hsummary
  have hends : EndsOutsideWord window.ahead rest :=
    ⟨front ++ "</summary".toList, '>', by rw [htext, List.append_assoc, List.append_assoc]; rfl,
      by decide⟩
  exact hends.outsideWord

theorem exists_getLast_of_isAttributeLine {line : List Char} (h : IsAttributeLine line) :
    ∃ front c, line = front ++ [c] ∧ isAsciiWord c = false := by
  obtain @⟨lead, inside, trail, ending, -, -, htrail, hending⟩ := h
  rcases List.eq_nil_or_concat' ending with rfl | ⟨more, c, rfl⟩
  · rw [List.append_nil]
    rcases List.eq_nil_or_concat' trail with rfl | ⟨more, c, rfl⟩
    · exact ⟨lead ++ '[' :: inside, ']', by simp, by decide⟩
    · have hblank := htrail c (by simp)
      exact ⟨lead ++ '[' :: (inside ++ ']' :: more), c, by simp,
        isAsciiWord_eq_false_of_isSpace (isSpace_of_isBlank hblank)⟩
  · refine ⟨lead ++ '[' :: (inside ++ ']' :: trail) ++ more, c, by simp, ?_⟩
    have hbreak : c = '\n' := by
      simp only [List.mem_cons, List.not_mem_nil, or_false] at hending
      rcases hending with h | h | h <;> simpa using congrArg List.getLast? h
    rw [hbreak]
    decide

theorem outsideWord_of_attributePattern (h : attributePattern window = some hit) :
    (window.advance hit.length).OutsideWord := by
  rw [attributePattern] at h
  split at h
  · obtain ⟨rest, hline, rfl⟩ := Option.map_eq_some_iff.mp h
    obtain ⟨line, htext, hattribute, _⟩ := exists_of_readAttributeLine? hline
    obtain ⟨front, c, rfl, hc⟩ := exists_getLast_of_isAttributeLine hattribute
    have hends : EndsOutsideWord window.ahead rest := ⟨front, c, by simpa using htext, hc⟩
    exact hends.outsideWord
  · simp at h

end Hits

/-! ### One step -/

section Step

variable {config : Config} {window : Window} {name : String} {found : Match}

/-- The search for the step behind this one begins outside of words. -/
theorem outsideWord_advance_stop
    (h : nextMatch? config window builtinRecognizers = some (name, found)) :
    (window.advance found.stop).OutsideWord := by
  obtain ⟨recognizer, hmem, _, happlicable⟩ := exists_of_nextMatch? h
  obtain ⟨hfound, _⟩ := applicable?_eq_some_iff.mp happlicable
  rw [Match.stop, Window.advance_add]
  simp only [builtinRecognizers, List.mem_cons, List.not_mem_nil, or_false] at hmem
  rcases hmem with rfl | rfl | rfl | rfl
  · exact outsideWord_of_propertyPattern (follows_propertyRecognizer.exists_of_some hfound).2.1
  · exact outsideWord_of_summaryPattern (follows_summaryRecognizer.exists_of_some hfound).2.1
  · exact outsideWord_of_attributePattern (follows_attributeRecognizer.exists_of_some hfound).2.1
  · exact outsideWord_of_headerPattern (follows_headerRecognizer.exists_of_some hfound).2.1

/-- A search that begins outside of words finds no property behind a word character, unless it begins
with a modifier. -/
theorem outsideWord_advance_start (hwindow : window.OutsideWord)
    (h : propertyRecognizer.recognize config window = some found)
    (haccess : readKeyword? accessModifiers (window.advance found.start).ahead = none)
    (hmember : readKeyword? memberModifiers (window.advance found.start).ahead = none) :
    (window.advance found.start).OutsideWord := by
  obtain ⟨hstart, hhit, hearlier⟩ := follows_propertyRecognizer.exists_of_some h
  cases hplace : found.start with
  | zero => exact hwindow
  | succ place =>
      rw [hplace] at hstart hhit haccess hmember hearlier
      obtain ⟨c, rest, hahead⟩ : ∃ c rest, (window.advance place).ahead = c :: rest := by
        apply List.exists_cons_of_length_pos
        rw [Window.length_ahead_advance]
        omega
      rw [Window.advance_succ_of_ahead hahead] at hhit haccess hmember ⊢
      by_contra hword
      have hc : isAsciiWord c = true := by simpa [Window.OutsideWord] using hword
      -- it would have been found at this character
      have hnone : propertyPattern config ⟨(window.advance place).behind, c :: rest⟩ = none := by
        rw [← hahead]
        exact hearlier place (Nat.lt_succ_self place)
      exact propertyPattern_cons hc haccess hmember hhit hnone

end Step

/-! ### Runs -/

theorem readKeyword?_eq_none_of_subset {words more : List String} {text : List Char}
    (hsubset : words ⊆ more) (h : readKeyword? more text = none) :
    readKeyword? words text = none := by
  rw [readKeyword?, Option.bind_eq_none_iff] at h ⊢
  intro split hword
  have hmore := h split hword
  by_cases hmem : String.ofList split.1 ∈ words
  · simpa [hmem, hsubset hmem] using hmore
  · simp [hmem]

theorem exists_place_of_mem_runEdits {config : Config} {window : Window} {edit : Edit}
    (hwindow : window.OutsideWord) (h : edit ∈ runEdits builtinRecognizers config window)
    (hname : edit.recognizer = "auto-property") :
    ∃ place : Window, place.source = window.source ∧ place.cursor = edit.start ∧
      (readKeyword? (accessModifiers ++ memberModifiers) place.ahead = none → place.OutsideWord) := by
  induction window using convertWindow.induct builtinRecognizers config with
  | case1 window hnone => simp [runEdits_of_none hnone] at h
  | case2 window name found hsome ih =>
      rw [runEdits_of_some hsome, List.mem_cons] at h
      rcases h with rfl | h
      · refine ⟨window.advance found.start, Window.source_advance _ _,
          Match.cursor_advance_start name window found, fun hkeyword => ?_⟩
        obtain ⟨recognizer, hmem, hrecognizer, happlicable⟩ := exists_of_nextMatch? hsome
        have hproperty : recognizer = propertyRecognizer :=
          List.inj_on_of_nodup_map nodup_names_builtinRecognizers hmem List.mem_cons_self
            (hrecognizer.trans hname)
        rw [hproperty] at happlicable
        exact outsideWord_advance_start hwindow (applicable?_eq_some_iff.mp happlicable).1
          (readKeyword?_eq_none_of_subset (List.subset_append_left _ _) hkeyword)
          (readKeyword?_eq_none_of_subset (List.subset_append_right _ _) hkeyword)
      · obtain ⟨place, hsource, hplace⟩ := ih (outsideWord_advance_stop hsome) h
        exact ⟨place, hsource.trans (Window.source_advance _ _), hplace⟩

/-- **No property of a run begins behind a word character**, unless it begins with a modifier. -/
theorem isAsciiWord_eq_false_before_property {config : Config} {source : String} {edit : Edit}
    {front rest : List Char} {c : Char}
    (h : edit ∈ (convertWith builtinRecognizers config source).edits)
    (hname : edit.recognizer = "auto-property") (htext : source.toList = (front ++ [c]) ++ rest)
    (hstart : edit.start = byteLength (front ++ [c]))
    (hkeyword : readKeyword? (accessModifiers ++ memberModifiers) rest = none) :
    isAsciiWord c = false := by
  have hwindow : (Window.ofText source.toList).OutsideWord := rfl
  obtain ⟨place, hsource, hcursor, houtside⟩ := exists_place_of_mem_runEdits hwindow h hname
  have hplace : place = ⟨(front ++ [c]).reverse, rest⟩ := by
    rw [← Window.atByte_cursor place, hsource, Window.source_ofText, htext, hcursor, hstart,
      Window.atByte_append]
  rw [hplace] at houtside
  simpa [Window.OutsideWord] using houtside hkeyword

theorem isAsciiWord_eq_false_before_property_in_class :
    let source := "class A\n\x7b\n    List<int> B \x7b get; \x7d\n\x7d"
    let edit : Edit := ⟨"auto-property", 14, 34, "B: number[];".toList⟩
    let front := "class A\n\x7b\n   ".toList
    let rest := "List<int> B \x7b get; \x7d\n\x7d".toList
    edit ∈ (convertWith builtinRecognizers {} source).edits ∧
      source.toList = (front ++ [' ']) ++ rest ∧
      readKeyword? (accessModifiers ++ memberModifiers) rest = none ∧ isAsciiWord ' ' = false := by
  intro source edit front rest
  have hmem : edit ∈ (convertWith builtinRecognizers {} source).edits := by decide +kernel
  have htext : source.toList = (front ++ [' ']) ++ rest := by decide
  have hkeyword : readKeyword? (accessModifiers ++ memberModifiers) rest = none := by decide
  exact ⟨hmem, htext, hkeyword,
    isAsciiWord_eq_false_before_property hmem rfl htext (by decide) hkeyword⟩

/-- The modifier may be the end of a longer word. -/
example : (convertWith builtinRecognizers {} "Republic int A \x7b get; \x7d").edits =
    [⟨"auto-property", 2, 23, "A: number;".toList⟩] := by
  decide +kernel

/-- Behind a dot the rest of a qualified name is taken for the type of a property. -/
theorem exists_property_within_name :
    ¬∀ (config : Config) (source : String) (edit : Edit) (front rest : List Char) (c : Char),
      edit ∈ (convertWith builtinRecognizers config source).edits →
        edit.recognizer = "auto-property" → source.toList = (front ++ [c]) ++ rest →
          edit.start = byteLength (front ++ [c]) → isNameChar c = false ∧ c ≠ '.' := by
  intro h
  have hmem : (⟨"auto-property", 14, 37, "Age: number;".toList⟩ : Edit) ∈
      (convertWith builtinRecognizers {} "public System.Int32 Age \x7b get; set; \x7d").edits := by
    decide +kernel
  have hafter := h {} "public System.Int32 Age \x7b get; set; \x7d" _ "public System".toList
    "Int32 Age \x7b get; set; \x7d".toList '.' hmem rfl (by decide) (by decide)
  exact hafter.2 rfl

end TypeScribe
