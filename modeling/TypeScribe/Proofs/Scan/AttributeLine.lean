import Mathlib.Data.List.TakeWhile
import TypeScribe.Proofs.Scan.Suffix
import TypeScribe.Proofs.Text.CharClass
import TypeScribe.Proofs.Text.Line
import TypeScribe.Scan.AttributeLine

/-!
# Reading attribute lines

What is read as an attribute is the first line of the text, with its line break, and it is so for no
other lines than those that hold bracketed text between blanks.
-/

namespace TypeScribe.Scan

open Text

/-- Bracketed text between blanks, and behind it a line break or nothing; a line that ends with
nothing is the last of its text. -/
inductive IsAttributeLine : List Char → Prop where
  | intro {lead inside trail ending : List Char} (hlead : ∀ c ∈ lead, isBlank c = true)
      (hinside : ∀ c ∈ inside, isLineBreak c = false) (htrail : ∀ c ∈ trail, isBlank c = true)
      (hending : ending ∈ [[], ['\n'], ['\r', '\n']]) :
      IsAttributeLine (lead ++ '[' :: (inside ++ ']' :: trail) ++ ending)

variable {content after line text rest : List Char}

theorem isBracketed_iff : isBracketed content = true ↔
    ∃ lead inside trail, content = lead ++ '[' :: (inside ++ ']' :: trail) ∧
      (∀ c ∈ lead, isBlank c = true) ∧ ∀ c ∈ trail, isBlank c = true := by
  constructor
  · intro h
    unfold isBracketed at h
    split at h
    · next rest hrest =>
        have hlast : (skipBlanks rest.reverse).head? = some ']' := by simpa using h
        obtain ⟨inside, hinside⟩ := List.head?_eq_some_iff.mp hlast
        have hcontent : content = content.takeWhile isBlank ++ '[' :: rest := by
          rw [← hrest, skipBlanks, List.takeWhile_append_dropWhile]
        have hsplit : rest.reverse = rest.reverse.takeWhile isBlank ++ ']' :: inside := by
          rw [← hinside, skipBlanks, List.takeWhile_append_dropWhile]
        have hrest' : rest = inside.reverse ++ ']' :: (rest.reverse.takeWhile isBlank).reverse := by
          calc rest = rest.reverse.reverse := rest.reverse_reverse.symm
            _ = (rest.reverse.takeWhile isBlank ++ ']' :: inside).reverse := congrArg _ hsplit
            _ = _ := by simp
        refine ⟨content.takeWhile isBlank, inside.reverse, (rest.reverse.takeWhile isBlank).reverse,
          ?_, fun c hc => List.mem_takeWhile_imp hc, fun c hc => ?_⟩
        · rw [← hrest']
          exact hcontent
        · exact List.mem_takeWhile_imp (List.mem_reverse.mp hc)
    · exact absurd h (by simp)
  · rintro ⟨lead, inside, trail, rfl, hlead, htrail⟩
    have hskip : skipBlanks (lead ++ '[' :: (inside ++ ']' :: trail)) =
        '[' :: (inside ++ ']' :: trail) :=
      dropWhile_append_of_boundary hlead rfl
    have hlast : skipBlanks (inside ++ ']' :: trail).reverse = ']' :: inside.reverse := by
      rw [List.reverse_append, List.reverse_cons, List.append_assoc]
      exact dropWhile_append_of_boundary (fun c hc => htrail c (List.mem_reverse.mp hc)) rfl
    rw [isBracketed, hskip]
    change ((skipBlanks (inside ++ ']' :: trail).reverse).head? == some ']') = true
    rw [hlast]
    rfl

theorem isLineBreak_eq_false_of_mem_bracketed {lead inside trail : List Char}
    (hlead : ∀ c ∈ lead, isBlank c = true) (hinside : ∀ c ∈ inside, isLineBreak c = false)
    (htrail : ∀ c ∈ trail, isBlank c = true) :
    ∀ c ∈ lead ++ '[' :: (inside ++ ']' :: trail), isLineBreak c = false := by
  intro c hc
  simp only [List.mem_append, List.mem_cons] at hc
  rcases hc with hc | rfl | hc | rfl | hc
  · exact isLineBreak_eq_false_of_isBlank (hlead c hc)
  · decide
  · exact hinside c hc
  · decide
  · exact isLineBreak_eq_false_of_isBlank (htrail c hc)

theorem isAttributeLine_iff : IsAttributeLine line ↔
    ∃ content, ∃ ending ∈ [[], ['\n'], ['\r', '\n']], line = content ++ ending ∧
      (∀ c ∈ content, isLineBreak c = false) ∧ isBracketed content = true := by
  constructor
  · rintro @⟨lead, inside, trail, ending, hlead, hinside, htrail, hending⟩
    exact ⟨_, ending, hending, rfl, isLineBreak_eq_false_of_mem_bracketed hlead hinside htrail,
      isBracketed_iff.mpr ⟨lead, inside, trail, rfl, hlead, htrail⟩⟩
  · rintro ⟨content, ending, hending, rfl, hcontent, hbracketed⟩
    obtain ⟨lead, inside, trail, rfl, hlead, htrail⟩ := isBracketed_iff.mp hbracketed
    exact .intro hlead (fun c hc => hcontent c (by simp [hc])) htrail hending

theorem firstLine_of_isBracketed {ending : List Char} (hbracketed : isBracketed content = true)
    (hcontent : ∀ c ∈ content, isLineBreak c = false)
    (hending : ending ∈ [[], ['\n'], ['\r', '\n']]) (hrest : ending = [] → rest = []) :
    FirstLine (content ++ ending) rest := by
  have hfeed : '\n' ∉ content := fun hmem => absurd (hcontent '\n' hmem) (by decide)
  simp only [List.mem_cons, List.not_mem_nil, or_false] at hending
  rcases hending with rfl | rfl | rfl
  · have hne : content ≠ [] := by
      rintro rfl
      exact absurd hbracketed (by decide)
    rw [hrest rfl, List.append_nil]
    exact .last hfeed hne
  · exact .ended hfeed rest
  · have hreturn : '\n' ∉ content ++ ['\r'] := by simpa using hfeed
    have hline := FirstLine.ended hreturn rest
    rwa [List.append_assoc] at hline

theorem readAttributeLine?_of_boundary (hbracketed : isBracketed content = true)
    (hcontent : ∀ c ∈ content, isLineBreak c = false)
    (hafter : after.head?.any (!isLineBreak ·) = false) :
    readAttributeLine? (content ++ after) =
      if after.isEmpty then some [] else readNewline? after := by
  have hline : ∀ c ∈ content, (!isLineBreak c) = true := fun c hc => by simp [hcontent c hc]
  rw [readAttributeLine?, takeWhile_append_of_boundary hline hafter,
    dropWhile_append_of_boundary hline hafter, if_pos hbracketed]

theorem IsAttributeLine.readAttributeLine?_append (h : IsAttributeLine line)
    (hline : FirstLine line rest) : readAttributeLine? (line ++ rest) = some rest := by
  obtain ⟨content, ending, hending, rfl, hcontent, hbracketed⟩ := isAttributeLine_iff.mp h
  simp only [List.mem_cons, List.not_mem_nil, or_false] at hending
  rcases hending with rfl | rfl | rfl
  · have hrest : rest = [] := by
      by_contra hne
      rw [List.append_nil] at hline
      have hfeed := hcontent '\n' (List.mem_of_getLast? (hline.getLast? hne))
      exact absurd hfeed (by decide)
    rw [hrest, List.append_nil, readAttributeLine?_of_boundary hbracketed hcontent rfl]
    rfl
  · rw [List.append_assoc, readAttributeLine?_of_boundary hbracketed hcontent rfl]
    rfl
  · rw [List.append_assoc, readAttributeLine?_of_boundary hbracketed hcontent rfl]
    rfl

theorem exists_of_readAttributeLine? (h : readAttributeLine? text = some rest) :
    ∃ line, text = line ++ rest ∧ IsAttributeLine line ∧ FirstLine line rest := by
  have hcontent : ∀ c ∈ text.takeWhile (!isLineBreak ·), isLineBreak c = false :=
    fun c hc => by simpa using List.mem_takeWhile_imp hc
  have hsplit := @List.takeWhile_append_dropWhile _ (!isLineBreak ·) text
  rw [readAttributeLine?] at h
  generalize text.takeWhile (!isLineBreak ·) = content at h hcontent hsplit
  generalize text.dropWhile (!isLineBreak ·) = after at h hsplit
  subst hsplit
  split at h
  · next hbracketed =>
      have hending : ∃ ending ∈ [[], ['\n'], ['\r', '\n']],
          after = ending ++ rest ∧ (ending = [] → rest = []) := by
        split at h
        · next hempty =>
            obtain rfl := Option.some.inj h
            exact ⟨[], List.mem_cons_self, List.isEmpty_iff.mp hempty, fun _ => rfl⟩
        · obtain ⟨newline, hnewline, rfl⟩ := exists_of_readNewline? h
          refine ⟨newline, List.mem_cons_of_mem [] hnewline, rfl, ?_⟩
          rintro rfl
          simp at hnewline
      obtain ⟨ending, hending, rfl, hrest⟩ := hending
      exact ⟨content ++ ending, (List.append_assoc _ _ _).symm,
        isAttributeLine_iff.mpr ⟨content, ending, hending, rfl, hcontent, hbracketed⟩,
        firstLine_of_isBracketed hbracketed hcontent hending hrest⟩
  · simp at h

theorem isAttributeLine_iff_readAttributeLine? :
    IsAttributeLine line ↔ readAttributeLine? line = some [] := by
  constructor
  · intro h
    obtain ⟨content, ending, hending, hline, hcontent, hbracketed⟩ := isAttributeLine_iff.mp h
    have hfirst : FirstLine line [] :=
      hline ▸ firstLine_of_isBracketed hbracketed hcontent hending fun _ => rfl
    simpa using h.readAttributeLine?_append hfirst
  · intro h
    obtain ⟨line', hsplit, hattribute, _⟩ := exists_of_readAttributeLine? h
    rw [List.append_nil] at hsplit
    exact hsplit ▸ hattribute

instance : DecidablePred IsAttributeLine := fun line =>
  decidable_of_iff (readAttributeLine? line = some []) isAttributeLine_iff_readAttributeLine?.symm

theorem readAttributeLine?_eq_none (h : ¬IsAttributeLine line) (hline : FirstLine line rest) :
    readAttributeLine? (line ++ rest) = none := by
  rw [Option.eq_none_iff_forall_ne_some]
  intro rest' hrest
  obtain ⟨line', hsplit, hattribute, hline'⟩ := exists_of_readAttributeLine? hrest
  exact h (hline.eq hline' hsplit ▸ hattribute)

end TypeScribe.Scan
