import TypeScribe.Proofs.Scan.Opening
import TypeScribe.Proofs.TsType.OneLine

/-!
# Hits and line endings

No construct begins with a line feed and none ends with a carriage return, so what is taken holds
its line endings whole. The replacements of properties and headers stand on one line, that of an
attribute is empty, and a block comment is written with the line endings of the summary that it
replaces.
-/

namespace TypeScribe.Scan

open Text TypeExpr

/-- What is taken is not cut within a line ending, and its replacement has the same line endings. -/
structure KeepsLineEndings (window : Window) (hit : Hit) : Prop where
  begins : window.ahead.head? ≠ some '\n'
  ends : (window.ahead.take hit.length).getLast? ≠ some '\r'
  replaces : ∀ ending : LineEnding, ending.Throughout (window.ahead.take hit.length) →
    ending.Throughout hit.replacement

section Borders

variable {window : Window} {text front rest : List Char} {opening : Opening} {c : Char}

theorem head?_ne_of_opening? (h : window.opening? = some opening) :
    window.ahead.head? ≠ some '\n' := by
  intro hfeed
  rw [Window.opening?, hfeed] at h
  exact absurd h (by cases opening <;> decide)

theorem getLast?_ne_of_isSpace (hc : isSpace c = false) :
    (front ++ [c]).getLast? ≠ some '\r' := by
  rw [List.getLast?_concat]
  rintro ⟨⟩
  exact absurd hc (by decide)

theorem Closes.getLast?_ne (h : Closes text rest) :
    (text.take (text.length - rest.length)).getLast? ≠ some '\r' := by
  obtain ⟨front, c, rfl, hc, _⟩ := h
  rw [List.append_cons, take_sub_length]
  exact getLast?_ne_of_isSpace hc

end Borders

/-! ### Properties -/

theorem isAsciiWord_lowercase {c : Char} (h : isAsciiWord c = true) :
    ∀ d ∈ lowercase c, isAsciiWord d = true := by
  have hcodes : ∀ code < 0x80, isAsciiWord (Char.ofNat code) = true →
      (lowercase (Char.ofNat code)).all isAsciiWord = true := by decide +kernel
  have hc := hcodes c.toNat (toNat_lt_of_isAsciiWord h)
  rw [Char.ofNat_toNat] at hc
  exact List.all_eq_true.mp (hc h)

theorem unbroken_of_isAsciiWord {text : List Char} (h : ∀ c ∈ text, isAsciiWord c = true) :
    Unbroken text :=
  fun c hc => isLineBreak_eq_false_of_isNameChar (isNameChar_of_isAsciiWord (h c hc))

theorem IsWord.unbroken {word : List Char} (h : IsWord word) : Unbroken word :=
  unbroken_of_isAsciiWord h.2

section Replacements

variable {config : Config} {window : Window} {hit : Hit} {name text rest : List Char}

/-- The name of a property is spelled with the characters of words again. -/
theorem isAsciiWord_of_mem_propertyName (h : IsWord name) :
    ∀ c ∈ (propertyName config (String.ofList name)).toList, isAsciiWord c = true := by
  have htrim : ∀ c ∈ (config.trimmer.trim (String.ofList name)).toList, isAsciiWord c = true := by
    rw [Trimmer.trim, String.toList_ofList, String.toList_ofList]
    exact fun c hc => h.2 c (mem_of_mem_trimChars hc)
  have hlower : ∀ c ∈ (lowerFirst (config.trimmer.trim (String.ofList name))).toList,
      isAsciiWord c = true := by
    unfold lowerFirst
    split
    · exact List.forall_mem_nil _
    · next c rest hname =>
        rw [hname, List.forall_mem_cons] at htrim
        rw [String.toList_ofList, List.forall_mem_append]
        exact ⟨isAsciiWord_lowercase htrim.1, htrim.2⟩
  rw [propertyName]
  split
  · exact hlower
  · exact htrim

theorem unbroken_propertyName (h : IsWord name) :
    Unbroken (propertyName config (String.ofList name)).toList :=
  unbroken_of_isAsciiWord (isAsciiWord_of_mem_propertyName h)

theorem isWord_name_of_readProperty? {property : PropertyText}
    (h : readProperty? text = some property) : IsWord property.name := by
  obtain ⟨access, _, h⟩ := List.exists_of_findSome?_eq_some h
  obtain ⟨member, _, h⟩ := List.exists_of_findSome?_eq_some h
  obtain ⟨after, _, h⟩ := List.exists_of_findSome?_eq_some h
  obtain ⟨_, _, h⟩ := Option.bind_eq_some_iff.mp h
  obtain ⟨⟨name, last⟩, hname, h⟩ := Option.bind_eq_some_iff.mp h
  obtain rfl := Option.some.inj h
  obtain ⟨⟨word, rest⟩, hword, hbody⟩ := Option.bind_eq_some_iff.mp hname
  obtain ⟨_, _, heq⟩ := Option.bind_eq_some_iff.mp hbody
  obtain ⟨rfl, rfl⟩ := by simpa using heq
  exact isWord_of_readWord? hword

theorem unbroken_propertyDeclaration {type : TypeExpr} (hname : IsWord name)
    (htype : AllNames IsName type) : Unbroken (propertyDeclaration config name type) := by
  have hcolon : Unbroken ": ".toList := by decide
  have hsemicolon : Unbroken ";".toList := by decide
  have hfront := (@unbroken_propertyName config name hname).append hcolon
  exact (hfront.append (unbroken_emit htype config.trimmer)).append hsemicolon

theorem keepsLineEndings_of_propertyPattern (h : propertyPattern config window = some hit) :
    KeepsLineEndings window hit := by
  have hopening := opening?_of_propertyPattern h
  obtain ⟨property, hproperty, h⟩ := Option.bind_eq_some_iff.mp h
  rw [judgeProperty] at h
  split at h
  · simp at h
  · obtain ⟨type, hparse, rfl⟩ := Option.map_eq_some_iff.mp h
    have hname := isWord_name_of_readProperty? hproperty
    have htype := (parse_eq_ok_iff.mp (parse_eq_ok_of_toOption hparse)).allNames
    exact ⟨head?_ne_of_opening? hopening, (closes_of_readProperty? hproperty).getLast?_ne,
      fun ending _ => (unbroken_propertyDeclaration hname htype).throughout ending⟩

/-! ### Headers -/

theorem parts_of_readHeader? {header : HeaderText} (h : readHeader? text = some header) :
    IsWord header.keyword ∧ IsWord header.name ∧ Unbroken header.tail := by
  obtain ⟨_, _, h⟩ := Option.bind_eq_some_iff.mp h
  obtain ⟨keyed, _, h⟩ := List.exists_of_findSome?_eq_some h
  obtain ⟨⟨keyword, after⟩, hkeyword, h⟩ := Option.bind_eq_some_iff.mp h
  dsimp only at h
  split at h
  · simp at h
  · obtain ⟨front, _, h⟩ := Option.bind_eq_some_iff.mp h
    obtain ⟨⟨name, behind⟩, hname, h⟩ := Option.bind_eq_some_iff.mp h
    obtain ⟨⟨tail, last⟩, htail, h⟩ := Option.bind_eq_some_iff.mp h
    obtain rfl := Option.some.inj h
    obtain ⟨_, _, hunbroken, _⟩ := exists_of_readHeaderTail? htail
    exact ⟨isWord_of_readWord? hkeyword, isWord_of_readWord? hname, hunbroken⟩

theorem unbroken_exportedHeader {header : HeaderText} (hkeyword : IsWord header.keyword)
    (hname : IsWord header.name) (htail : Unbroken header.tail) :
    Unbroken (exportedHeader config header) := by
  have hdeclaration : Unbroken (declarationKeyword (String.ofList header.keyword)).toList := by
    rw [declarationKeyword]
    split
    · decide
    · rw [String.toList_ofList]
      exact hkeyword.unbroken
  have hexport : Unbroken "export ".toList := by decide
  have hspace : Unbroken [' '] := by decide
  have hbrace : Unbroken " \x7b".toList := by decide
  have hnamed := ((hexport.append hdeclaration).append hspace).append
    (hname.unbroken.trimChars config.trimmer)
  exact (hnamed.append htail).append hbrace

theorem keepsLineEndings_of_headerPattern (h : headerPattern config window = some hit) :
    KeepsLineEndings window hit := by
  have hopening := opening?_of_headerPattern h
  obtain ⟨header, hheader, h⟩ := Option.bind_eq_some_iff.mp h
  rw [findHeader] at hheader
  rw [judgeHeader] at h
  split at hheader
  · simp at hheader
  · split at h
    · simp at h
    · obtain rfl := Option.some.inj h
      obtain ⟨hkeyword, hname, htail⟩ := parts_of_readHeader? hheader
      exact ⟨head?_ne_of_opening? hopening, (closes_of_readHeader? hheader).getLast?_ne,
        fun ending _ => (unbroken_exportedHeader hkeyword hname htail).throughout ending⟩

/-! ### Attribute lines -/

theorem IsAttributeLine.getLast?_ne {line : List Char} (h : IsAttributeLine line) :
    line.getLast? ≠ some '\r' := by
  obtain ⟨content, ending, hending, rfl, hcontent, _⟩ := isAttributeLine_iff.mp h
  simp only [List.mem_cons, List.not_mem_nil, or_false] at hending
  rcases hending with rfl | rfl | rfl
  · rw [List.append_nil]
    intro hlast
    exact absurd (hcontent '\r' (List.mem_of_getLast? hlast)) (by decide)
  · simp
  · simp

theorem keepsLineEndings_of_attributePattern (h : attributePattern window = some hit) :
    KeepsLineEndings window hit := by
  have hopening := opening?_of_attributePattern h
  rw [attributePattern] at h
  split at h
  · obtain ⟨rest, hread, rfl⟩ := Option.map_eq_some_iff.mp h
    obtain ⟨line, htext, hattribute, _⟩ := exists_of_readAttributeLine? hread
    have hnil : Unbroken [] := List.forall_mem_nil _
    refine ⟨head?_ne_of_opening? hopening, ?_, fun ending _ => hnil.throughout ending⟩
    rw [htext, take_sub_length]
    exact hattribute.getLast?_ne
  · simp at h

/-! ### Summary blocks -/

/-- What the lines of a summary block hold stands on one line each. -/
def SummaryLine.OneLine (line : SummaryLine) : Prop := Unbroken line.indent ∧ Unbroken line.content

theorem oneLine_of_readSummaryLine? {line : SummaryLine}
    (h : readSummaryLine? text = some (line, rest)) : line.OneLine := by
  obtain ⟨content, _, h⟩ := Option.bind_eq_some_iff.mp h
  obtain ⟨_, _, heq⟩ := Option.bind_eq_some_iff.mp h
  obtain ⟨rfl, _⟩ := by simpa using heq
  refine ⟨fun c hc => ?_, fun c hc => ?_⟩
  · exact isLineBreak_eq_false_of_isBlank (List.mem_takeWhile_imp hc)
  · simpa using List.mem_takeWhile_imp hc

theorem SummaryLine.OneLine.unbroken_text {line : SummaryLine} (h : line.OneLine) :
    Unbroken line.text := by
  refine h.2.of_subset ?_
  rw [SummaryLine.text]
  split
  · exact List.nil_subset _
  · next c rest hcontent =>
      rw [hcontent]
      split
      · exact List.subset_cons_self c rest
      · exact List.Subset.refl _

theorem oneLine_of_readSummaryLines? {lines : List SummaryLine}
    (h : readSummaryLines? text = some (lines, rest)) : ∀ line ∈ lines, line.OneLine := by
  induction hlength : text.length using Nat.strongRecOn generalizing text lines with
  | ind length ih =>
      subst hlength
      rw [readSummaryLines?] at h
      split at h
      · obtain ⟨rfl, _⟩ := by simpa using h
        simp
      · split at h
        · simp at h
        · next line after hline =>
            obtain ⟨⟨others, last⟩, hothers, heq⟩ := Option.map_eq_some_iff.mp h
            obtain ⟨rfl, rfl⟩ := by simpa using heq
            rw [List.forall_mem_cons]
            exact ⟨oneLine_of_readSummaryLine? hline,
              ih _ (length_lt_of_readSummaryLine? hline) hothers rfl⟩

/-- The first line of a summary block ends, and behind its last one stands the closing tag. -/
theorem exists_of_readSummary? {lines : List SummaryLine}
    (h : readSummary? text = some (lines, rest)) :
    ∃ front, '\n' ∈ front ∧ text = (front ++ "</summary>".toList) ++ rest := by
  obtain ⟨after, htag, h⟩ := Option.bind_eq_some_iff.mp h
  obtain ⟨line, hline, h⟩ := Option.bind_eq_some_iff.mp h
  obtain ⟨lead, hlead⟩ := (skipBlanks_suffix after).trans (suffix_of_readTag? htag)
  obtain ⟨newline, hnewline, hfirst⟩ := exists_of_readNewline? hline
  obtain ⟨inside, hinside⟩ := append_suffix_of_readSummaryLines? h
  refine ⟨lead ++ (newline ++ inside), ?_, ?_⟩
  · have hfeed : '\n' ∈ newline := by
      simp only [List.mem_cons, List.not_mem_nil, or_false] at hnewline
      rcases hnewline with rfl | rfl <;> decide
    simp [hfeed]
  · rw [← hlead, hfirst, ← hinside]
    simp

/-- A block comment ends its lines as they are told to end. -/
theorem throughout_blockComment {lines : List SummaryLine} (h : ∀ line ∈ lines, line.OneLine)
    (ending : LineEnding) : ending.Throughout (blockComment ending.chars lines) := by
  have hunbroken : ∀ {text : List Char}, Unbroken text → ending.Throughout text :=
    fun h => h.throughout ending
  have hothers : ∀ others : List SummaryLine, (∀ line ∈ others, line.OneLine) →
      ending.Throughout
        (others.flatMap fun line => ending.chars ++ line.indent ++ '*' :: line.text) := by
    intro others hmem
    induction others with
    | nil => exact hunbroken (List.forall_mem_nil _)
    | cons line others ih =>
        rw [List.forall_mem_cons] at hmem
        have hstar : Unbroken ['*'] := by decide
        have hline := ending.throughout_chars.append (hunbroken hmem.1.1)
        rw [List.flatMap_cons]
        exact (hline.append (hunbroken (hstar.append hmem.1.unbroken_text))).append (ih hmem.2)
  have hopen : Unbroken "/*".toList := by decide
  have hclose : Unbroken " */".toList := by decide
  unfold blockComment
  refine ((hunbroken hopen).append ?_).append (hunbroken hclose)
  cases lines with
  | nil => exact hunbroken (List.forall_mem_nil _)
  | cons first others =>
      rw [List.forall_mem_cons] at h
      exact (hunbroken h.1.unbroken_text).append (hothers others h.2)

theorem newlineOf_eq {block : List Char} {ending : LineEnding} (h : ending.Throughout block)
    (hfeed : '\n' ∈ block) : newlineOf block = ending.chars := by
  have hpair := h.hasPair_iff hfeed
  rw [newlineOf]
  cases ending with
  | lf =>
      rw [if_neg (by simp [hpair])]
      rfl
  | crlf =>
      rw [if_pos (by simp [hpair])]
      rfl

theorem keepsLineEndings_of_summaryPattern (h : summaryPattern window = some hit) :
    KeepsLineEndings window hit := by
  have hopening := opening?_of_summaryPattern h
  obtain ⟨⟨lines, rest⟩, hsummary, h⟩ := Option.bind_eq_some_iff.mp h
  obtain rfl := Option.some.inj h
  obtain ⟨front, hfeed, htext⟩ := exists_of_readSummary? hsummary
  obtain ⟨_, _, hread⟩ := Option.bind_eq_some_iff.mp hsummary
  obtain ⟨_, _, hlines⟩ := Option.bind_eq_some_iff.mp hread
  have htaken : window.ahead.take (window.ahead.length - rest.length) =
      front ++ "</summary>".toList := by
    rw [htext, take_sub_length]
  refine ⟨head?_ne_of_opening? hopening, ?_, fun ending hending => ?_⟩
  · have hlast : (front ++ "</summary>".toList).getLast? = some '>' := by
      rw [List.getLast?_append]
      rfl
    dsimp only
    rw [htaken, hlast]
    decide
  · dsimp only at hending ⊢
    have hmem : '\n' ∈ front ++ "</summary>".toList := List.mem_append_left _ hfeed
    rw [htaken] at hending ⊢
    rw [newlineOf_eq hending hmem]
    apply throughout_blockComment
    exact fun line hline => oneLine_of_readSummaryLines? hlines line (List.mem_of_mem_filter hline)

end Replacements

end TypeScribe.Scan
