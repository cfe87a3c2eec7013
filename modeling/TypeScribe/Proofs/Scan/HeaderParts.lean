import TypeScribe.Proofs.Scan.PropertyParts

/-!
# The parts of a header

Words with white space between them, the last of them the name, then the rest of the line of the name,
and white space before the brace, which may hold line breaks.
-/

namespace TypeScribe.Scan

open Text TypeExpr

structure HeaderText.Parts (header : HeaderText) (text : List Char) where
  lead : List Char
  /-- What stands between the rest of the header's line and the brace. -/
  gap : List Char
  text_eq : text = (lead ++ header.name) ++ (header.tail ++ (gap ++ '\x7b' :: header.rest))
  isLoose_of_mem_lead : ∀ c ∈ lead, isLoose c = true
  isWord_keyword : IsWord header.keyword
  isWord_name : IsWord header.name
  unbroken_tail : Unbroken header.tail
  spaces_gap : Spaces gap

variable {text : List Char} {header : HeaderText}

theorem nonempty_parts_of_readKeyedHeader? (h : readKeyedHeader? text = some header) :
    Nonempty (header.Parts text) := by
  obtain ⟨⟨keyword, after⟩, hkeyword, h⟩ := Option.bind_eq_some_iff.mp h
  dsimp only at h
  split at h
  · simp at h
  · obtain ⟨front, hspaces, h⟩ := Option.bind_eq_some_iff.mp h
    obtain ⟨⟨name, behind⟩, hname, h⟩ := Option.bind_eq_some_iff.mp h
    obtain ⟨⟨tail, last⟩, htail, h⟩ := Option.bind_eq_some_iff.mp h
    obtain rfl := Option.some.inj h
    obtain ⟨spaces, rfl, hloose⟩ := exists_of_readSpaces? hspaces
    obtain ⟨gapped, rfl, hunbroken, hbrace⟩ := exists_of_readHeaderTail? htail
    refine ⟨⟨keyword ++ spaces, gapped.takeWhile isSpace, ?_, fun c hc => ?_,
      isWord_of_readWord? hkeyword, isWord_of_readWord? hname, hunbroken, takeWhile_spaces _⟩⟩
    · rw [← hbrace, skipSpaces, List.takeWhile_append_dropWhile, eq_append_of_readWord? hkeyword,
        eq_append_of_readWord? hname]
      simp
    · rcases List.mem_append.mp hc with hc | hc
      · exact isLoose_of_isAsciiWord ((isWord_of_readWord? hkeyword).2 c hc)
      · exact hloose c hc

theorem HeaderText.Parts.append (parts : header.Parts text) {front : List Char}
    (hfront : ∀ c ∈ front, isLoose c = true) : Nonempty (header.Parts (front ++ text)) :=
  ⟨{ parts with
    lead := front ++ parts.lead
    text_eq := by
      rw [List.append_assoc, List.append_assoc, ← List.append_assoc parts.lead, ← parts.text_eq]
    isLoose_of_mem_lead := fun c hc =>
      (List.mem_append.mp hc).elim (hfront c) (parts.isLoose_of_mem_lead c) }⟩

/-- What stands before the brace. -/
def HeaderText.Parts.front (parts : header.Parts text) : List Char :=
  (parts.lead ++ header.name) ++ (header.tail ++ parts.gap)

theorem HeaderText.Parts.text_eq_front (parts : header.Parts text) :
    text = parts.front ++ '\x7b' :: header.rest := by
  rw [front, List.append_assoc, List.append_assoc header.tail, ← parts.text_eq]

theorem nonempty_parts_of_readHeader? (h : readHeader? text = some header) :
    Nonempty (header.Parts text) := by
  obtain ⟨after, hpublic, hmodifiers⟩ := Option.bind_eq_some_iff.mp h
  obtain ⟨keyed, hmem, hkeyed⟩ := List.exists_of_findSome?_eq_some hmodifiers
  obtain ⟨front, rfl, hfront⟩ := exists_of_readKeyword? hpublic
  obtain ⟨more, rfl, hmore⟩ := exists_front_of_mem_afterKeywords hmem
  obtain ⟨parts⟩ := nonempty_parts_of_readKeyedHeader? hkeyed
  obtain ⟨parts⟩ := parts.append hmore
  exact parts.append hfront

/-- A hit takes the header up to its brace and puts its export there. -/
theorem exists_of_headerPattern {config : Config} {window : Window} {hit : Hit}
    (h : headerPattern config window = some hit) :
    ∃ header, Nonempty (header.Parts window.ahead) ∧
      hit = ⟨window.ahead.length - header.rest.length, exportedHeader config header⟩ := by
  obtain ⟨header, hheader, h⟩ := Option.bind_eq_some_iff.mp h
  rw [findHeader] at hheader
  rw [judgeHeader] at h
  split at hheader
  · simp at hheader
  · split at h
    · simp at h
    · exact ⟨header, nonempty_parts_of_readHeader? hheader, (Option.some.inj h).symm⟩

end TypeScribe.Scan
