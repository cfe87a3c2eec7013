import TypeScribe.Proofs.Scan.PropertyParts

/-!
# Reading a declared header

A header that is written as `public`, modifiers, a keyword, a name, the rest of its line and a brace is
read with just these parts. The keyword is no modifier, so all modifiers are taken off. The rest of the
line does not end with white space, so all of the white space before the brace is left to the brace.
-/

namespace TypeScribe.Scan

open Text TypeExpr

/-- A header as it is declared, with one space behind each of its words but the name. -/
structure HeaderDeclaration where
  modifiers : List String
  keyword : List Char
  name : List Char
  /-- What stands between the name and the white space before the brace. -/
  tail : List Char
  /-- The white space before the brace, which may hold line breaks. -/
  gap : List Char
  modifiers_mem : ∀ word ∈ modifiers, word ∈ headerModifiers
  keyword_isWord : IsWord keyword
  keyword_head : keyword.head?.any Char.isDigit = false
  keyword_notMem : String.ofList keyword ∉ headerModifiers
  name_isWord : IsWord name
  tail_fits : ∀ c ∈ tail, c ≠ '\x7b' ∧ c ≠ ';' ∧ isLineBreak c = false
  tail_head : tail.head?.any isAsciiWord = false
  tail_last : tail.getLast?.any isSpace = false
  gap_spaces : Spaces gap

namespace HeaderDeclaration

variable (header : HeaderDeclaration)

/-- What follows the modifiers. -/
def keyedChars : List Char :=
  header.keyword ++ ' ' :: (header.name ++ (header.tail ++ (header.gap ++ ['\x7b'])))

def chars : List Char :=
  "public ".toList ++ (spacedChars header.modifiers ++ header.keyedChars)

def text (rest : List Char) : HeaderText := ⟨header.keyword, header.name, header.tail, rest⟩

end HeaderDeclaration

theorem isWord_of_mem_headerModifiers : ∀ word ∈ headerModifiers, IsWord word.toList := by
  decide

/-! ### The rest of the line -/

section Tail

variable {gap tail rest : List Char}

theorem skipSpaces_spaces (hgap : Spaces gap) (hrest : rest.head?.any isSpace = false) :
    skipSpaces (gap ++ rest) = rest :=
  dropWhile_append_of_boundary hgap hrest

/-- Behind white space a text that holds no brace and ends visibly does not go on with one. -/
theorem skipSpaces_append_ne_brace (htail : tail ≠ []) (hfits : '\x7b' ∉ tail)
    (hlast : tail.getLast?.any isSpace = false) (rest more : List Char) :
    skipSpaces (tail ++ rest) ≠ '\x7b' :: more := by
  intro hbrace
  have hvisible : skipSpaces tail ≠ [] := by
    intro hnil
    have hspace := List.dropWhile_eq_nil_iff.mp hnil _ (List.getLast_mem htail)
    simp [List.getLast?_eq_some_getLast htail, hspace] at hlast
  obtain ⟨c, visible, hcons⟩ := List.exists_cons_of_ne_nil hvisible
  have hhead := congrArg List.head? hbrace
  rw [head?_skipSpaces_append, hcons, List.head?_cons, Option.some_or, List.head?_cons] at hhead
  obtain rfl := Option.some.inj hhead
  exact hfits ((skipSpaces_suffix tail).subset (hcons ▸ List.mem_cons_self))

theorem readHeaderTail?_gap (hgap : Spaces gap) (rest : List Char) :
    readHeaderTail? (gap ++ '\x7b' :: rest) = some ([], rest) := by
  have hskip : skipSpaces (gap ++ '\x7b' :: rest) = '\x7b' :: rest :=
    skipSpaces_spaces hgap (by rfl)
  cases gap with
  | nil => rfl
  | cons c gap =>
      rw [List.cons_append] at hskip ⊢
      rw [readHeaderTail?, hskip]
      rfl

theorem readHeaderTail?_append (hgap : Spaces gap)
    (hfits : ∀ c ∈ tail, c ≠ '\x7b' ∧ c ≠ ';' ∧ isLineBreak c = false)
    (hlast : tail.getLast?.any isSpace = false) (rest : List Char) :
    readHeaderTail? (tail ++ (gap ++ '\x7b' :: rest)) = some (tail, rest) := by
  induction tail with
  | nil => exact readHeaderTail?_gap hgap rest
  | cons c tail ih =>
      obtain ⟨⟨-, hsemicolon, hbreak⟩, htail⟩ := List.forall_mem_cons.mp hfits
      have hbrace : '\x7b' ∉ c :: tail := fun hmem => (hfits _ hmem).1 rfl
      have hlater : tail.getLast?.any isSpace = false := by
        cases tail with
        | nil => rfl
        | cons d tail => rwa [List.getLast?_cons_cons] at hlast
      rw [List.cons_append, readHeaderTail?]
      split
      · next more hmore =>
          rw [← List.cons_append] at hmore
          exact absurd hmore (skipSpaces_append_ne_brace (List.cons_ne_nil c tail) hbrace hlast _ _)
      · rw [if_neg (by simp [hsemicolon, hbreak]), ih htail hlater]
        rfl

end Tail

/-! ### The whole header -/

namespace HeaderDeclaration

variable (header : HeaderDeclaration)

theorem isWord_of_mem_modifiers : ∀ word ∈ header.modifiers, IsWord word.toList :=
  fun word hword => isWord_of_mem_headerModifiers word (header.modifiers_mem word hword)

theorem isAsciiWord_head?_keyedChars (rest : List Char) :
    (header.keyedChars ++ rest).head?.any isAsciiWord = true := by
  rw [keyedChars, List.append_assoc]
  exact header.keyword_isWord.isAsciiWord_head? _

/-- The name ends where the rest of the line begins. -/
theorem tail_boundary (rest : List Char) :
    (header.tail ++ (header.gap ++ '\x7b' :: rest)).head?.any isAsciiWord = false := by
  cases htail : header.tail with
  | cons c tail =>
      have hhead := header.tail_head
      rw [htail] at hhead
      exact hhead
  | nil =>
      cases hgap : header.gap with
      | nil => exact (by decide : isAsciiWord '\x7b' = false)
      | cons c gap =>
          have hspace := header.gap_spaces c (hgap ▸ List.mem_cons_self)
          exact isAsciiWord_eq_false_of_isSpace hspace

theorem readKeyedHeader?_append (rest : List Char) :
    readKeyedHeader? (header.keyedChars ++ rest) = some (header.text rest) := by
  have htail := readHeaderTail?_append header.gap_spaces header.tail_fits header.tail_last rest
  have hname := readWord?_append header.name_isWord (header.tail_boundary rest)
  have hspace := readSpaces?_space
    (header.name_isWord.isSpace_head? (header.tail ++ (header.gap ++ '\x7b' :: rest)))
  have hchars : header.keyedChars ++ rest = header.keyword ++
      ' ' :: (header.name ++ (header.tail ++ (header.gap ++ '\x7b' :: rest))) := by
    simp [keyedChars]
  rw [readKeyedHeader?, hchars, readWord?_append header.keyword_isWord (by rfl)]
  simp [header.keyword_head, hspace, hname, htail, text]

theorem readHeader?_append (rest : List Char) :
    readHeader? (header.chars ++ rest) = some (header.text rest) := by
  have hkeyed : (afterKeywords headerModifiers (header.keyedChars ++ rest)).findSome?
      readKeyedHeader? = some (header.text rest) := by
    rw [findSome?_afterKeywords_of_none, header.readKeyedHeader?_append]
    rw [keyedChars, List.append_assoc]
    exact readKeyword?_of_not_mem header.keyword_isWord (by rfl) header.keyword_notMem
  have hhead := header.isAsciiWord_head?_keyedChars rest
  have hmodifiers := findSome?_afterKeywords_spacedChars isWord_of_mem_headerModifiers
    header.modifiers_mem hhead hkeyed
  have hspace := isSpace_head?_eq_false
    (isAsciiWord_head?_spacedChars header.isWord_of_mem_modifiers hhead)
  have hpublic : readKeyword? ["public"] ("public".toList ++
      ' ' :: (spacedChars header.modifiers ++ (header.keyedChars ++ rest))) =
        some (spacedChars header.modifiers ++ (header.keyedChars ++ rest)) :=
    readKeyword?_of_mem isWord_public hspace (by decide)
  have hchars : header.chars ++ rest = "public".toList ++
      ' ' :: (spacedChars header.modifiers ++ (header.keyedChars ++ rest)) := by
    unfold chars
    simp
  rw [readHeader?, hchars, hpublic]
  exact hmodifiers

theorem semicolon_notMem_chars : ';' ∉ header.chars := by
  have hmodifiers : ';' ∉ spacedChars header.modifiers := fun hmem =>
    absurd (isLoose_of_mem_spacedChars header.isWord_of_mem_modifiers ';' hmem) (by decide)
  have hkeyword : ';' ∉ header.keyword := not_mem_of_isWord header.keyword_isWord (by decide)
  have hname : ';' ∉ header.name := not_mem_of_isWord header.name_isWord (by decide)
  have htail : ';' ∉ header.tail := fun hmem => (header.tail_fits ';' hmem).2.1 rfl
  have hgap : ';' ∉ header.gap := fun hmem => absurd (header.gap_spaces ';' hmem) (by decide)
  unfold chars keyedChars
  simp [hmodifiers, hkeyword, hname, htail, hgap]

end HeaderDeclaration

/-- A declared header that begins a word outside of comments is taken as a whole. -/
theorem headerPattern_append {config : Config} (header : HeaderDeclaration)
    {behind rest : List Char} (hword : behind.head?.any isWordChar = false)
    (hcomment : Window.inLineComment ⟨behind, header.chars ++ rest⟩ = false) :
    headerPattern config ⟨behind, header.chars ++ rest⟩ =
      some ⟨header.chars.length, exportedHeader config (header.text rest)⟩ := by
  have hfind : findHeader ⟨behind, header.chars ++ rest⟩ = some (header.text rest) := by
    rw [findHeader, if_neg (by simp [hword]), header.readHeader?_append]
  have hlength : (header.chars ++ rest).length - (header.text rest).rest.length =
      header.chars.length := by
    rw [HeaderDeclaration.text, List.length_append, Nat.add_sub_cancel]
  rw [headerPattern, acceptedHit_of_find hfind, judgeHeader, hcomment]
  simp only [Bool.false_eq_true, if_false, hlength]

/-! ### Text without semicolons -/

section Semicolon

variable {text rest : List Char}

theorem semicolon_mem_of_readBody? (h : readBody? text = some rest) : ';' ∈ text := by
  unfold readBody? at h
  split at h
  · next text =>
      obtain ⟨after, hgetter, -⟩ := Option.bind_eq_some_iff.mp h
      obtain ⟨front, more, hskip, -⟩ := exists_of_readGetter? hgetter
      have hmem : ';' ∈ skipSpaces text := by simp [hskip]
      exact List.mem_cons_of_mem _ ((skipSpaces_suffix text).subset hmem)
  · obtain ⟨free, rfl, -⟩ := exists_of_readStatement? h
    simp
  · simp at h

/-- Both kinds of bodies of a property have a semicolon. -/
theorem propertyPattern_eq_none_of_semicolon {config : Config} {window : Window}
    (h : ';' ∉ window.ahead) : propertyPattern config window = none := by
  rw [Option.eq_none_iff_forall_ne_some]
  intro hit hhit
  obtain ⟨property, -, hread, -⟩ := exists_of_propertyPattern hhit
  obtain ⟨lead, rest, parts, htext, -, hparts⟩ := exists_parts_of_readProperty? hread
  have hbody := semicolon_mem_of_readBody? hparts.readBody?
  apply h
  rw [htext, hparts.text_eq]
  simp [hbody]

end Semicolon

end TypeScribe.Scan
