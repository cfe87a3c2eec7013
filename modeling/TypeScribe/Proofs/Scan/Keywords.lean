import Mathlib.Data.List.TakeWhile
import TypeScribe.Proofs.Text.CharClass
import TypeScribe.Scan.Reader

/-!
# Words and keywords in front of a text

Keywords stand before a word that might be a keyword itself. Reading takes as many keywords as it
can and gives them back one by one, so a reading that succeeds behind some keywords decides the
search unless one behind more of them succeeds as well.
-/

namespace TypeScribe.Scan

open Text

/-- A word of source code: not empty, and nothing but ASCII word characters. -/
def IsWord (word : List Char) : Prop := word ≠ [] ∧ ∀ c ∈ word, isAsciiWord c = true

instance (word : List Char) : Decidable (IsWord word) :=
  decidable_of_iff (word ≠ [] ∧ word.all isAsciiWord = true) (by rw [List.all_eq_true]; rfl)

section Word

variable {word rest text : List Char}

theorem IsWord.exists_cons (h : IsWord word) :
    ∃ c more, word = c :: more ∧ isAsciiWord c = true ∧ isSpace c = false := by
  obtain ⟨c, more, rfl⟩ := List.exists_cons_of_ne_nil h.1
  have hc := h.2 c List.mem_cons_self
  refine ⟨c, more, rfl, hc, ?_⟩
  rw [Bool.eq_false_iff]
  intro hspace
  simp [isAsciiWord_eq_false_of_isSpace hspace] at hc

theorem readWord?_append (h : IsWord word) (hrest : rest.head?.any isAsciiWord = false) :
    readWord? (word ++ rest) = some (word, rest) := by
  rw [readWord?, takeWhile_append_of_boundary h.2 hrest, dropWhile_append_of_boundary h.2 hrest]
  simp [h.1]

theorem isWord_of_readWord? (h : readWord? text = some (word, rest)) : IsWord word := by
  rw [readWord?] at h
  split at h
  · simp at h
  · next hne =>
      obtain ⟨rfl, _⟩ := by simpa using h
      exact ⟨by simpa using hne, fun c hc => List.mem_takeWhile_imp hc⟩

theorem readWord?_eq_none (h : text.head?.any isAsciiWord = false) : readWord? text = none := by
  rw [readWord?, takeWhile_eq_nil_of_boundary h]
  rfl

theorem skipSpaces_eq_self (h : text.head?.any isSpace = false) : skipSpaces text = text :=
  dropWhile_eq_self_of_boundary h

theorem skipSpaces_space (h : rest.head?.any isSpace = false) :
    skipSpaces (' ' :: rest) = rest := by
  have hspace : skipSpaces (' ' :: rest) = skipSpaces rest :=
    List.dropWhile_cons_of_pos (by decide)
  rw [hspace, skipSpaces_eq_self h]

theorem skipBlanks_eq_self (h : text.head?.any isSpace = false) : skipBlanks text = text := by
  apply dropWhile_eq_self_of_boundary
  cases text with
  | nil => rfl
  | cons c text =>
      rw [Bool.eq_false_iff]
      intro hblank
      simp [isSpace_of_isBlank hblank] at h

theorem readSpaces?_space (h : rest.head?.any isSpace = false) :
    readSpaces? (' ' :: rest) = some rest := by
  rw [readSpaces?, if_pos (by decide), skipSpaces_eq_self h]

theorem readSpaces?_eq_none (h : text.head?.any isSpace = false) : readSpaces? text = none := by
  cases text with
  | nil => rfl
  | cons c text =>
      rw [readSpaces?, if_neg]
      simpa using h

theorem isSpace_head?_eq_false (h : text.head?.any isAsciiWord = true) :
    text.head?.any isSpace = false := by
  cases text with
  | nil => rfl
  | cons c text =>
      rw [Bool.eq_false_iff]
      intro hspace
      have hc : isAsciiWord c = false := isAsciiWord_eq_false_of_isSpace hspace
      simp [hc] at h

theorem IsWord.isAsciiWord_head? (h : IsWord word) (rest : List Char) :
    (word ++ rest).head?.any isAsciiWord = true := by
  obtain ⟨c, more, rfl⟩ := List.exists_cons_of_ne_nil h.1
  exact h.2 c List.mem_cons_self

theorem IsWord.isSpace_head? (h : IsWord word) (rest : List Char) :
    (word ++ rest).head?.any isSpace = false :=
  isSpace_head?_eq_false (h.isAsciiWord_head? rest)

/-! ### Keywords -/

variable {words : List String}

theorem readKeyword?_of_readWord?_eq_none (h : readWord? text = none) :
    readKeyword? words text = none := by
  rw [readKeyword?, h, Option.bind_none]

theorem readKeyword?_append (h : IsWord word) (hrest : rest.head?.any isAsciiWord = false) :
    readKeyword? words (word ++ rest) =
      if String.ofList word ∈ words then readSpaces? rest else none := by
  rw [readKeyword?, readWord?_append h hrest, Option.bind_some]

theorem readKeyword?_of_not_mem (h : IsWord word) (hrest : rest.head?.any isAsciiWord = false)
    (hmem : String.ofList word ∉ words) : readKeyword? words (word ++ rest) = none := by
  rw [readKeyword?_append h hrest, if_neg hmem]

theorem readKeyword?_of_mem (h : IsWord word) (hrest : rest.head?.any isSpace = false)
    (hmem : String.ofList word ∈ words) : readKeyword? words (word ++ ' ' :: rest) = some rest := by
  rw [readKeyword?_append h rfl, if_pos hmem, readSpaces?_space hrest]

/-- A word and a space can at most be taken off together. -/
theorem eq_of_readKeyword?_append (h : IsWord word) (hrest : rest.head?.any isSpace = false)
    (hread : readKeyword? words (word ++ ' ' :: rest) = some text) : text = rest := by
  rw [readKeyword?_append h rfl, readSpaces?_space hrest] at hread
  split at hread
  · exact (Option.some.inj hread).symm
  · simp at hread

end Word

section AfterKeywords

variable {α : Type} {words : List String} {text : List Char} {read : List Char → Option α}

theorem findSome?_afterKeywords_of_some {rest : List Char}
    (h : readKeyword? words text = some rest) :
    (afterKeywords words text).findSome? read =
      ((afterKeywords words rest).findSome? read).or (read text) := by
  rw [afterKeywords_of_some h, List.findSome?_append]
  simp

theorem findSome?_afterKeywords_of_none (h : readKeyword? words text = none) :
    (afterKeywords words text).findSome? read = read text := by
  rw [afterKeywords_of_none h]
  simp

/-- Where no reading behind further keywords succeeds, the text is read as it stands. -/
theorem findSome?_afterKeywords_eq_self
    (h : ∀ rest, readKeyword? words text = some rest →
      (afterKeywords words rest).findSome? read = none) :
    (afterKeywords words text).findSome? read = read text := by
  cases hkeyword : readKeyword? words text with
  | none => exact findSome?_afterKeywords_of_none hkeyword
  | some rest =>
      rw [findSome?_afterKeywords_of_some hkeyword, h rest hkeyword, Option.none_or]

/-- The words in front of a text, each with a space behind it. -/
def spacedChars (front : List String) : List Char :=
  front.flatMap fun word => word.toList ++ [' ']

theorem spacedChars_cons (word : String) (front : List String) (rest : List Char) :
    spacedChars (word :: front) ++ rest = word.toList ++ ' ' :: (spacedChars front ++ rest) := by
  simp [spacedChars]

theorem isAsciiWord_head?_spacedChars {front : List String} {rest : List Char}
    (hfront : ∀ word ∈ front, IsWord word.toList) (hrest : rest.head?.any isAsciiWord = true) :
    (spacedChars front ++ rest).head?.any isAsciiWord = true := by
  cases front with
  | nil => exact hrest
  | cons word front =>
      rw [spacedChars_cons]
      exact (hfront word List.mem_cons_self).isAsciiWord_head? _

/-- What is read behind keywords is read in front of them. -/
theorem findSome?_afterKeywords_spacedChars {front : List String} {found : α}
    (hwords : ∀ word ∈ words, IsWord word.toList) (hfront : ∀ word ∈ front, word ∈ words)
    (hhead : text.head?.any isAsciiWord = true)
    (h : (afterKeywords words text).findSome? read = some found) :
    (afterKeywords words (spacedChars front ++ text)).findSome? read = some found := by
  induction front with
  | nil => exact h
  | cons word front ih =>
      have hmem := hfront word List.mem_cons_self
      have hrest := ih fun other hother => hfront other (List.mem_cons_of_mem word hother)
      have hlater : ∀ other ∈ front, IsWord other.toList := fun other hother =>
        hwords other (hfront other (List.mem_cons_of_mem word hother))
      have hhead' := isSpace_head?_eq_false (isAsciiWord_head?_spacedChars hlater hhead)
      have hkeyword : readKeyword? words (spacedChars (word :: front) ++ text) =
          some (spacedChars front ++ text) := by
        rw [spacedChars_cons]
        exact readKeyword?_of_mem (hwords word hmem) hhead' (by rwa [String.ofList_toList])
      rw [findSome?_afterKeywords_of_some hkeyword, hrest, Option.some_or]

end AfterKeywords

end TypeScribe.Scan
