import TypeScribe.Text.Affix

/-!
# Readers

A reader takes something off the front of a text and returns the rest.
-/

namespace TypeScribe.Scan

open Text

def skipSpaces (text : List Char) : List Char := text.dropWhile isSpace

def skipBlanks (text : List Char) : List Char := text.dropWhile isBlank

/-- The rest after white space, which has to be there. -/
def readSpaces? : List Char → Option (List Char)
  | [] => none
  | c :: rest => if isSpace c then some (skipSpaces rest) else none

/-- The rest after a line break, `\n` or `\r\n`. -/
def readNewline? : List Char → Option (List Char)
  | '\n' :: rest => some rest
  | '\r' :: '\n' :: rest => some rest
  | _ => none

@[inline]
def readText? (fixed : String) (text : List Char) : Option (List Char) :=
  fixed.toList.isPrefixOf? text

/-- The ASCII word at the front, which must not be empty, and the rest. -/
def readWord? (text : List Char) : Option (List Char × List Char) :=
  let word := text.takeWhile isAsciiWord
  if word.isEmpty then none else some (word, text.dropWhile isAsciiWord)

/-- The rest after one of the words and the white space that has to follow it. -/
def readKeyword? (words : List String) (text : List Char) : Option (List Char) :=
  (readWord? text).bind fun (word, rest) =>
    if String.ofList word ∈ words then readSpaces? rest else none

theorem length_lt_of_readSpaces? {text rest : List Char} (h : readSpaces? text = some rest) :
    rest.length < text.length := by
  cases text with
  | nil => simp [readSpaces?] at h
  | cons c text =>
      rw [readSpaces?] at h
      split at h
      · obtain rfl := by simpa using h
        have := (List.dropWhile_suffix (l := text) isSpace).length_le
        simp only [skipSpaces, List.length_cons]
        omega
      · simp at h

theorem length_lt_of_readNewline? {text rest : List Char} (h : readNewline? text = some rest) :
    rest.length < text.length := by
  unfold readNewline? at h
  split at h
  · obtain rfl := Option.some.inj h
    simp
  · obtain rfl := Option.some.inj h
    simp only [List.length_cons]
    omega
  · exact absurd h (by simp)

theorem eq_append_of_readText? {fixed : String} {text rest : List Char}
    (h : readText? fixed text = some rest) : text = fixed.toList ++ rest :=
  isPrefixOf?_eq_some_iff.mp h

theorem eq_append_of_readWord? {text word rest : List Char}
    (h : readWord? text = some (word, rest)) : text = word ++ rest := by
  rw [readWord?] at h
  split at h
  · simp at h
  · obtain ⟨rfl, rfl⟩ := by simpa using h
    exact List.takeWhile_append_dropWhile.symm

theorem length_lt_of_readKeyword? {words : List String} {text rest : List Char}
    (h : readKeyword? words text = some rest) : rest.length < text.length := by
  obtain ⟨⟨word, after⟩, hword, hrest⟩ := Option.bind_eq_some_iff.mp h
  have hsplit := congrArg List.length (eq_append_of_readWord? hword)
  rw [List.length_append] at hsplit
  by_cases hmem : String.ofList word ∈ words
  · simp only [hmem, if_true] at hrest
    have hspaces := length_lt_of_readSpaces? hrest
    omega
  · simp [hmem] at hrest

/-- The texts that remain after some of the leading keywords, the shortest text first, and then the
texts `longer`. -/
def afterKeywordsOr (words : List String) (longer : List (List Char)) (text : List Char) :
    List (List Char) :=
  match _h : readKeyword? words text with
  | some rest => afterKeywordsOr words (text :: longer) rest
  | none => text :: longer
termination_by text.length
decreasing_by exact length_lt_of_readKeyword? _h

/-- The texts that remain after some of the leading keywords, the shortest text first: a keyword that
could be read may also be left, to serve as a name. -/
def afterKeywords (words : List String) (text : List Char) : List (List Char) :=
  afterKeywordsOr words [] text

theorem afterKeywordsOr_eq_append (words : List String) (longer : List (List Char))
    (text : List Char) : afterKeywordsOr words longer text = afterKeywords words text ++ longer := by
  induction hlength : text.length using Nat.strongRecOn generalizing text longer with
  | ind length ih =>
      subst hlength
      rw [afterKeywords, afterKeywordsOr, afterKeywordsOr.eq_def words []]
      split
      · next rest hrest =>
          have hlt := length_lt_of_readKeyword? hrest
          rw [ih _ hlt (text :: longer) rest rfl, ih _ hlt [text] rest rfl]
          simp
      · rfl

theorem afterKeywords_of_some {words : List String} {text rest : List Char}
    (h : readKeyword? words text = some rest) :
    afterKeywords words text = afterKeywords words rest ++ [text] := by
  rw [afterKeywords, afterKeywordsOr]
  split
  · next rest' hrest =>
      obtain rfl := Option.some.inj (h.symm.trans hrest)
      exact afterKeywordsOr_eq_append words [text] rest
  · next hnone => simp [h] at hnone

theorem afterKeywords_of_none {words : List String} {text : List Char}
    (h : readKeyword? words text = none) : afterKeywords words text = [text] := by
  rw [afterKeywords, afterKeywordsOr]
  split
  · next hrest => simp [h] at hrest
  · rfl

end TypeScribe.Scan
