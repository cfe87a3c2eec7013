import TypeScribe.Text.CharClass
import TypeScribe.Toml.Number

/-!
# TOML strings

Basic strings between double quotes have escapes, literal strings between single quotes have none.
Tripled quotes allow line breaks, and up to two quotes before the closing ones.
-/

namespace TypeScribe.Toml

open Text

/-- The characters that may stand for themselves: all but control characters, the tab apart. -/
def isPlain (c : Char) : Bool := c == '\t' || (0x20 ≤ c.toNat && c.toNat != 0x7F)

/-- The character with the code written by the first `count` hexadecimal digits. -/
def readCode? (count : Nat) (text : List Char) : Option (Char × List Char) :=
  let digits := text.take count
  let code := digitsValue 16 digits
  if digits.length = count ∧ digits.all isHexDigit ∧ code.isValidChar then
    some (Char.ofNat code, text.drop count)
  else none

theorem length_le_of_readCode? {count : Nat} {text rest : List Char} {c : Char}
    (h : readCode? count text = some (c, rest)) : rest.length ≤ text.length := by
  rw [readCode?] at h
  split at h
  · obtain ⟨_, rfl⟩ := by simpa using h
    simp only [List.length_drop]
    omega
  · exact absurd h (by simp)

def letterEscapes : List (Char × Char) :=
  [('b', '\x08'), ('t', '\t'), ('n', '\n'), ('f', '\x0c'), ('r', '\r'), ('"', '"'), ('\\', '\\')]

def readEscape? : List Char → Option (Char × List Char)
  | [] => none
  | c :: rest =>
      match letterEscapes.lookup c with
      | some escaped => some (escaped, rest)
      | none =>
          if c = 'u' then readCode? 4 rest else if c = 'U' then readCode? 8 rest else none

theorem length_lt_of_readEscape? {text rest : List Char} {c : Char}
    (h : readEscape? text = some (c, rest)) : rest.length < text.length := by
  cases text with
  | nil => exact absurd h (by simp [readEscape?])
  | cons first text =>
      rw [List.length_cons, Nat.lt_succ_iff]
      rw [readEscape?] at h
      split at h
      · obtain ⟨_, rfl⟩ := by simpa using h
        exact Nat.le_refl _
      · split at h
        · exact length_le_of_readCode? h
        · split at h
          · exact length_le_of_readCode? h
          · exact absurd h (by simp)

def readBasic? (text : List Char) : Option (List Char × List Char) :=
  match text with
  | [] => none
  | '"' :: rest => some ([], rest)
  | '\\' :: rest =>
      match _h : readEscape? rest with
      | none => none
      | some (c, rest) => (readBasic? rest).map fun (content, rest) => (c :: content, rest)
  | c :: rest =>
      if isPlain c then (readBasic? rest).map fun (content, rest) => (c :: content, rest) else none
termination_by text.length
decreasing_by
  · have := length_lt_of_readEscape? _h
    simp only [List.length_cons]
    omega
  · simp

def readLiteral? : List Char → Option (List Char × List Char)
  | [] => none
  | c :: rest =>
      if c = '\'' then some ([], rest)
      else if isPlain c then
        (readLiteral? rest).map fun (content, rest) => (c :: content, rest)
      else none

def skipNewline : List Char → List Char
  | '\n' :: rest => rest
  | '\r' :: '\n' :: rest => rest
  | text => text

def skipBlankLines : List Char → List Char
  | [] => []
  | '\n' :: rest => skipBlankLines rest
  | '\r' :: '\n' :: rest => skipBlankLines rest
  | c :: rest => if isBlank c then skipBlankLines rest else c :: rest

theorem length_skipBlankLines_le (text : List Char) :
    (skipBlankLines text).length ≤ text.length := by
  fun_induction skipBlankLines text <;> simp only [List.length_cons, List.length_nil] <;> omega

/-- The rest after a backslash that ends its line, and after the blanks and line breaks that follow.
It is read after the backslash. -/
def readContinuation? (text : List Char) : Option (List Char) :=
  match text.dropWhile isBlank with
  | '\n' :: rest => some (skipBlankLines rest)
  | '\r' :: '\n' :: rest => some (skipBlankLines rest)
  | _ => none

theorem length_le_of_readContinuation? {text rest : List Char}
    (h : readContinuation? text = some rest) : rest.length ≤ text.length := by
  have hblanks := (List.dropWhile_suffix (l := text) isBlank).length_le
  rw [readContinuation?] at h
  split at h
  · next line heq =>
      obtain rfl := Option.some.inj h
      have hlines := length_skipBlankLines_le line
      rw [heq, List.length_cons] at hblanks
      omega
  · next line heq =>
      obtain rfl := Option.some.inj h
      have hlines := length_skipBlankLines_le line
      rw [heq] at hblanks
      simp only [List.length_cons] at hblanks
      omega
  · exact absurd h (by simp)

/-- If three quotes or more stand at the front, those of them that are content, two at most, and the
rest after the closing ones. -/
def readClosing? (quote : Char) (text : List Char) : Option (List Char × List Char) :=
  let count := min 5 (text.takeWhile (· == quote)).length
  if count < 3 then none else some (List.replicate (count - 3) quote, text.drop count)

def readLongBasic? (text : List Char) : Option (List Char × List Char) :=
  match readClosing? '"' text with
  | some closing => some closing
  | none =>
      match text with
      | [] => none
      | '\\' :: rest =>
          match _hline : readContinuation? rest with
          | some rest => readLongBasic? rest
          | none =>
              match _hescape : readEscape? rest with
              | none => none
              | some (c, rest) =>
                  (readLongBasic? rest).map fun (content, rest) => (c :: content, rest)
      | '\r' :: '\n' :: rest =>
          (readLongBasic? rest).map fun (content, rest) => ('\r' :: '\n' :: content, rest)
      | c :: rest =>
          if isPlain c || c == '\n' then
            (readLongBasic? rest).map fun (content, rest) => (c :: content, rest)
          else none
termination_by text.length
decreasing_by
  · have := length_le_of_readContinuation? _hline
    simp only [List.length_cons]
    omega
  · have := length_lt_of_readEscape? _hescape
    simp only [List.length_cons]
    omega
  · simp only [List.length_cons]
    omega
  · simp

def readLongLiteral? (text : List Char) : Option (List Char × List Char) :=
  match readClosing? '\'' text with
  | some closing => some closing
  | none =>
      match text with
      | [] => none
      | '\r' :: '\n' :: rest =>
          (readLongLiteral? rest).map fun (content, rest) => ('\r' :: '\n' :: content, rest)
      | c :: rest =>
          if isPlain c || c == '\n' then
            (readLongLiteral? rest).map fun (content, rest) => (c :: content, rest)
          else none
termination_by text.length
decreasing_by
  · simp only [List.length_cons]
    omega
  · simp

def readString? : List Char → Option (List Char × List Char)
  | '"' :: '"' :: '"' :: rest => readLongBasic? (skipNewline rest)
  | '\'' :: '\'' :: '\'' :: rest => readLongLiteral? (skipNewline rest)
  | '"' :: rest => readBasic? rest
  | '\'' :: rest => readLiteral? rest
  | _ => none

end TypeScribe.Toml
