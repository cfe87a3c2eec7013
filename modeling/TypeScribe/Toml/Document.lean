import TypeScribe.Toml.Moment
import TypeScribe.Toml.Quoted
import TypeScribe.Toml.Table

/-!
# TOML documents

Statements, one a line: keys with values, and the headers of tables. Whatever follows a value on its
line has to be a comment. Arrays and inline tables nest eighty deep at most, and a key has eighty
parts at most.
-/

namespace TypeScribe.Toml

open Text

def isBareKeyChar (c : Char) : Bool := c.isAlphanum || c == '_' || c == '-'

def readKeyPart? : List Char → Option (String × List Char)
  | '"' :: rest => (readBasic? rest).map fun (key, rest) => (String.ofList key, rest)
  | '\'' :: rest => (readLiteral? rest).map fun (key, rest) => (String.ofList key, rest)
  | text =>
      let key := text.takeWhile isBareKeyChar
      if key.isEmpty then none else some (String.ofList key, text.dropWhile isBareKeyChar)

/-- How many parts a key may have, and how deep arrays and inline tables may nest. -/
def depthLimit : Nat := 80

/-- A key of at most `limit` parts between dots: all parts but the last, the last, and the rest. -/
def readKeyParts? : (limit : Nat) → List Char → Option ((List String × String) × List Char)
  | 0, _ => none
  | limit + 1, text => do
      let (part, rest) ← readKeyPart? (text.dropWhile isBlank)
      match rest.dropWhile isBlank with
      | '.' :: rest =>
          let ((path, key), rest) ← readKeyParts? limit rest
          return ((part :: path, key), rest)
      | rest => return (([], part), rest)

def readKey? (text : List Char) : Option ((List String × String) × List Char) :=
  readKeyParts? depthLimit text

def skipGap? (inComment : Bool) : List Char → Option (List Char)
  | [] => some []
  | '\n' :: rest => skipGap? false rest
  | '\r' :: '\n' :: rest => skipGap? false rest
  | c :: rest =>
      if inComment then (if isPlain c then skipGap? true rest else none)
      else if isBlank c then skipGap? false rest
      else if c = '#' then skipGap? true rest
      else some (c :: rest)

/-- The rest after what may stand behind a statement on its line. -/
def readLineEnd? (text : List Char) : Option (List Char) :=
  let rest :=
    match text.dropWhile isBlank with
    | '#' :: comment => comment.dropWhile isPlain
    | rest => rest
  match rest with
  | [] => some []
  | '\n' :: rest => some rest
  | '\r' :: '\n' :: rest => some rest
  | _ => none

def endsScalar (c : Char) : Bool :=
  isBlank c || isLineBreak c || c == ',' || c == ']' || c == '\x7d' || c == '#'

/-- The text of a value written without quotes or brackets, and the rest. A blank may join a date to
the time after it. -/
def scalarText (text : List Char) : List Char × List Char :=
  let first := text.takeWhile (!endsScalar ·)
  let rest := text.dropWhile (!endsScalar ·)
  match rest with
  | ' ' :: c :: more =>
      if readDate? first = some [] ∧ c.isDigit then
        (first ++ ' ' :: (c :: more).takeWhile (!endsScalar ·),
          (c :: more).dropWhile (!endsScalar ·))
      else (first, rest)
  | _ => (first, rest)

def scalar? (text : List Char) : Option Value :=
  if text = ['t', 'r', 'u', 'e'] then some (.boolean true)
  else if text = ['f', 'a', 'l', 's', 'e'] then some (.boolean false)
  else
    match integer? text with
    | some value => some (.integer value)
    | none =>
        if isFloat text then some (.float (String.ofList text))
        else if isMoment text then some (.moment (String.ofList text))
        else none

/-- The items of an array after its opening bracket, and the rest after the closing one. -/
def readItems? (readItem : List Char → Option (Value × List Char)) :
    (fuel : Nat) → List Char → Option (List Value × List Char)
  | 0, _ => none
  | fuel + 1, text => do
      match ← skipGap? false text with
      | ']' :: rest => return ([], rest)
      | text =>
          let (item, rest) ← readItem text
          match ← skipGap? false rest with
          | ']' :: rest => return ([item], rest)
          | ',' :: rest =>
              let (items, rest) ← readItems? readItem fuel rest
              return (item :: items, rest)
          | _ => none

/-- Adds the members of an inline table to `table`, and finds the rest after the closing brace. The
text begins with a member. -/
def readMembers? (readMember : List Char → Option (Value × List Char)) :
    (fuel : Nat) → Table → List Char → Option (Table × List Char)
  | 0, _, _ => none
  | fuel + 1, table, text => do
      let ((path, key), rest) ← readKey? text
      match rest with
      | '=' :: rest =>
          let (value, rest) ← readMember (rest.dropWhile isBlank)
          let table ← table.define path key value
          match rest.dropWhile isBlank with
          | '\x7d' :: rest => return (table, rest)
          | ',' :: rest => readMembers? readMember fuel table rest
          | _ => none
      | _ => none

/-- The value at the front of the text, nested at most `depth` deep, and the rest. -/
def readValue? : (depth : Nat) → List Char → Option (Value × List Char)
  | depth, '[' :: rest =>
      match depth with
      | 0 => none
      | depth + 1 =>
          (readItems? (readValue? depth) (rest.length + 1) rest).map
            fun (items, rest) => (.array items, rest)
  | depth, '\x7b' :: rest =>
      match depth with
      | 0 => none
      | depth + 1 =>
          match rest.dropWhile isBlank with
          | '\x7d' :: rest => some (.table .inline [], rest)
          | members =>
              (readMembers? (readValue? depth) members.length [] members).map
                fun (table, rest) => (.table .inline table, rest)
  | _, '"' :: rest =>
      (readString? ('"' :: rest)).map fun (content, rest) => (.text (String.ofList content), rest)
  | _, '\'' :: rest =>
      (readString? ('\'' :: rest)).map fun (content, rest) => (.text (String.ofList content), rest)
  | _, text =>
      let (written, rest) := scalarText text
      (scalar? written).map fun value => (value, rest)

/-- Reads statements to the end of the text. `header` is the path of the table opened last. Each
statement takes at least one character, so `fuel` bounds their number. -/
def readStatements? : (fuel : Nat) → (header : List String) → Table → List Char → Option Table
  | 0, _, _, _ => none
  | fuel + 1, header, table, text => do
      match ← skipGap? false text with
      | [] => return table
      | '[' :: '[' :: rest =>
          let ((path, key), rest) ← readKey? rest
          match rest with
          | ']' :: ']' :: rest =>
              let table ← table.openElement path key
              readStatements? fuel (path ++ [key]) table (← readLineEnd? rest)
          | _ => none
      | '[' :: rest =>
          let ((path, key), rest) ← readKey? rest
          match rest with
          | ']' :: rest =>
              let table ← table.openTable path key
              readStatements? fuel (path ++ [key]) table (← readLineEnd? rest)
          | _ => none
      | text =>
          let ((path, key), rest) ← readKey? text
          match rest with
          | '=' :: rest =>
              let (value, rest) ← readValue? depthLimit (rest.dropWhile isBlank)
              let table ← table.defineBelow header path key value
              readStatements? fuel header table (← readLineEnd? rest)
          | _ => none

/-- The table that a document describes. A byte order mark may stand at its front. -/
def parse? (document : String) : Option Table :=
  let text :=
    match document.toList with
    | '\ufeff' :: rest => rest
    | text => text
  readStatements? (text.length + 1) [] [] text

end TypeScribe.Toml
