import TypeScribe.Name.Trimmer
import TypeScribe.Scan.Reader
import TypeScribe.Scan.Recognizer

/-!
# Headers of public declarations

`public`, modifiers, a keyword, a name and whatever else stands before the opening brace, which may
be on a later line. Declarations that carry data become interfaces.
-/

namespace TypeScribe

def declarationKeyword (keyword : String) : String :=
  if keyword ∈ ["class", "struct", "record"] then "interface" else keyword

namespace Scan

open Text

def headerModifiers : List String := ["abstract", "sealed", "static", "partial"]

/-- A declaration header as it stands in the text, and what follows its brace. -/
structure HeaderText where
  keyword : List Char
  name : List Char
  /-- What stands between the name and the white space before the brace. -/
  tail : List Char
  rest : List Char
  deriving DecidableEq

/-- The text before the white space before the first brace, and the rest after that brace. -/
def readHeaderTail? : List Char → Option (List Char × List Char)
  | [] => none
  | c :: text =>
      match skipSpaces (c :: text) with
      | '\x7b' :: rest => some ([], rest)
      | _ =>
          if c == ';' || isLineBreak c then none
          else (readHeaderTail? text).map fun (tail, rest) => (c :: tail, rest)

def readKeyedHeader? (text : List Char) : Option HeaderText := do
  let (keyword, rest) ← readWord? text
  if keyword.head?.any Char.isDigit then none
  else
    let rest ← readSpaces? rest
    let (name, rest) ← readWord? rest
    let (tail, rest) ← readHeaderTail? rest
    return ⟨keyword, name, tail, rest⟩

def readHeader? (text : List Char) : Option HeaderText := do
  let rest ← readKeyword? ["public"] text
  (afterKeywords headerModifiers rest).findSome? readKeyedHeader?

def exportedHeader (config : Config) (header : HeaderText) : List Char :=
  "export ".toList ++ (declarationKeyword (String.ofList header.keyword)).toList ++ [' '] ++
    config.trimmer.trimChars header.name ++ header.tail ++ " \x7b".toList

/-- A header begins a word. -/
def findHeader (window : Window) : Option HeaderText :=
  if window.behind.head?.any isWordChar then none else readHeader? window.ahead

/-- A header is refused in a line comment. -/
def judgeHeader (config : Config) (window : Window) (header : HeaderText) : Option Hit :=
  if window.inLineComment then none
  else some ⟨window.ahead.length - header.rest.length, exportedHeader config header⟩

theorem length_le_of_judgeHeader {config : Config} {window : Window} {header : HeaderText}
    {hit : Hit} (h : judgeHeader config window header = some hit) :
    hit.length ≤ window.ahead.length := by
  rw [judgeHeader] at h
  split at h
  · simp at h
  · obtain rfl := Option.some.inj h
    exact Nat.sub_le _ _

def headerRecognizer : Recognizer :=
  .ofCandidates "public-member" findHeader judgeHeader length_le_of_judgeHeader

end Scan

end TypeScribe
