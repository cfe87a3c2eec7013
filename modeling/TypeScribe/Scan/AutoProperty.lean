import TypeScribe.Name.Property
import TypeScribe.Scan.Reader
import TypeScribe.Scan.Recognizer
import TypeScribe.TsType.OfTypeExpr

/-!
# Properties

Modifiers, a type, a name, and either accessors between braces or an expression body. Where the text
can be read in several ways, more modifiers go before fewer and a shorter generic part before a
longer one; the first reading that fits is the only one considered.
-/

namespace TypeScribe.Scan

open Text

def accessModifiers : List String := ["public", "protected", "internal", "private"]

def memberModifiers : List String :=
  ["new", "override", "virtual", "abstract", "sealed", "static", "required", "readonly"]

structure PropertyText where
  type : List Char
  name : List Char
  rest : List Char
  deriving DecidableEq

def skipAccess (text : List Char) : List Char :=
  (readKeyword? accessModifiers text).getD text

def readSemicolon? (text : List Char) : Option (List Char) :=
  match skipSpaces text with
  | ';' :: rest => some (skipSpaces rest)
  | _ => none

def readGetter? (text : List Char) : Option (List Char) :=
  (readText? "get" (skipAccess text)).bind readSemicolon?

def readSetter? (text : List Char) : Option (List Char) :=
  let text := skipAccess text
  ((readText? "set" text).orElse fun _ => readText? "init" text).bind readSemicolon?

/-- The rest after the text up to the first semicolon of the line. -/
def readStatement? (text : List Char) : Option (List Char) :=
  match text.dropWhile fun c => c != ';' && !isLineBreak c with
  | ';' :: rest => some rest
  | _ => none

def readInitializer? (text : List Char) : Option (List Char) :=
  match skipBlanks text with
  | '=' :: rest => readStatement? rest
  | _ => none

/-- The rest after a getter, perhaps a setter, the closing brace and perhaps an initializer. -/
def readAccessors? (text : List Char) : Option (List Char) := do
  let text ← readGetter? (skipSpaces text)
  match (readSetter? text).getD text with
  | '\x7d' :: rest => return (readInitializer? rest).getD rest
  | _ => none

def readBody? : List Char → Option (List Char)
  | '\x7b' :: rest => readAccessors? rest
  | '=' :: '>' :: rest => readStatement? rest
  | _ => none

/-- The texts after each `>` that may end the generic part, the longest text first. -/
def afterGeneric : List Char → List (List Char)
  | [] => []
  | c :: rest =>
      if c = '>' then rest :: afterGeneric rest
      else if c ∈ [';', '\x7b', '\x7d', '=', '\r', '\n'] then []
      else afterGeneric rest

/-- The rest after the bracket pairs that hold nothing but commas. -/
def skipBrackets (text : List Char) : List Char :=
  match _h : text with
  | '[' :: rest =>
      match _hcommas : rest.dropWhile (· == ',') with
      | ']' :: after => skipBrackets after
      | _ => text
  | _ => text
termination_by text.length
decreasing_by
  have hcommas := (List.dropWhile_suffix (l := rest) (· == ',')).length_le
  rw [_hcommas, List.length_cons] at hcommas
  simp only [List.length_cons]
  omega

/-- The rest after what may follow a type name and its arguments, and the rest after the white space
before the property's name. If nothing but white space stands between, it has to be there; behind a
mark or brackets it has to stand again. -/
def readTypeEnd? (text : List Char) : Option (List Char × List Char) :=
  let suffix := skipSpaces text
  if suffix.head?.any isAsciiWord then
    if text.head?.any isSpace then some (suffix, suffix) else none
  else
    let after := skipBrackets ((readText? "?" suffix).getD suffix)
    (readSpaces? after).map fun rest => (after, rest)

def readNameAndBody? (text : List Char) : Option (List Char × List Char) := do
  let (name, rest) ← readWord? text
  let rest ← readBody? (skipSpaces rest)
  return (name, rest)

/-- The texts after each possible end of the type name and its arguments. -/
def afterTypeName (text : List Char) : List (List Char) :=
  match readWord? text with
  | none => []
  | some (_, rest) =>
      match skipSpaces rest with
      | '<' :: generic => afterGeneric generic
      | _ => [rest]

def readTypedProperty? (text : List Char) : Option PropertyText :=
  (afterTypeName text).findSome? fun rest => do
    let (after, rest) ← readTypeEnd? rest
    let (name, rest) ← readNameAndBody? rest
    return ⟨text.take (text.length - after.length), name, rest⟩

def readProperty? (text : List Char) : Option PropertyText :=
  (afterKeywords accessModifiers text).findSome? fun text =>
    (afterKeywords memberModifiers text).findSome? readTypedProperty?

def propertyDeclaration (config : Config) (name : List Char) (type : TypeExpr) : List Char :=
  (propertyName config (String.ofList name)).toList ++ ": ".toList ++
    (type.emit config.trimmer).toList ++ ";".toList

def findProperty (window : Window) : Option PropertyText := readProperty? window.ahead

/-- A property is refused in a line comment and if its type is malformed. -/
def judgeProperty (config : Config) (window : Window) (property : PropertyText) : Option Hit :=
  if window.inLineComment then none
  else
    (TypeExpr.parse (String.ofList property.type)).toOption.map fun type =>
      ⟨window.ahead.length - property.rest.length, propertyDeclaration config property.name type⟩

theorem length_le_of_judgeProperty {config : Config} {window : Window} {property : PropertyText}
    {hit : Hit} (h : judgeProperty config window property = some hit) :
    hit.length ≤ window.ahead.length := by
  rw [judgeProperty] at h
  split at h
  · simp at h
  · obtain ⟨type, _, rfl⟩ := Option.map_eq_some_iff.mp h
    exact Nat.sub_le _ _

def propertyRecognizer : Recognizer :=
  .ofCandidates "auto-property" findProperty judgeProperty length_le_of_judgeProperty

end TypeScribe.Scan
