import TypeScribe.Name.Trimmer
import TypeScribe.Text.LetterCase

/-!
The spelling of property names in the converted text.
-/

namespace TypeScribe

open Text

/-- An abbreviation such as `ID` or `URL2` is a name without a letter that has an upper case. -/
def isAbbreviation (name : String) : Bool :=
  name.toList.all fun c => !hasUppercase c

def lowerFirst (name : String) : String :=
  match name.toList with
  | [] => ""
  | c :: rest => String.ofList (lowercase c ++ rest)

/-- The name of a property: trimmed, then begun in lower case if the settings ask for it, unless the
name as written is an abbreviation. -/
def propertyName (config : Config) (name : String) : String :=
  let trimmed := config.trimmer.trim name
  if config.propertiesToCamelCase && !isAbbreviation name then lowerFirst trimmed else trimmed

end TypeScribe
