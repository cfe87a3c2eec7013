import TypeScribe.Text.Located

/-!
# What can be wrong with a settings file
-/

namespace TypeScribe.Settings

open Text

/-- The content of a settings file and the name under which faults in it are reported. -/
structure Source where
  content : String
  name : String
  deriving DecidableEq, Repr

inductive Error where
  | unreadable (path : String)
  | unwritable (path : String)
  /-- The content is not TOML, or has a value of another type than its key asks for. -/
  | malformed (source : Source)
  /-- The content can be read but makes no sense; `span` is the part of it that shows why. -/
  | invalid (source : Source) (message : String) (span : Option Span)
  deriving DecidableEq, Repr

namespace Error

def message : Error → String
  | .unreadable path => "failed to read '" ++ path ++ "'"
  | .unwritable path => "failed to write '" ++ path ++ "'"
  | .malformed _ => "failed to parse settings"
  | .invalid _ message _ => message

def code : Error → String
  | .unreadable _ => "cs2ts::io_error"
  | .unwritable _ => "cs2ts::write_error"
  | .malformed _ => "cs2ts::parse_error"
  | .invalid .. => "cs2ts::validation_error"

def help? : Error → Option String
  | .unreadable _ => some "run 'cs2ts init' to create a settings file"
  | _ => none

def label? : Error → Option (String × Span)
  | .invalid _ message (some span) => some (message, span)
  | _ => none

end Error

end TypeScribe.Settings
