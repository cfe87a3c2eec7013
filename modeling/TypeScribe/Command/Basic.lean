import TypeScribe.Settings.File
import TypeScribe.TypeExpr.Error

/-!
# Commands

What the program can be asked to do, and what running a command comes to.
-/

namespace TypeScribe

/-- Which settings a command uses: those of a file, overlaid with options. -/
structure SettingsChoice where
  /-- The settings file; without one, the file at the usual place counts if it exists. -/
  file : Option String := none
  camelCase : Bool := false
  trimPostfixes : List String := []
  recursiveTrim : Bool := false
  deriving DecidableEq, Repr

inductive Shell where
  | bash
  | elvish
  | fish
  | powershell
  | zsh
  deriving DecidableEq, Repr

inductive Command where
  /-- Convert a source file, or standard input. -/
  | convert (input output : Option String) (summary : Bool) (settings : SettingsChoice)
  /-- Convert a single type expression, or show how it was read. -/
  | type (expression : String) (json : Bool) (settings : SettingsChoice)
  | check (path : String)
  /-- Write a settings file, over an existing one only if forced. -/
  | init (path : String) (force : Bool)
  | completions (shell : Shell)
  deriving DecidableEq, Repr

inductive Failure where
  | settings (error : Settings.Error)
  | type (error : TypeExpr.ParseError)
  | unreadable (path : String)
  | unreadableInput
  | unwritable (path : String)
  | occupied (path : String)
  deriving DecidableEq, Repr

def Failure.message : Failure → String
  | .settings error => error.message
  | .type error => error.message
  | .unreadable path => "Failed to read " ++ path
  | .unreadableInput => "Failed to read stdin"
  | .unwritable path => "Failed to write " ++ path
  | .occupied path => path ++ " already exists (use --force to overwrite)"

/-- What a command shows and the exit code it ends with. -/
structure Outcome where
  exit : Nat
  stdout : String := ""
  stderr : String := ""
  deriving DecidableEq, Repr

def Failure.outcome (failure : Failure) : Outcome :=
  { exit := 1, stderr := "Error: " ++ failure.message ++ "\n" }

end TypeScribe
