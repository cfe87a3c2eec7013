import TypeScribe.Files
import TypeScribe.Settings.Validation
import TypeScribe.Toml.Document

/-!
# Settings files

A settings file is a TOML document with up to three keys that matter; other keys are ignored.
-/

namespace TypeScribe

open Settings

namespace Toml

def boolean? (table : Table) (key : String) : Option Bool :=
  match table.lookup key with
  | none => some false
  | some (.boolean value) => some value
  | some _ => none

def text? : Value → Option String
  | .text value => some value
  | _ => none

/-- A list of strings, or a single string in place of a list. -/
def texts? (table : Table) (key : String) : Option (List String) :=
  match table.lookup key with
  | none => some []
  | some (.text value) => some [value]
  | some (.array items) => items.mapM text?
  | some _ => none

end Toml

/-- The settings in a document, unless a key has a value of the wrong type. -/
def Config.ofTable? (table : Toml.Table) : Option Config := do
  let propertiesToCamelCase ← Toml.boolean? table "propertiesToCamelCase"
  let trimPostfixes ← Toml.texts? table "trimPostfixes"
  let recursiveTrimPostfixes ← Toml.boolean? table "recursiveTrimPostfixes"
  return { propertiesToCamelCase, trimPostfixes, recursiveTrimPostfixes }

def Config.parse (source : Source) : Except Settings.Error Config :=
  match (Toml.parse? source.content).bind Config.ofTable? with
  | none => .error (.malformed source)
  | some config => validate source config

structure SettingsFile where
  path : String
  content : String
  config : Config
  deriving DecidableEq, Repr

namespace SettingsFile

/-- The settings file that commands look for when none is named. -/
def defaultPath : String := "cs2ts.toml"

def template : String :=
  "# cs2ts settings\n\n" ++
    "# Lower-case the first character of converted property names.\n" ++
    "propertiesToCamelCase = false\n\n" ++
    "# Postfixes removed from type and member names, tried in order.\n" ++
    "trimPostfixes = []\n\n" ++
    "# Keep removing postfixes until none of them matches.\n" ++
    "recursiveTrimPostfixes = false\n"

end SettingsFile

namespace Files

variable {m : Type → Type} [Monad m] (files : Files m)

def openSettings (path : String) : ExceptT Settings.Error m SettingsFile := do
  match (← files.state path).text? with
  | none => throw (.unreadable path)
  | some content => return ⟨path, content, ← Config.parse ⟨content, path⟩⟩

/-- The settings in a file, and the usual ones if there is no such file. -/
def settingsOrDefault (path : String) : ExceptT Settings.Error m Config := do
  if (← files.state path).isPresent then return (← files.openSettings path).config
  else return {}

/-- Writes the template and opens what was written. If that fails, the file stays as it was written. -/
def createSettings (path : String) : ExceptT Settings.Error m SettingsFile := do
  if ← files.write path SettingsFile.template.toUTF8 then files.openSettings path
  else throw (.unwritable path)

end Files

namespace SettingsFile

def load (states : String → FileState) (path : String) : Except Settings.Error SettingsFile :=
  ((Files.readOnly states).openSettings path).run

def loadOrDefault (states : String → FileState) (path : String) : Except Settings.Error Config :=
  ((Files.readOnly states).settingsOrDefault path).run

def create (directory : Directory) (path : String) :
    Except Settings.Error SettingsFile × Directory :=
  (Directory.files.createSettings path).run directory

end SettingsFile

end TypeScribe
