import TypeScribe.Command.Basic
import TypeScribe.Report
import TypeScribe.TypeExpr.Json

/-!
# Carrying out commands

What a command does, in order: it may fail at any step, and what it has written by then stays. Nothing
is shown before the last step is done.
-/

namespace TypeScribe

/-- What a command that succeeds shows. -/
structure Shown where
  stdout : String := ""
  stderr : String := ""
  deriving DecidableEq, Repr

def commandWords : List String := ["convert", "type", "check", "init", "completions", "help"]

def Shell.completionScript (shell : Shell) : String :=
  let words := " ".intercalate commandWords
  match shell with
  | .bash => "complete -W '" ++ words ++ "' cs2ts\n"
  | .elvish =>
      "set edit:completion:arg-completer[cs2ts] = \x7b|@words| put " ++ words ++ " \x7d\n"
  | .fish => "complete -c cs2ts -f -a '" ++ words ++ "'\n"
  | .powershell =>
      "Register-ArgumentCompleter -Native -CommandName cs2ts -ScriptBlock \x7b -split '" ++ words ++
        "' \x7d\n"
  | .zsh => "compctl -k '(" ++ words ++ ")' cs2ts\n"

section Steps

variable {m : Type → Type} [Monad m] (files : Files m) (stdin : m ByteArray)

namespace SettingsChoice

def overlay (choice : SettingsChoice) (config : Config) : Config :=
  { propertiesToCamelCase := choice.camelCase || config.propertiesToCamelCase
    trimPostfixes :=
      if choice.trimPostfixes.isEmpty then config.trimPostfixes else choice.trimPostfixes
    recursiveTrimPostfixes := choice.recursiveTrim || config.recursiveTrimPostfixes }

/-- The settings to use. A settings file that is named has to exist. -/
def resolve (choice : SettingsChoice) : ExceptT Settings.Error m Config := do
  match choice.file with
  | some path => return choice.overlay (← files.openSettings path).config
  | none => return choice.overlay (← files.settingsOrDefault SettingsFile.defaultPath)

end SettingsChoice

namespace Command

/-- Whether a path stands for standard input: it is the single name `-`, behind which slashes and the
names of the same folder make no difference. -/
def isStandardInput (path : String) : Bool :=
  let names := Directory.pathNames path.toList
  names.1 == ['-'] && names.2.all fun name => name == [] || name == ['.']

/-- The source file of a conversion, if it is not standard input. -/
def sourcePath? (input : Option String) : Option String :=
  input.filter (!isStandardInput ·)

def readSource (input : Option String) : ExceptT Failure m String := do
  match sourcePath? input with
  | some path =>
      match (← files.state path).text? with
      | none => throw (.unreadable path)
      | some source => return source
  | none =>
      match String.fromUTF8? (← stdin) with
      | none => throw .unreadableInput
      | some source => return source

def perform : Command → ExceptT Failure m Shown
  | .convert input output summary settings => do
      let config ← (settings.resolve files).adapt .settings
      let source ← readSource files stdin input
      let report := Report.Summary.ofSource config ((sourcePath? input).getD "<stdin>") source
      let stderr := if summary then Report.print report.lines else ""
      match output with
      | none => return { stdout := report.output, stderr }
      | some path =>
          if ← files.write path report.output.toUTF8 then return { stderr }
          else throw (.unwritable path)
  | .type expression json settings => do
      let config ← (settings.resolve files).adapt .settings
      let type ← (TypeExpr.parse expression).mapError Failure.type
      return { stdout := (if json then type.json else type.emit config.trimmer) ++ "\n" }
  | .check path => do
      let file ← (files.openSettings path).adapt .settings
      return { stdout := Report.print (Report.settingsLines path file.config) }
  | .init path force => do
      if (← files.state path).isPresent && !force then throw (.occupied path)
      else
        let file ← (files.createSettings path).adapt .settings
        return { stdout := "Created " ++ file.path ++ "\n" }
  | .completions shell => return { stdout := shell.completionScript }

end Command

end Steps

def Outcome.ofResult : Except Failure Shown → Outcome
  | .error failure => failure.outcome
  | .ok shown => { exit := 0, stdout := shown.stdout, stderr := shown.stderr }

/-- The outcome of a command in a directory, and the directory that it leaves behind. -/
def Command.run (command : Command) (stdin : ByteArray) (directory : Directory) :
    Outcome × Directory :=
  let (result, after) := (command.perform Directory.files (pure stdin)).run directory
  (Outcome.ofResult result, after)

end TypeScribe
