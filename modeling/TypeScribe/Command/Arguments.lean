import TypeScribe.Command.Run

/-!
# The command line

Arguments are read from left to right. A request for help or for the version ends the reading at
once, and so does an argument that is wrong by itself; whether all that is needed was given, and
whether options go together, is decided at the end.
-/

namespace TypeScribe

namespace Arguments

inductive UsageError where
  | missingCommand
  | unknownCommand (name : String)
  | unknownOption (name : String)
  | missingValue (option : String)
  | emptyValue (name : String)
  | unexpectedValue (option : String)
  | repeated (option : String)
  | missingArgument (name : String)
  | unexpectedArgument (text : String)
  | invalidArgument (text : String)
  | conflict (option other : String)
  deriving DecidableEq, Repr

def UsageError.message : UsageError → String
  | .missingCommand => "a command is required"
  | .unknownCommand name => "unrecognized command '" ++ name ++ "'"
  | .unknownOption name => "unexpected option '" ++ name ++ "'"
  | .missingValue option => "option '--" ++ option ++ "' needs a value"
  | .emptyValue name => "the value of '" ++ name ++ "' must not be empty"
  | .unexpectedValue option => "option '--" ++ option ++ "' takes no value"
  | .repeated option => "option '--" ++ option ++ "' cannot be used multiple times"
  | .missingArgument name => "the argument " ++ name ++ " is required"
  | .unexpectedArgument text => "unexpected argument '" ++ text ++ "'"
  | .invalidArgument text => "invalid argument '" ++ text ++ "'"
  | .conflict option other =>
      "option '--" ++ option ++ "' cannot be used with '--" ++ other ++ "'"

inductive Stop where
  | help
  | version
  | usage (error : UsageError)
  deriving DecidableEq, Repr

inductive OptionKind where
  /-- May be given once, without a value. -/
  | flag
  /-- May be given any number of times, without a value. -/
  | counter
  /-- May be given once, with a path. -/
  | path
  /-- May be given any number of times, with a value each. -/
  | list
  | help
  | version
  deriving DecidableEq, Repr

structure OptionSpec where
  name : String
  letter : Option Char
  kind : OptionKind
  deriving DecidableEq, Repr

def OptionSpec.takesValue (spec : OptionSpec) : Bool :=
  spec.kind == .path || spec.kind == .list

structure Given where
  /-- The options by name, in order, with their values; options without a value have an empty one. -/
  options : List (String × String) := []
  words : List String := []
  deriving DecidableEq, Repr

namespace Given

def has (given : Given) (name : String) : Bool :=
  given.options.any fun option => option.1 == name

def values (given : Given) (name : String) : List String :=
  (given.options.filter fun option => option.1 == name).map Prod.snd

end Given

inductive Form where
  /-- The argument `--`, after which options are no longer looked for. -/
  | separator
  | long (name : String) (value : Option String)
  | letters (letters : List Char)
  | word (text : String)
  deriving DecidableEq, Repr

def Form.ofArgument (argument : String) : Form :=
  match argument.toList with
  | ['-', '-'] => .separator
  | '-' :: '-' :: text =>
      let name := String.ofList (text.takeWhile (· != '='))
      match text.dropWhile (· != '=') with
      | _ :: value => .long name (some (String.ofList value))
      | [] => .long name none
  | '-' :: c :: text => .letters (c :: text)
  | _ => .word argument

def giveFlag (spec : OptionSpec) (given : Given) : Except Stop Given :=
  match spec.kind with
  | .help => .error .help
  | .version => .error .version
  | _ =>
      if spec.kind = .flag ∧ given.has spec.name then .error (.usage (.repeated spec.name))
      else .ok { given with options := given.options ++ [(spec.name, "")] }

def giveValue (spec : OptionSpec) (value : String) (given : Given) : Except Stop Given :=
  if spec.kind = .path ∧ value = "" then .error (.usage (.emptyValue spec.name))
  else if spec.kind = .path ∧ given.has spec.name then .error (.usage (.repeated spec.name))
  else .ok { given with options := given.options ++ [(spec.name, value)] }

/-- Adds the options of an argument in long form. An option whose value is still to come is the second
result. -/
def giveLong (specs : List OptionSpec) (name : String) (value : Option String) (given : Given) :
    Except Stop (Given × Option OptionSpec) :=
  match specs.find? (·.name == name), value with
  | none, _ => .error (.usage (.unknownOption name))
  | some spec, some value =>
      if spec.takesValue then do return (← giveValue spec value given, none)
      else .error (.usage (.unexpectedValue name))
  | some spec, none =>
      if spec.takesValue then .ok (given, some spec) else do return (← giveFlag spec given, none)

/-- Adds the options of an argument of letters. The letters after an option that takes a value are
that value, with or without `=` between. -/
def giveLetters (specs : List OptionSpec) (given : Given) :
    List Char → Except Stop (Given × Option OptionSpec)
  | [] => .ok (given, none)
  | c :: rest =>
      match specs.find? (·.letter == some c) with
      | none => .error (.usage (.unknownOption (String.ofList [c])))
      | some spec =>
          if spec.takesValue then
            match rest with
            | [] => .ok (given, some spec)
            | '=' :: value => do return (← giveValue spec (String.ofList value) given, none)
            | value => do return (← giveValue spec (String.ofList value) given, none)
          else
            match giveFlag spec given with
            | .error stop => .error stop
            | .ok given => giveLetters specs given rest

/-- Adds a word, which has to be the only one and acceptable to the command. -/
def giveWord (accepts : Option (String → Except UsageError Unit)) (word : String) (given : Given) :
    Except Stop Given :=
  match accepts with
  | none => .error (.usage (.unexpectedArgument word))
  | some accepts =>
      if given.words.isEmpty then
        match accepts word with
        | .error error => .error (.usage error)
        | .ok () => .ok { given with words := [word] }
      else .error (.usage (.unexpectedArgument word))

/-- Reads the arguments of a command. `pending` is the option whose value the next argument is, and
`options` says whether options are still looked for. -/
def readArguments (specs : List OptionSpec) (accepts : Option (String → Except UsageError Unit))
    (pending : Option OptionSpec) (options : Bool) (given : Given) :
    List String → Except Stop Given
  | [] =>
      match pending with
      | some spec => .error (.usage (.missingValue spec.name))
      | none => .ok given
  | argument :: rest =>
      if !options then
        match giveWord accepts argument given with
        | .error stop => .error stop
        | .ok given => readArguments specs accepts none false given rest
      else
        match pending, Form.ofArgument argument with
        | some spec, .word value =>
            match giveValue spec value given with
            | .error stop => .error stop
            | .ok given => readArguments specs accepts none true given rest
        | some spec, _ => .error (.usage (.missingValue spec.name))
        | none, .separator => readArguments specs accepts none false given rest
        | none, .long name value =>
            match giveLong specs name value given with
            | .error stop => .error stop
            | .ok (given, pending) => readArguments specs accepts pending true given rest
        | none, .letters letters =>
            match giveLetters specs given letters with
            | .error stop => .error stop
            | .ok (given, pending) => readArguments specs accepts pending true given rest
        | none, .word word =>
            match giveWord accepts word given with
            | .error stop => .error stop
            | .ok given => readArguments specs accepts none true given rest

def commonOptions : List OptionSpec :=
  [⟨"verbose", some 'v', .counter⟩, ⟨"help", some 'h', .help⟩]

def configOption : OptionSpec := ⟨"config", some 'c', .path⟩

def settingsOptions : List OptionSpec :=
  [configOption, ⟨"camel-case", none, .flag⟩, ⟨"trim-postfix", none, .list⟩,
   ⟨"recursive-trim", none, .flag⟩]

def settingsChoice (given : Given) : SettingsChoice :=
  { file := (given.values "config").head?
    camelCase := given.has "camel-case"
    trimPostfixes := given.values "trim-postfix"
    recursiveTrim := given.has "recursive-trim" }

def acceptPath (path : String) : Except UsageError Unit :=
  if path = "" then .error (.emptyValue "INPUT") else .ok ()

def acceptAny (_ : String) : Except UsageError Unit := .ok ()

def shell? (name : String) : Option Shell :=
  [("bash", Shell.bash), ("elvish", .elvish), ("fish", .fish), ("powershell", .powershell),
   ("zsh", .zsh)].lookup name

def acceptShell (name : String) : Except UsageError Unit :=
  if (shell? name).isSome then .ok () else .error (.invalidArgument name)

def readConvert (arguments : List String) : Except Stop Command := do
  let specs :=
    commonOptions ++ settingsOptions ++
      [⟨"output", some 'o', .path⟩, ⟨"summary", none, .flag⟩]
  let given ← readArguments specs (some acceptPath) none true {} arguments
  return .convert given.words.head? (given.values "output").head? (given.has "summary")
    (settingsChoice given)

/-- The options that make no sense beside `--json`, which shows the type as it was read. -/
def jsonConflicts : List String := ["camel-case", "trim-postfix", "recursive-trim"]

def readType (arguments : List String) : Except Stop Command := do
  let specs := commonOptions ++ settingsOptions ++ [⟨"json", none, .flag⟩]
  let given ← readArguments specs (some acceptAny) none true {} arguments
  match given.words with
  | [] => throw (.usage (.missingArgument "EXPR"))
  | expression :: _ =>
      match given.has "json", jsonConflicts.find? given.has with
      | true, some other => throw (.usage (.conflict "json" other))
      | json, _ => return .type expression json (settingsChoice given)

def settingsPath (given : Given) : String :=
  (given.values "config").head?.getD SettingsFile.defaultPath

def readCheck (arguments : List String) : Except Stop Command := do
  let given ← readArguments (commonOptions ++ [configOption]) none none true {} arguments
  return .check (settingsPath given)

def readInit (arguments : List String) : Except Stop Command := do
  let specs := commonOptions ++ [configOption, ⟨"force", none, .flag⟩]
  let given ← readArguments specs none none true {} arguments
  return .init (settingsPath given) (given.has "force")

def readCompletions (arguments : List String) : Except Stop Command := do
  let given ← readArguments commonOptions (some acceptShell) none true {} arguments
  match given.words.head?.bind shell? with
  | none => throw (.usage (.missingArgument "SHELL"))
  | some shell => return .completions shell

/-- A request for help, on one command at most. -/
def readHelp : List String → Stop
  | [] => .help
  | [name] => if name ∈ commandWords then .help else .usage (.unknownCommand name)
  | _ :: name :: _ => .usage (.unknownCommand name)

def readCommand (name : String) (arguments : List String) : Except Stop Command :=
  if name = "convert" then readConvert arguments
  else if name = "type" then readType arguments
  else if name = "check" then readCheck arguments
  else if name = "init" then readInit arguments
  else if name = "completions" then readCompletions arguments
  else if name = "help" then .error (readHelp arguments)
  else .error (.usage (.unknownCommand name))

def leadingOptions : List OptionSpec := commonOptions ++ [⟨"version", some 'V', .version⟩]

def parse : List String → Except Stop Command
  | [] => .error (.usage .missingCommand)
  | argument :: rest =>
      match Form.ofArgument argument with
      | .separator => .error (.usage .missingCommand)
      | .long name value =>
          match giveLong leadingOptions name value {} with
          | .error stop => .error stop
          | .ok _ => parse rest
      | .letters letters =>
          match giveLetters leadingOptions {} letters with
          | .error stop => .error stop
          | .ok _ => parse rest
      | .word name => readCommand name rest

def versionText : String := "cs2ts 0.3.0\n"

def helpText : String :=
  "Convert C# class definitions into TypeScript declarations\n\n" ++
    "Usage: cs2ts [-v]... <COMMAND>\n\n" ++
    "Commands:\n" ++
    "  convert [INPUT] [-o PATH] [--summary] [SETTINGS]   Convert C# source text\n" ++
    "  type EXPR [--json] [SETTINGS]                      Convert a single type expression\n" ++
    "  check [-c PATH]                                    Validate a settings file\n" ++
    "  init [-c PATH] [--force]                           Write a default settings file\n" ++
    "  completions SHELL                                  Print shell completions\n" ++
    "  help [COMMAND]                                     Print this text\n\n" ++
    "Settings:\n" ++
    "  -c, --config PATH        Settings file\n" ++
    "      --camel-case         Lower-case the first character of property names\n" ++
    "      --trim-postfix TEXT  Postfix to trim from names; repeat for several\n" ++
    "      --recursive-trim     Keep trimming postfixes until none matches\n"

def Stop.outcome : Stop → Outcome
  | .help => { exit := 0, stdout := helpText }
  | .version => { exit := 0, stdout := versionText }
  | .usage error => { exit := 2, stderr := "error: " ++ error.message ++ "\n" }

end Arguments

def runArguments (arguments : List String) (stdin : ByteArray) (directory : Directory) :
    Outcome × Directory :=
  match Arguments.parse arguments with
  | .error stop => (stop.outcome, directory)
  | .ok command => command.run stdin directory

end TypeScribe
