import TypeScribe.Conversion.Run

/-!
# Reports

What a command tells its user, line by line. A report says what each line is; `Line.text` decides how
it looks.
-/

namespace TypeScribe.Report

inductive Line where
  | heading (name : String)
  | keyValue (key value : String)
  | warning (message : String)
  | preformatted (text : String)
  | blank
  deriving DecidableEq, Repr

def Line.text : Line → String
  | .heading name => name ++ ":"
  | .keyValue key value => "  " ++ key ++ ": " ++ value
  | .warning message => "warning: " ++ message
  | .preformatted text => text
  | .blank => ""

def print (lines : List Line) : String :=
  String.join (lines.map fun line => line.text ++ "\n")

structure Summary where
  /-- The name under which the source is reported. -/
  input : String
  output : String
  counts : List (String × Nat)
  takenBytes : Nat
  sourceBytes : Nat
  deriving DecidableEq, Repr

namespace Summary

def ofSource (config : Config) (input source : String) : Summary :=
  let conversion := convertWith builtinRecognizers config source
  { input
    output := String.ofList conversion.output
    counts := conversion.counts
    takenBytes := conversion.takenBytes
    sourceBytes := Text.byteLength source.toList }

def total (summary : Summary) : Nat :=
  summary.counts.foldr (fun (_, count) total => count + total) 0

def lines (summary : Summary) : List Line :=
  if summary.counts.isEmpty then [.warning ("nothing to convert in " ++ summary.input)]
  else
    .heading summary.input ::
      summary.counts.map (fun (recognizer, count) => .keyValue recognizer (toString count)) ++
      [.keyValue "rewritten"
        (toString summary.takenBytes ++ " of " ++ toString summary.sourceBytes ++ " bytes")]

end Summary

def boolText (value : Bool) : String := if value then "true" else "false"

def settingsLines (path : String) (config : Config) : List Line :=
  [.preformatted ("✓ " ++ path ++ " is valid"), .blank,
   .keyValue "propertiesToCamelCase" (boolText config.propertiesToCamelCase),
   .keyValue "trimPostfixes"
    (if config.trimPostfixes.isEmpty then "(none)" else ", ".intercalate config.trimPostfixes),
   .keyValue "recursiveTrimPostfixes" (boolText config.recursiveTrimPostfixes)]

end TypeScribe.Report
