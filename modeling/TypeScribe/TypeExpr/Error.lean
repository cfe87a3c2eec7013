import TypeScribe.Text.Located

/-!
What can be wrong with a type expression.
-/

namespace TypeScribe.TypeExpr

open Text

inductive Fault where
  /-- No name where a type has to begin; `found` is what stands there instead. -/
  | nameExpected (found : Option Char)
  /-- The type is complete, but more text follows. -/
  | trailing (found : Char)
  | unclosedAngle
  | unclosedBracket
  | emptyArgument
  /-- A character other than a comma or white space between array brackets. -/
  | insideBrackets (found : Char)
  deriving DecidableEq, Repr

def Fault.reason : Fault → String
  | .nameExpected none => "expected a type name"
  | .nameExpected (some c) => "expected a type name, found '" ++ c.toString ++ "'"
  | .trailing c => "unexpected trailing input, found '" ++ c.toString ++ "'"
  | .unclosedAngle => "unclosed '<'"
  | .unclosedBracket => "unclosed '['"
  | .emptyArgument => "empty generic argument"
  | .insideBrackets c => "unexpected '" ++ c.toString ++ "' inside array brackets"

/-- A fault and the part of the expression that shows it. -/
structure ParseError where
  source : String
  fault : Fault
  span : Span
  deriving DecidableEq, Repr

def ParseError.message (error : ParseError) : String :=
  "malformed type expression '" ++ error.source ++ "': " ++ error.fault.reason

def ParseError.code : String := "cs2ts::malformed_type"

def ParseError.help : String :=
  "a type expression is a name, optional <generic, arguments>, an optional '?' and any number of " ++
    "[] or [,] suffixes"

end TypeScribe.TypeExpr
