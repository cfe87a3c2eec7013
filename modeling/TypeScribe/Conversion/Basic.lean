import TypeScribe.Text.Bytes

/-!
# Conversions

The record of a conversion cuts the source into stretches that stay and stretches that are replaced.
Source and output are two readings of the same record.
-/

namespace TypeScribe

open Text

/-- One replacement, with the text that stays before it. -/
structure Step where
  recognizer : String
  before : List Char
  taken : List Char
  replacement : List Char
  deriving DecidableEq

structure Conversion where
  steps : List Step
  /-- The text after the last replacement. -/
  tail : List Char
  deriving DecidableEq

namespace Conversion

def source (conversion : Conversion) : List Char :=
  (conversion.steps.flatMap fun step => step.before ++ step.taken) ++ conversion.tail

def output (conversion : Conversion) : List Char :=
  (conversion.steps.flatMap fun step => step.before ++ step.replacement) ++ conversion.tail

/-- The recognizer of each step and the bytes of the source that it replaces, from start to end, when
the first step begins to look at `offset`. -/
def spansFrom (offset : Nat) : List Step → List (String × Nat × Nat)
  | [] => []
  | step :: steps =>
      let start := offset + byteLength step.before
      let stop := start + byteLength step.taken
      (step.recognizer, start, stop) :: spansFrom stop steps

def spans (conversion : Conversion) : List (String × Nat × Nat) :=
  spansFrom 0 conversion.steps

/-- Counts one more occurrence of `name` in a table that is sorted by name. -/
def countOne (name : String) : List (String × Nat) → List (String × Nat)
  | [] => [(name, 1)]
  | (other, count) :: counts =>
      if name = other then (other, count + 1) :: counts
      else if name < other then (name, 1) :: (other, count) :: counts
      else (other, count) :: countOne name counts

/-- How many steps each recognizer made, sorted by name; recognizers without steps are left out. -/
def counts (conversion : Conversion) : List (String × Nat) :=
  conversion.steps.foldr (fun step => countOne step.recognizer) []

def takenBytes (conversion : Conversion) : Nat :=
  conversion.steps.foldr (fun step bytes => byteLength step.taken + bytes) 0

end Conversion

end TypeScribe
