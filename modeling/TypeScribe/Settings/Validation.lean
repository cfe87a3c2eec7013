import TypeScribe.Config
import TypeScribe.Settings.Error

/-!
# Sensible postfixes

An empty postfix would take nothing off, and a repeated one would never have its turn. The first such
postfix of the list is reported. Its place in the file is found among the quoted occurrences of its
text, which an escape or a comment can mislead.
-/

namespace TypeScribe.Settings

open Text

inductive PostfixFault where
  | empty
  /-- A postfix that stands in the list before. -/
  | duplicate (value : String)
  deriving DecidableEq, Repr

/-- The first fault in a list of postfixes that follows the postfixes `seen`. -/
def firstFault? (seen : List String) : List String → Option PostfixFault
  | [] => none
  | value :: values =>
      if value = "" then some .empty
      else if value ∈ seen then some (.duplicate value)
      else firstFault? (value :: seen) values

/-- The positions of the occurrences of `needle` that do not overlap, found from the left. The text
begins at `offset`, and its first `skip` characters belong to an occurrence already found. -/
def occurrences (needle : List Char) (skip offset : Nat) : List Char → List Nat
  | [] => []
  | c :: rest =>
      match skip with
      | skip + 1 => occurrences needle skip (offset + c.utf8Size) rest
      | 0 =>
          if needle.isPrefixOf (c :: rest) then
            offset :: occurrences needle (needle.length - 1) (offset + c.utf8Size) rest
          else occurrences needle 0 (offset + c.utf8Size) rest

def quoted (quote : Char) (value : String) : List Char := quote :: value.toList ++ [quote]

/-- The spans of the occurrences of `value` between double or between single quotes, in the order of
the text. -/
def quotedSpans (content value : String) : List Span :=
  let offsets := fun quote => occurrences (quoted quote value) 0 0 content.toList
  ((offsets '"').merge (offsets '\'')).map fun offset => ⟨offset, byteLength value.toList + 2⟩

namespace PostfixFault

def message : PostfixFault → String
  | .empty => "trim postfixes cannot be empty strings"
  | .duplicate value => "duplicate trim postfix '" ++ value ++ "'"

/-- The first pair of quotes with nothing between, or the second occurrence of a repeated postfix. -/
def span? (content : String) : PostfixFault → Option Span
  | .empty => (quotedSpans content "")[0]?
  | .duplicate value => (quotedSpans content value)[1]?

end PostfixFault

def validate (source : Source) (config : Config) : Except Error Config :=
  match firstFault? [] config.trimPostfixes with
  | none => .ok config
  | some fault => .error (.invalid source fault.message (fault.span? source.content))

end TypeScribe.Settings
