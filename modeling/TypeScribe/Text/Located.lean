import TypeScribe.Text.Bytes

/-!
Text that knows where it stands in a larger text, and the spans that point into such a text. All
positions count bytes.
-/

namespace TypeScribe.Text

structure Span where
  offset : Nat
  length : Nat
  deriving DecidableEq, Repr, Inhabited

def Span.stop (span : Span) : Nat := span.offset + span.length

structure Located where
  offset : Nat
  chars : List Char

namespace Located

def ofString (text : String) : Located := ⟨0, text.toList⟩

/-- The rest of the text after its longest front of characters in `p`. -/
def skip (p : Char → Bool) (text : Located) : Located :=
  ⟨text.offset + byteLength (text.chars.takeWhile p), text.chars.dropWhile p⟩

/-- The span of the first character, empty at the end of the text. -/
def headSpan (text : Located) : Span :=
  ⟨text.offset, (text.chars.head?.map Char.utf8Size).getD 0⟩

theorem length_skip_le (p : Char → Bool) (text : Located) :
    (text.skip p).chars.length ≤ text.chars.length :=
  (List.dropWhile_suffix p).length_le

end Located

end TypeScribe.Text
