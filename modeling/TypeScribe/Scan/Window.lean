import TypeScribe.Text.Affix
import TypeScribe.Text.Located

/-!
# A place in a source text

A window is a source text split at a cursor. What lies behind the cursor is kept nearest character
first, so that looking back along the line is as direct as looking ahead.
-/

namespace TypeScribe.Scan

open Text

structure Window where
  /-- The characters before the cursor, the nearest first. -/
  behind : List Char
  /-- The characters from the cursor to the end. -/
  ahead : List Char
  deriving DecidableEq

namespace Window

def ofText (text : List Char) : Window := ⟨[], text⟩

def source (window : Window) : List Char := window.behind.reverse ++ window.ahead

def cursor (window : Window) : Nat := byteLength window.behind

/-- The position behind the next character. Behind the end of the text one more byte is counted, so
that the position always grows. -/
def nextCursor (window : Window) : Nat :=
  window.cursor + (window.ahead.head?.map Char.utf8Size).getD 1

def stretch (window : Window) (start stop : Nat) : Span :=
  ⟨start - window.cursor, stop - start⟩

/-- The window whose cursor stands `count` characters further on. -/
def advance (count : Nat) (window : Window) : Window :=
  ⟨(window.ahead.take count).reverse ++ window.behind, window.ahead.drop count⟩

def atByte (text : List Char) (offset : Nat) : Window :=
  go [] text offset
where
  go (behind : List Char) : List Char → Nat → Window
    | [], _ => ⟨behind, []⟩
    | c :: rest, offset =>
        if offset < c.utf8Size then ⟨behind, c :: rest⟩
        else go (c :: behind) rest (offset - c.utf8Size)

/-- Whether `//` stands between the last line feed and the cursor. -/
def inLineComment (window : Window) : Bool :=
  hasPair '/' '/' (window.behind.takeWhile (· != '\n'))

def atLineStart (window : Window) : Bool :=
  window.behind.head?.all (· == '\n')

@[simp]
theorem source_ofText (text : List Char) : (ofText text).source = text := rfl

@[simp]
theorem source_advance (count : Nat) (window : Window) :
    (window.advance count).source = window.source := by
  simp only [source, advance, List.reverse_append, List.reverse_reverse, List.append_assoc]
  rw [List.take_append_drop]

@[simp]
theorem advance_zero (window : Window) : window.advance 0 = window := rfl

theorem advance_succ_cons (count : Nat) (behind rest : List Char) (c : Char) :
    advance (count + 1) ⟨behind, c :: rest⟩ = advance count ⟨c :: behind, rest⟩ := by
  simp [advance]

theorem advance_append (behind front rest : List Char) :
    advance front.length ⟨behind, front ++ rest⟩ = ⟨front.reverse ++ behind, rest⟩ := by
  simp [advance]

theorem advance_add (count more : Nat) (window : Window) :
    window.advance (count + more) = (window.advance count).advance more := by
  simp [advance, List.take_add, List.drop_drop]

theorem length_ahead_advance (count : Nat) (window : Window) :
    (window.advance count).ahead.length = window.ahead.length - count :=
  List.length_drop

theorem cursor_lt_nextCursor (window : Window) : window.cursor < window.nextCursor := by
  cases hahead : window.ahead with
  | nil => simp [nextCursor, hahead]
  | cons c rest =>
      have hpos := c.utf8Size_pos
      simp [nextCursor, hahead, hpos]

theorem cursor_advance (count : Nat) (window : Window) :
    (window.advance count).cursor = window.cursor + byteLength (window.ahead.take count) := by
  simp [cursor, advance, Nat.add_comm]

end Window

end TypeScribe.Scan
