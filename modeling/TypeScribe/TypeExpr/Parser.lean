import TypeScribe.Text.CharClass
import TypeScribe.TypeExpr.Basic
import TypeScribe.TypeExpr.Error

/-!
Reading a type expression. The `>` that closes a generic part is the one at which as many `>` as `<`
have passed; the text before it is cut at its outermost commas, and each piece is read as a type of
its own. The first fault from the left in that order is the one reported.
-/

namespace TypeScribe.TypeExpr

open Text

/-- The number of generic parts that are open after `c`, when `depth` are open before it. -/
def angleDepth (c : Char) (depth : Nat) : Nat :=
  if c = '<' then depth + 1 else if c = '>' then depth - 1 else depth

/-- The text up to the first `>` that finds no generic part open, and the text after it. -/
def closeAngle (depth : Nat) : List Char → Option (List Char × List Char)
  | [] => none
  | c :: rest =>
      if c = '>' ∧ depth = 0 then some ([], rest)
      else (closeAngle (angleDepth c depth) rest).map fun (inside, after) => (c :: inside, after)

theorem eq_append_of_closeAngle {depth : Nat} {text inside after : List Char}
    (h : closeAngle depth text = some (inside, after)) : text = inside ++ '>' :: after := by
  induction text generalizing depth inside with
  | nil => simp [closeAngle] at h
  | cons c rest ih =>
      rw [closeAngle] at h
      split at h
      · next hc =>
          obtain ⟨rfl, rfl⟩ := by simpa using h
          simp [hc.1]
      · obtain ⟨⟨inside', after'⟩, hrest, heq⟩ := Option.map_eq_some_iff.mp h
        obtain ⟨rfl, rfl⟩ := by simpa using heq
        rw [ih hrest, List.cons_append]

/-- How a character changes the depth at which commas no longer separate arguments. -/
def nesting (c : Char) : Int :=
  if c = '<' ∨ c = '[' then 1 else if c = '>' ∨ c = ']' then -1 else 0

/-- The first piece of the text and the pieces after it, cut at the commas of depth zero. -/
def splitArguments (depth : Int) : List Char → List Char × List (List Char)
  | [] => ([], [])
  | c :: rest =>
      if c = ',' ∧ depth = 0 then
        let pieces := splitArguments 0 rest
        ([], pieces.1 :: pieces.2)
      else
        let pieces := splitArguments (depth + nesting c) rest
        (c :: pieces.1, pieces.2)

def argumentTexts (text : List Char) : List (List Char) :=
  let pieces := splitArguments 0 text
  pieces.1 :: pieces.2

def piecesSize (pieces : List (List Char)) : Nat :=
  pieces.foldr (fun piece size => piece.length + 1 + size) 0

theorem piecesSize_splitArguments (depth : Int) (text : List Char) :
    (splitArguments depth text).1.length + piecesSize (splitArguments depth text).2 =
      text.length := by
  induction text generalizing depth with
  | nil => rfl
  | cons c rest ih =>
      rw [splitArguments]
      split
      · have := ih 0
        simp only [piecesSize, List.foldr_cons, List.length_nil, List.length_cons] at this ⊢
        omega
      · have := ih (depth + nesting c)
        simp only [List.length_cons]
        omega

theorem piecesSize_argumentTexts (text : List Char) :
    piecesSize (argumentTexts text) = text.length + 1 := by
  have := piecesSize_splitArguments 0 text
  simp only [argumentTexts, piecesSize, List.foldr_cons] at this ⊢
  omega

/-- The rest of the text after the `]` that closes the bracket opened at `opening`. -/
def closeBracket (opening offset : Nat) : List Char → Except (Fault × Span) Located
  | [] => .error (.unclosedBracket, ⟨opening, 1⟩)
  | c :: rest =>
      if c = ']' then .ok ⟨offset + 1, rest⟩
      else if c = ',' || isSpace c then closeBracket opening (offset + c.utf8Size) rest
      else .error (.insideBrackets c, ⟨offset, c.utf8Size⟩)

theorem length_lt_of_closeBracket {opening offset : Nat} {text : List Char} {rest : Located}
    (h : closeBracket opening offset text = .ok rest) : rest.chars.length < text.length := by
  induction text generalizing offset with
  | nil => simp [closeBracket] at h
  | cons c text ih =>
      rw [closeBracket] at h
      split at h
      · obtain rfl := by simpa using h
        simp
      · split at h
        · have := ih h
          simp only [List.length_cons]
          omega
        · simp at h

def readBrackets (text : Located) : Except (Fault × Span) (Nat × Located) :=
  match _htext : text.chars with
  | '[' :: inside =>
      match _hclose : closeBracket text.offset (text.offset + 1) inside with
      | .error fault => .error fault
      | .ok rest => do
          let (rank, rest) ← readBrackets (rest.skip isSpace)
          return (rank + 1, rest)
  | _ => .ok (0, text)
termination_by text.chars.length
decreasing_by
  have hclose := length_lt_of_closeBracket _hclose
  have hskip := rest.length_skip_le isSpace
  rw [_htext, List.length_cons]
  omega

def readMark (text : Located) : Bool × Located :=
  match text.chars with
  | '?' :: rest => (true, Located.skip isSpace ⟨text.offset + 1, rest⟩)
  | _ => (false, text)

/-- Reads what may follow the name and its arguments, up to the end of the text. -/
def readSuffixes (name : String) (arguments : List TypeExpr) (text : Located) :
    Except (Fault × Span) TypeExpr := do
  let (isNullable, text) := readMark (text.skip isSpace)
  let (rank, text) ← readBrackets text
  match text.chars with
  | [] => return ⟨name, arguments, rank, isNullable⟩
  | c :: _ => throw (.trailing c, text.headSpan)

mutual

/-- Reads the whole of `text` as one type. -/
def readType (text : Located) : Except (Fault × Span) TypeExpr :=
  let start := text.skip isSpace
  let name := start.chars.takeWhile isNameChar
  let rest := (start.skip isNameChar).skip isSpace
  if name.isEmpty then .error (.nameExpected start.chars.head?, start.headSpan)
  else
    match _hrest : rest.chars with
    | '<' :: generic =>
        match _hclose : closeAngle 0 generic with
        | none => .error (.unclosedAngle, ⟨rest.offset, 1⟩)
        | some (inside, after) => do
            let arguments ← readArguments (rest.offset + 1) (argumentTexts inside)
            readSuffixes (String.ofList name) arguments
              ⟨rest.offset + 1 + byteLength inside + 1, after⟩
    | _ => readSuffixes (String.ofList name) [] rest
termination_by text.chars.length
decreasing_by
  have hstart : start = text.skip isSpace := rfl
  have hskipped : rest = (start.skip isNameChar).skip isSpace := rfl
  have hsplit := congrArg List.length (eq_append_of_closeAngle _hclose)
  have hfirst := text.length_skip_le isSpace
  have hname := start.length_skip_le isNameChar
  have hlast := (start.skip isNameChar).length_skip_le isSpace
  have hlength := congrArg List.length _hrest
  simp only [List.length_append, List.length_cons] at hsplit hlength
  rw [piecesSize_argumentTexts]
  rw [← hstart] at hfirst
  rw [← hskipped] at hlast
  omega

/-- Reads each piece as one type; the first begins at `offset`, and a comma follows each. -/
def readArguments (offset : Nat) (pieces : List (List Char)) :
    Except (Fault × Span) (List TypeExpr) :=
  match pieces with
  | [] => .ok []
  | piece :: pieces =>
      if piece.all isSpace then .error (.emptyArgument, ⟨offset, byteLength piece⟩)
      else do
        let argument ← readType ⟨offset, piece⟩
        let arguments ← readArguments (offset + byteLength piece + 1) pieces
        return argument :: arguments
termination_by piecesSize pieces
decreasing_by all_goals simp [piecesSize]; try omega

end

/-- Reads a type expression, which has to fill the whole string but for white space. -/
def parse (source : String) : Except ParseError TypeExpr :=
  (readType (.ofString source)).mapError fun (fault, span) => ⟨source, fault, span⟩

end TypeScribe.TypeExpr
