/-!
# TOML numbers

Integers in four bases and floating-point numbers, both with single underscores between digits.
Integers have to fit in 128 bits, and floating-point numbers have to be finite unless they are written
as `inf` or `nan`.
-/

namespace TypeScribe.Toml

/-- The digits of a text of digits in which single underscores may stand between two digits. -/
def groupedDigits? (isDigit : Char → Bool) : List Char → Option (List Char)
  | [] => none
  | [c] => if isDigit c then some [c] else none
  | c :: '_' :: rest =>
      if isDigit c then (groupedDigits? isDigit rest).map (c :: ·) else none
  | c :: rest => if isDigit c then (groupedDigits? isDigit rest).map (c :: ·) else none

def digitValue (c : Char) : Nat :=
  if c.isDigit then c.toNat - '0'.toNat
  else if 'a' ≤ c ∧ c ≤ 'f' then c.toNat - 'a'.toNat + 10
  else c.toNat - 'A'.toNat + 10

def isHexDigit (c : Char) : Bool :=
  c.isDigit || ('a' ≤ c && c ≤ 'f') || ('A' ≤ c && c ≤ 'F')

def digitsValue (base : Nat) (digits : List Char) : Nat :=
  digits.foldl (fun value c => value * base + digitValue c) 0

def readSign : List Char → Bool × List Char
  | '-' :: rest => (true, rest)
  | '+' :: rest => (false, rest)
  | text => (false, text)

def wholeDigits? (text : List Char) : Option (List Char) :=
  match groupedDigits? Char.isDigit text with
  | some ('0' :: _ :: _) => none
  | digits => digits

/-- The integers that have a place in 128 bits, with or without a sign. -/
def fits (value : Int) : Bool :=
  -Int.ofNat (Nat.pow 2 127) ≤ value && value < Int.ofNat (Nat.pow 2 128)

def integer? (text : List Char) : Option Int := do
  let value ←
    match text with
    | '0' :: 'x' :: digits => (groupedDigits? isHexDigit digits).map fun ds => Int.ofNat (digitsValue 16 ds)
    | '0' :: 'o' :: digits =>
        (groupedDigits? (fun c => '0' ≤ c && c ≤ '7') digits).map fun ds => Int.ofNat (digitsValue 8 ds)
    | '0' :: 'b' :: digits =>
        (groupedDigits? (fun c => c == '0' || c == '1') digits).map fun ds => Int.ofNat (digitsValue 2 ds)
    | _ =>
        let (negative, digits) := readSign text
        (wholeDigits? digits).map fun ds =>
          if negative then -Int.ofNat (digitsValue 10 ds) else Int.ofNat (digitsValue 10 ds)
  if fits value then return value else none

/-- The least number that rounds to infinity in double precision. -/
def doubleLimit : Nat := Nat.pow 2 1024 - Nat.pow 2 970

/-- Whether `digits`, read as a decimal number and scaled by `10 ^ exponent`, rounds to infinity. The
bounds on the number of digits keep the powers of ten small. -/
def isHuge (digits : List Char) (exponent : Int) : Bool :=
  let digits := digits.dropWhile (· == '0')
  let value := digitsValue 10 digits
  if digits.isEmpty then false
  else if digits.length + exponent < 300 then false
  else if digits.length + exponent > 400 then true
  else if 0 ≤ exponent then doubleLimit ≤ value * Nat.pow 10 exponent.toNat
  else doubleLimit * Nat.pow 10 (-exponent).toNat ≤ value

def exponent? (text : List Char) : Option Int :=
  let (negative, digits) := readSign text
  (groupedDigits? Char.isDigit digits).map fun ds =>
    if negative then -Int.ofNat (digitsValue 10 ds) else Int.ofNat (digitsValue 10 ds)

def isExponentLetter (c : Char) : Bool := c == 'e' || c == 'E'

/-- The digits of the fraction and the value of the exponent in the text after the whole part, one of
which has to be there. -/
def fractionAndExponent? : List Char → Option (List Char × Int)
  | '.' :: rest => do
      let fraction ← groupedDigits? Char.isDigit (rest.takeWhile (!isExponentLetter ·))
      match rest.dropWhile (!isExponentLetter ·) with
      | [] => return (fraction, 0)
      | _ :: exponent => return (fraction, ← exponent? exponent)
  | c :: rest => if isExponentLetter c then (exponent? rest).map fun e => ([], e) else none
  | [] => none

def isFloat (text : List Char) : Bool :=
  let text := (readSign text).2
  if text = ['i', 'n', 'f'] ∨ text = ['n', 'a', 'n'] then true
  else
    let isWhole := fun c => c != '.' && !isExponentLetter c
    match wholeDigits? (text.takeWhile isWhole), fractionAndExponent? (text.dropWhile isWhole) with
    | some whole, some (fraction, exponent) =>
        !isHuge (whole ++ fraction) (exponent - fraction.length)
    | _, _ => false

end TypeScribe.Toml
