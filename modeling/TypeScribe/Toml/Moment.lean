/-!
# TOML dates and times
-/

namespace TypeScribe.Toml

def twoDigits? (tens ones : Char) : Option Nat :=
  if tens.isDigit ∧ ones.isDigit then
    some (10 * (tens.toNat - '0'.toNat) + (ones.toNat - '0'.toNat))
  else none

def isLeapYear (year : Nat) : Bool :=
  year % 4 == 0 && (year % 100 != 0 || year % 400 == 0)

def daysInMonth (year month : Nat) : Nat :=
  if month = 2 then (if isLeapYear year then 29 else 28)
  else if month ∈ [4, 6, 9, 11] then 30
  else 31

def readDate? : List Char → Option (List Char)
  | y :: y' :: y'' :: y''' :: '-' :: m :: m' :: '-' :: d :: d' :: rest => do
      let century ← twoDigits? y y'
      let year ← twoDigits? y'' y'''
      let month ← twoDigits? m m'
      let day ← twoDigits? d d'
      if 1 ≤ month ∧ month ≤ 12 ∧ 1 ≤ day ∧ day ≤ daysInMonth (100 * century + year) month then
        return rest
      else none
  | _ => none

def readFraction? : List Char → Option (List Char)
  | '.' :: c :: rest => if c.isDigit then some (rest.dropWhile Char.isDigit) else none
  | '.' :: [] => none
  | text => some text

/-- The rest after a time of day. The sixtieth second is the leap second. -/
def readTime? : List Char → Option (List Char)
  | h :: h' :: ':' :: m :: m' :: ':' :: s :: s' :: rest => do
      let hour ← twoDigits? h h'
      let minute ← twoDigits? m m'
      let second ← twoDigits? s s'
      if hour ≤ 23 ∧ minute ≤ 59 ∧ second ≤ 60 then readFraction? rest else none
  | _ => none

/-- Whether the text is nothing or the offset from universal time. -/
def isOffset : List Char → Bool
  | [] => true
  | [c] => c == 'Z' || c == 'z'
  | [sign, h, h', ':', m, m'] =>
      (sign == '+' || sign == '-') && (twoDigits? h h').any (· ≤ 23) &&
        (twoDigits? m m').any (· ≤ 59)
  | _ => false

def isMoment (text : List Char) : Bool :=
  match readDate? text with
  | some [] => true
  | some (c :: rest) =>
      (c == 'T' || c == 't' || c == ' ') && (readTime? rest).any isOffset
  | none => (readTime? text).any List.isEmpty

end TypeScribe.Toml
