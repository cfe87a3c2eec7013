/-!
Types of the target language, and their written form.
-/

namespace TypeScribe

inductive TsType where
  | named (name : String)
  | generic (name : String) (arguments : List TsType)
  | dictionary (key value : TsType)
  /-- `rank` levels of array above the element type. -/
  | array (element : TsType) (rank : Nat)
  | optional (type : TsType)
  deriving Inhabited

namespace TsType

/-- How a character changes the bracket depth of a written type. -/
def nesting (c : Char) : Int :=
  if c = '\x7b' ∨ c = '(' ∨ c = '[' ∨ c = '<' then 1
  else if c = '\x7d' ∨ c = ')' ∨ c = ']' ∨ c = '>' then -1
  else 0

/-- Whether a `|` stands outside all brackets, when `depth` of them are open. -/
def isUnion (depth : Int) : List Char → Bool
  | [] => false
  | c :: rest => (c == '|' && depth == 0) || isUnion (depth + nesting c) rest

/-- Written array types bind tighter than unions, so a union takes parentheses first. -/
def arrayChars (element : List Char) (rank : Nat) : List Char :=
  (if isUnion 0 element then '(' :: element ++ [')'] else element) ++
    (List.replicate rank ['[', ']']).flatten

mutual

def chars : TsType → List Char
  | .named name => name.toList
  | .generic name arguments =>
      name.toList ++ '<' :: [',', ' '].intercalate (charsList arguments) ++ ['>']
  | .dictionary key value =>
      "\x7b [key: ".toList ++ key.chars ++ "]: ".toList ++ value.chars ++ " \x7d".toList
  | .array element rank => arrayChars element.chars rank
  | .optional type => type.chars ++ " | undefined".toList

def charsList : List TsType → List (List Char)
  | [] => []
  | type :: types => type.chars :: charsList types

end

theorem charsList_eq_map (types : List TsType) : charsList types = types.map chars := by
  induction types with
  | nil => rfl
  | cons type types ih => simp [charsList, ih]

theorem chars_named (name : String) : (named name).chars = name.toList := rfl

theorem chars_generic (name : String) (arguments : List TsType) :
    (generic name arguments).chars =
      name.toList ++ '<' :: [',', ' '].intercalate (charsList arguments) ++ ['>'] := rfl

theorem chars_dictionary (key value : TsType) : (dictionary key value).chars =
    "\x7b [key: ".toList ++ key.chars ++ "]: ".toList ++ value.chars ++ " \x7d".toList := rfl

theorem chars_array (element : TsType) (rank : Nat) :
    (array element rank).chars = arrayChars element.chars rank := rfl

theorem chars_optional (type : TsType) :
    (optional type).chars = type.chars ++ " | undefined".toList := rfl

def print (type : TsType) : String := String.ofList type.chars

instance : ToString TsType := ⟨print⟩

end TsType

end TypeScribe
