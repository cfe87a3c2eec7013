import TypeScribe.TypeExpr.Basic

/-!
Type expressions as indented JSON: two blanks a level, one member or element a line, and `[]` for an
empty list.
-/

namespace TypeScribe.TypeExpr

def hexDigits (code : Nat) : List Char :=
  [Nat.digitChar (code / 16 % 16), Nat.digitChar (code % 16)]

def jsonEscape (c : Char) : List Char :=
  if c = '"' then ['\\', '"']
  else if c = '\\' then ['\\', '\\']
  else if c = '\n' then ['\\', 'n']
  else if c = '\r' then ['\\', 'r']
  else if c = '\t' then ['\\', 't']
  else if c.toNat = 0x8 then ['\\', 'b']
  else if c.toNat = 0xC then ['\\', 'f']
  else if c.toNat < 0x20 then '\\' :: 'u' :: '0' :: '0' :: hexDigits c.toNat
  else [c]

def jsonString (text : String) : String :=
  "\"" ++ String.ofList (text.toList.flatMap jsonEscape) ++ "\""

def jsonLine (level : Nat) : String :=
  "\n" ++ String.ofList (List.replicate (2 * level) ' ')

mutual

def jsonAt (level : Nat) : TypeExpr → String
  | ⟨name, arguments, rank, isNullable⟩ =>
      "\x7b" ++ jsonLine (level + 1) ++ "\"baseName\": " ++ jsonString name ++ "," ++
        jsonLine (level + 1) ++ "\"genericArguments\": " ++
        (if arguments.isEmpty then "[]"
          else "[" ++ ",".intercalate (jsonListAt (level + 2) arguments) ++
            jsonLine (level + 1) ++ "]") ++ "," ++
        jsonLine (level + 1) ++ "\"arrayRank\": " ++ toString rank ++ "," ++
        jsonLine (level + 1) ++ "\"isNullable\": " ++ (if isNullable then "true" else "false") ++
        jsonLine level ++ "\x7d"

def jsonListAt (level : Nat) : List TypeExpr → List String
  | [] => []
  | type :: types => (jsonLine level ++ jsonAt level type) :: jsonListAt level types

end

def json (type : TypeExpr) : String := jsonAt 0 type

end TypeScribe.TypeExpr
