/-!
Type expressions of the source language, and their written form.
-/

namespace TypeScribe

/-- A type expression such as `Dictionary<string, int[]>?[,][]`. -/
structure TypeExpr where
  /-- The leading name, without generic or array parts. -/
  name : String
  arguments : List TypeExpr := []
  /-- The number of bracket pairs, whatever commas they hold. -/
  rank : Nat := 0
  /-- Whether a `?` stands before the brackets. -/
  isNullable : Bool := false
  deriving Inhabited

namespace TypeExpr

mutual

def decEq : (left right : TypeExpr) → Decidable (left = right)
  | ⟨name, arguments, rank, isNullable⟩, ⟨name', arguments', rank', isNullable'⟩ =>
      match decEqList arguments arguments' with
      | isFalse h => isFalse fun heq => h (TypeExpr.mk.inj heq).2.1
      | isTrue harguments =>
          if h : name = name' ∧ rank = rank' ∧ isNullable = isNullable' then
            isTrue (by rw [h.1, harguments, h.2.1, h.2.2])
          else
            isFalse fun heq =>
              have parts := TypeExpr.mk.inj heq
              h ⟨parts.1, parts.2.2.1, parts.2.2.2⟩

def decEqList : (left right : List TypeExpr) → Decidable (left = right)
  | [], [] => isTrue rfl
  | [], _ :: _ => isFalse (by simp)
  | _ :: _, [] => isFalse (by simp)
  | left :: lefts, right :: rights =>
      match decEq left right, decEqList lefts rights with
      | isTrue hhead, isTrue htail => isTrue (by rw [hhead, htail])
      | isFalse h, _ => isFalse fun heq => h (List.cons.inj heq).1
      | _, isFalse h => isFalse fun heq => h (List.cons.inj heq).2

end

instance : DecidableEq TypeExpr := decEq

def isGeneric (type : TypeExpr) : Bool := !type.arguments.isEmpty

def isArray (type : TypeExpr) : Bool := type.rank != 0

mutual

/-- The written form: the name, its arguments between angle brackets, `?`, and the brackets. -/
def chars : TypeExpr → List Char
  | ⟨name, arguments, rank, isNullable⟩ =>
      name.toList ++
        (if arguments.isEmpty then []
          else '<' :: [',', ' '].intercalate (charsList arguments) ++ ['>']) ++
        (if isNullable then ['?'] else []) ++ (List.replicate rank ['[', ']']).flatten

def charsList : List TypeExpr → List (List Char)
  | [] => []
  | type :: types => type.chars :: charsList types

end

theorem charsList_eq_map (types : List TypeExpr) : charsList types = types.map chars := by
  induction types with
  | nil => rfl
  | cons type types ih => simp [charsList, ih]

def print (type : TypeExpr) : String := String.ofList type.chars

instance : ToString TypeExpr := ⟨print⟩

end TypeExpr

end TypeScribe
