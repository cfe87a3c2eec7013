import TypeScribe.Name.Trimmer
import TypeScribe.TsType.Basic
import TypeScribe.TypeExpr.Basic
import TypeScribe.TypeExpr.Parser

/-!
The TypeScript type that stands for a type expression. Known containers become arrays and
dictionaries, primitive names become TypeScript's, and every other name is trimmed. The array levels
come next, and the union with `undefined` last.
-/

namespace TypeScribe

/-- The generic types that have a form of their own in TypeScript. -/
inductive Container where
  | sequence
  | dictionary
  /-- The explicit wrapper for values that may be absent. -/
  | nullable
  deriving DecidableEq, Repr

def sequenceNames : List String :=
  ["List", "IList", "IEnumerable", "ICollection", "IReadOnlyList", "IReadOnlyCollection", "HashSet",
   "ISet", "Collection", "ObservableCollection"]

def dictionaryNames : List String :=
  ["Dictionary", "IDictionary", "IReadOnlyDictionary", "SortedDictionary", "ConcurrentDictionary"]

def Container.ofName? (name : String) (arity : Nat) : Option Container :=
  if arity = 1 ∧ name ∈ sequenceNames then some .sequence
  else if arity = 2 ∧ name ∈ dictionaryNames then some .dictionary
  else if arity = 1 ∧ name = "Nullable" then some .nullable
  else none

def numberNames : List String :=
  ["byte", "sbyte", "short", "ushort", "int", "uint", "long", "ulong", "float", "double", "decimal",
   "Byte", "SByte", "Int16", "UInt16", "Int32", "UInt32", "Int64", "UInt64", "Single", "Double",
   "Decimal"]

def primitiveName? (name : String) : Option String :=
  if name ∈ numberNames then some "number"
  else if name ∈ ["bool", "Boolean"] then some "boolean"
  else if name ∈ ["string", "String", "char", "Char"] then some "string"
  else if name ∈ ["object", "Object", "dynamic"] then some "any"
  else none

def typeName (trimmer : Trimmer) (name : String) : String :=
  (primitiveName? name).getD (trimmer.trim name)

namespace TsType

def arrayOf (rank : Nat) (type : TsType) : TsType :=
  if rank = 0 then type else .array type rank

/-- The type under `rank` levels of array, joined with `undefined` if values may be absent. -/
def decorate (rank : Nat) (mayBeAbsent : Bool) (type : TsType) : TsType :=
  if mayBeAbsent then .optional (arrayOf rank type) else arrayOf rank type

mutual

/-- The TypeScript type of a type expression. The mark `?` of the expression itself counts only if
`marked` is set: under the explicit wrapper, which says the same, it does not. -/
def ofTypeExpr (trimmer : Trimmer) (marked : Bool) : TypeExpr → TsType
  | ⟨name, arguments, rank, isNullable⟩ =>
      match Container.ofName? name arguments.length, arguments with
      | some .sequence, [element] =>
          decorate rank (marked && isNullable) (.array (ofTypeExpr trimmer true element) 1)
      | some .dictionary, [key, value] =>
          decorate rank (marked && isNullable)
            (.dictionary (ofTypeExpr trimmer true key) (ofTypeExpr trimmer true value))
      | some .nullable, [inner] => decorate rank true (ofTypeExpr trimmer false inner)
      | _, [] => decorate rank (marked && isNullable) (.named (typeName trimmer name))
      | _, arguments =>
          decorate rank (marked && isNullable)
            (.generic (typeName trimmer name) (ofTypeExprs trimmer arguments))

def ofTypeExprs (trimmer : Trimmer) : List TypeExpr → List TsType
  | [] => []
  | type :: types => ofTypeExpr trimmer true type :: ofTypeExprs trimmer types

end

end TsType

namespace TypeExpr

def emit (trimmer : Trimmer) (type : TypeExpr) : String :=
  (TsType.ofTypeExpr trimmer true type).print

def convert (trimmer : Trimmer) (source : String) : Except ParseError String :=
  (parse source).map (emit trimmer)

end TypeExpr

end TypeScribe
