/-!
# TOML tables

A document is built statement by statement, and how a table came to be decides what may still be
added to it. A table may be named by one header at most, and dotted keys add only to tables that
dotted keys or deeper headers brought about.
-/

namespace TypeScribe.Toml

inductive Origin where
  /-- Named by a header, or the document itself. -/
  | header
  /-- Passed through by the header of a deeper table. -/
  | implied
  /-- Passed through by a dotted key. -/
  | dotted
  /-- Written between braces as a value, which is complete. -/
  | inline
  deriving DecidableEq, Repr

inductive Value where
  | text (value : String)
  | boolean (value : Bool)
  | integer (value : Int)
  | float (written : String)
  | moment (written : String)
  | array (items : List Value)
  | table (origin : Origin) (entries : List (String × Value))
  /-- The tables that repeated headers add to one array, the last of them first. -/
  | tables (last : List (String × Value)) (earlier : List (List (String × Value)))
  deriving Inhabited

abbrev Table := List (String × Value)

namespace Table

def replace (table : Table) (key : String) (value : Value) : Table :=
  table.map fun entry => if entry.1 = key then (key, value) else entry

/-- Applies `change` to the table at the end of `path`, below a table of the given origin. Tables that
are missing on the way are made with the origin `fresh`. Dotted keys do not enter tables that have a
header, and nothing enters an inline table. -/
def descend (fresh : Origin) (change : Origin → Table → Option Table) :
    List String → Origin → Table → Option Table
  | [], origin, table => change origin table
  | key :: path, _, table =>
      match table.lookup key with
      | none => do
          let child ← descend fresh change path fresh []
          return table ++ [(key, .table fresh child)]
      | some (.table origin child) =>
          if origin = .inline ∨ (fresh = .dotted ∧ origin = .header) then none
          else do
            let child ← descend fresh change path origin child
            return table.replace key (.table origin child)
      | some (.tables last earlier) => do
          let last ← descend fresh change path .header last
          return table.replace key (.tables last earlier)
      | some _ => none

/-- Adds a value under a new key; the key stands at the end of `path`. -/
def define (path : List String) (key : String) (value : Value) (table : Table) : Option Table :=
  descend .dotted
    (fun origin table =>
      if !path.isEmpty && origin != .dotted then none
      else if (table.lookup key).isSome then none
      else some (table ++ [(key, value)]))
    path .header table

def openTable (path : List String) (key : String) (table : Table) : Option Table :=
  descend .implied
    (fun _ table =>
      match table.lookup key with
      | none => some (table ++ [(key, .table .header [])])
      | some (.table .implied child) => some (table.replace key (.table .header child))
      | some _ => none)
    path .header table

def openElement (path : List String) (key : String) (table : Table) : Option Table :=
  descend .implied
    (fun _ table =>
      match table.lookup key with
      | none => some (table ++ [(key, .tables [] [])])
      | some (.tables last earlier) => some (table.replace key (.tables [] (last :: earlier)))
      | some _ => none)
    path .header table

def defineBelow (header path : List String) (key : String) (value : Value) (table : Table) :
    Option Table :=
  descend .implied (fun _ table => table.define path key value) header .header table

end Table

end TypeScribe.Toml
