import TypeScribe.Proofs.TypeExpr.Grammar

/-!
# Reading a written type expression

The written form of a type expression with proper names is derived by the grammar, so it is read back,
whatever white space stands around it. Reading gives no other expressions, and so no others are read
back from their written forms.
-/

namespace TypeScribe.TypeExpr

open Text

/-! ### The parts of the written form -/

/-- The arguments as they stand between the angle brackets. -/
def joinChars (types : List TypeExpr) : List Char := [',', ' '].intercalate (types.map chars)

def argumentChars : List TypeExpr → List Char
  | [] => []
  | type :: types => '<' :: joinChars (type :: types) ++ ['>']

def bracketChars (rank : Nat) : List Char := (List.replicate rank ['[', ']']).flatten

/-- What stands behind the name and its arguments. -/
def suffixChars (rank : Nat) (isNullable : Bool) : List Char :=
  (if isNullable then ['?'] else []) ++ bracketChars rank

theorem chars_mk (name : String) (arguments : List TypeExpr) (rank : Nat) (isNullable : Bool) :
    chars ⟨name, arguments, rank, isNullable⟩ =
      name.toList ++ (argumentChars arguments ++ suffixChars rank isNullable) := by
  rw [chars, charsList_eq_map]
  cases arguments <;> simp [argumentChars, joinChars, suffixChars, bracketChars]

theorem joinChars_cons_cons (type other : TypeExpr) (types : List TypeExpr) :
    joinChars (type :: other :: types) =
      type.chars ++ ',' :: ' ' :: joinChars (other :: types) := by
  simp [joinChars, List.intercalate_cons_cons]

theorem joinChars_singleton (type : TypeExpr) : joinChars [type] = type.chars := by
  simp [joinChars]

theorem bracketChars_succ (rank : Nat) :
    bracketChars (rank + 1) = '[' :: ']' :: bracketChars rank := by
  simp [bracketChars, List.replicate_succ]

theorem suffixChars_eq_nil_or_cons (rank : Nat) (isNullable : Bool) :
    suffixChars rank isNullable = [] ∨
      ∃ c ∈ ['?', '['], ∃ rest, suffixChars rank isNullable = c :: rest := by
  cases isNullable with
  | true => exact .inr ⟨'?', by simp, bracketChars rank, rfl⟩
  | false =>
      cases rank with
      | zero => exact .inl rfl
      | succ rank =>
          refine .inr ⟨'[', by simp, ']' :: bracketChars rank, ?_⟩
          rw [suffixChars, bracketChars_succ]
          rfl

/-! ### White space around a type -/

theorem Derives.spaces_append {lead text : List Char} {type : TypeExpr} (hlead : Spaces lead)
    (h : Derives text type) : Derives (lead ++ text) type := by
  cases h with
  | plain hlead' hname hgap hmark hbrackets =>
      rw [← List.append_assoc]
      exact .plain (hlead.append hlead') hname hgap hmark hbrackets
  | generic hlead' hname hgap hne harguments hgap' hmark hbrackets =>
      rw [← List.append_assoc]
      exact .generic (hlead.append hlead') hname hgap hne harguments hgap' hmark hbrackets

section Trail

variable {trail : List Char} (htrail : Spaces trail)

include htrail

theorem Brackets.append_spaces {text : List Char} {rank : Nat} (h : Brackets text rank) :
    text = [] ∨ Brackets (text ++ trail) rank := by
  induction h with
  | nil => exact .inl rfl
  | @cons inside trail' text rank hinside htrail' htext ih =>
      have hbrackets : Brackets ('[' :: inside ++ ']' :: (trail' ++ (text ++ trail))) (rank + 1) := by
        rcases ih with rfl | ih
        · rw [List.nil_append, ← List.append_nil trail, ← List.append_assoc]
          exact .cons hinside (htrail'.append htrail) htext
        · exact .cons hinside htrail' ih
      refine .inr ?_
      simpa using hbrackets

/-- White space at the end belongs to the last part that is there. -/
theorem exists_suffix_append_spaces {gap mark brackets : List Char} {rank : Nat}
    {isNullable : Bool} (hgap : Spaces gap) (hmark : Mark mark isNullable)
    (hbrackets : Brackets brackets rank) :
    ∃ gap' mark' brackets', gap ++ (mark ++ (brackets ++ trail)) = gap' ++ (mark' ++ brackets') ∧
      Spaces gap' ∧ Mark mark' isNullable ∧ Brackets brackets' rank := by
  rcases hbrackets.append_spaces htrail with rfl | hlast
  · cases hmark with
    | absent => exact ⟨gap ++ trail, [], [], by simp, hgap.append htrail, .absent, hbrackets⟩
    | @present trail' htrail' =>
        refine ⟨gap, '?' :: (trail' ++ trail), [], by simp, hgap, ?_, hbrackets⟩
        exact .present (htrail'.append htrail)
  · exact ⟨gap, mark, brackets ++ trail, rfl, hgap, hmark, hlast⟩

theorem Derives.append_spaces {text : List Char} {type : TypeExpr} (h : Derives text type) :
    Derives (text ++ trail) type := by
  cases h with
  | plain hlead hname hgap hmark hbrackets =>
      obtain ⟨gap', mark', brackets', hchars, hgap', hmark', hbrackets'⟩ :=
        exists_suffix_append_spaces htrail hgap hmark hbrackets
      have hderives := Derives.plain hlead hname hgap' hmark' hbrackets'
      rw [← hchars] at hderives
      simpa using hderives
  | generic hlead hname hgap hne harguments hgap' hmark hbrackets =>
      obtain ⟨gap'', mark', brackets', hchars, hgap'', hmark', hbrackets'⟩ :=
        exists_suffix_append_spaces htrail hgap' hmark hbrackets
      have hderives := Derives.generic hlead hname hgap hne harguments hgap'' hmark' hbrackets'
      rw [← hchars] at hderives
      simpa using hderives

end Trail

/-! ### The written form is derived -/

theorem brackets_bracketChars (rank : Nat) : Brackets (bracketChars rank) rank := by
  induction rank with
  | zero => exact .nil
  | succ rank ih =>
      rw [bracketChars_succ]
      have hinside : ∀ c ∈ ([] : List Char), c = ',' ∨ isSpace c = true := by simp
      exact .cons hinside spaces_nil ih

theorem mark_ite (isNullable : Bool) : Mark (if isNullable then ['?'] else []) isNullable := by
  cases isNullable with
  | false => exact .absent
  | true => exact .present spaces_nil

/-- The arguments with their texts in the written form, where all but the first stand behind a
space. -/
def spacedArguments : List TypeExpr → List (List Char × TypeExpr)
  | [] => []
  | type :: types => (type.chars, type) :: types.map fun other => (' ' :: other.chars, other)

theorem map_snd_spacedArguments (types : List TypeExpr) :
    (spacedArguments types).map Prod.snd = types := by
  cases types <;> simp [spacedArguments, Function.comp_def]

theorem intercalate_spacedArguments (types : List TypeExpr) :
    [','].intercalate ((spacedArguments types).map Prod.fst) = joinChars types := by
  cases types with
  | nil => rfl
  | cons type types =>
      induction types generalizing type with
      | nil => simp [spacedArguments, joinChars]
      | cons other types ih =>
          have hlater := ih other
          cases types with
          | nil => simp [spacedArguments, joinChars_cons_cons, joinChars_singleton]
          | cons third types =>
              rw [joinChars_cons_cons, ← hlater]
              simp [spacedArguments, List.intercalate_cons_cons]

theorem derives_of_mem_spacedArguments {types : List TypeExpr}
    (h : ∀ type ∈ types, Derives type.chars type) :
    ∀ argument ∈ spacedArguments types, Derives argument.1 argument.2 := by
  cases types with
  | nil => simp [spacedArguments]
  | cons type types =>
      intro argument hmem
      rcases List.mem_cons.mp hmem with rfl | hmem
      · exact h type List.mem_cons_self
      · obtain ⟨other, hother, rfl⟩ := List.mem_map.mp hmem
        have hspace : Spaces [' '] := by simp [Spaces, isSpace_space]
        exact (h other (List.mem_cons_of_mem type hother)).spaces_append hspace

theorem AllNames.derives_chars {type : TypeExpr} (h : AllNames IsName type) :
    Derives type.chars type := by
  induction h with
  | @intro name arguments rank isNullable hname _ ih =>
      have hmark := mark_ite isNullable
      have hbrackets := brackets_bracketChars rank
      rw [chars_mk, suffixChars]
      cases arguments with
      | nil =>
          have hplain := Derives.plain spaces_nil hname spaces_nil hmark hbrackets
          rwa [String.ofList_toList] at hplain
      | cons argument arguments =>
          have hne : spacedArguments (argument :: arguments) ≠ [] := List.cons_ne_nil _ _
          have hgeneric := Derives.generic spaces_nil hname spaces_nil hne
            (derives_of_mem_spacedArguments ih) spaces_nil hmark hbrackets
          rw [intercalate_spacedArguments, map_snd_spacedArguments, String.ofList_toList] at hgeneric
          simpa [argumentChars] using hgeneric

/-! ### Reading back -/

/-- A type expression with proper names is read back from its written form. -/
theorem AllNames.parse_eq_ok {type : TypeExpr} (h : AllNames IsName type) {trail : List Char}
    (htrail : ∀ c ∈ trail, isSpace c = true) :
    parse (String.ofList (type.chars ++ trail)) = .ok type := by
  rw [parse_eq_ok_iff, String.toList_ofList]
  exact h.derives_chars.append_spaces htrail

theorem parse_print_eq_ok_iff {type : TypeExpr} :
    parse type.print = .ok type ↔ AllNames IsName type := by
  constructor
  · exact fun h => (parse_eq_ok_iff.mp h).allNames
  · intro h
    have hparse := h.parse_eq_ok spaces_nil
    rwa [List.append_nil] at hparse

/-- **Reading undoes writing** just for the expressions with proper names. What was read from any text
is one of these, so it is read again from its written form, whatever white space and whatever commas
within brackets the text held. -/
theorem parse_print (type : TypeExpr) :
    (parse type.print = .ok type ↔ AllNames IsName type) ∧
      ∀ source, parse source = .ok type → parse type.print = .ok type :=
  ⟨parse_print_eq_ok_iff, fun _ h => parse_print_eq_ok_iff.mpr (parse_eq_ok_iff.mp h).allNames⟩

end TypeScribe.TypeExpr
