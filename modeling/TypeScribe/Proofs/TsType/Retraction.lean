import TypeScribe.Proofs.TsType.Absence
import TypeScribe.Proofs.TypeExpr.ReadBack

/-!
# Translating what is translated

Without dictionaries, marks and wrappers, what is emitted is again a type expression, written as
such: the sequences have become array levels of their elements, and the primitive names those of the
target. Neither is there any more to translate, so a second pass changes nothing.
-/

namespace TypeScribe

open Text TypeExpr TsType

/-! ### The expression that is emitted -/

def targetName (name : String) : String := (primitiveName? name).getD name

namespace TypeExpr

/-- `type` under `levels` more array levels. -/
def raise (levels : Nat) (type : TypeExpr) : TypeExpr := { type with rank := type.rank + levels }

mutual

/-- The expression with every name translated, and every sequence replaced by its element under the
levels of the sequence and one more. -/
def translated : TypeExpr → TypeExpr
  | ⟨name, arguments, rank, isNullable⟩ =>
      match Container.ofName? name arguments.length, translatedList arguments with
      | some .sequence, [element] => element.raise (1 + rank)
      | _, arguments => ⟨targetName name, arguments, rank, isNullable⟩

def translatedList : List TypeExpr → List TypeExpr
  | [] => []
  | type :: types => type.translated :: translatedList types

end

/-- At no depth a mark, a dictionary or the explicit wrapper. -/
inductive Plain : TypeExpr → Prop where
  | mk {name : String} {arguments : List TypeExpr} {rank : Nat}
      (hdictionary : Container.ofName? name arguments.length ≠ some .dictionary)
      (hwrapper : Container.ofName? name arguments.length ≠ some .nullable)
      (harguments : ∀ argument ∈ arguments, Plain argument) :
      Plain ⟨name, arguments, rank, false⟩

theorem translatedList_eq_map (types : List TypeExpr) :
    translatedList types = types.map translated := by
  induction types with
  | nil => rfl
  | cons type types ih => simp [translatedList, ih]

section Equations

variable {name : String} {arguments : List TypeExpr} {element : TypeExpr} {rank : Nat}
  {isNullable : Bool}

theorem translated_sequence (h : Container.ofName? name 1 = some .sequence) :
    translated ⟨name, [element], rank, isNullable⟩ = element.translated.raise (1 + rank) := by
  simp [translated, translatedList, h]

theorem translated_of_ne (h : Container.ofName? name arguments.length ≠ some .sequence) :
    translated ⟨name, arguments, rank, isNullable⟩ =
      ⟨targetName name, arguments.map translated, rank, isNullable⟩ := by
  rw [translated.eq_def]
  dsimp only
  split
  · next hsequence _ => exact absurd hsequence h
  · rw [translatedList_eq_map]

end Equations

theorem bracketChars_add (rank levels : Nat) :
    bracketChars (rank + levels) = bracketChars rank ++ bracketChars levels := by
  rw [bracketChars, List.replicate_add, List.flatten_append]
  rfl

theorem chars_raise (levels : Nat) (type : TypeExpr) :
    (type.raise levels).chars = type.chars ++ bracketChars levels := by
  obtain ⟨name, arguments, rank, isNullable⟩ := type
  simp [raise, chars_mk, suffixChars, bracketChars_add]

theorem AllNames.raise {p : List Char → Prop} {type : TypeExpr} (h : AllNames p type)
    (levels : Nat) : AllNames p (type.raise levels) := by
  cases h with
  | intro hname harguments => exact .intro hname harguments

theorem Plain.raise {type : TypeExpr} (h : Plain type) (levels : Nat) :
    Plain (type.raise levels) := by
  cases h with
  | mk hdictionary hwrapper harguments => exact .mk hdictionary hwrapper harguments

theorem translated_raise (levels : Nat) (type : TypeExpr) :
    (type.raise levels).translated = type.translated.raise levels := by
  obtain ⟨name, arguments, rank, isNullable⟩ := type
  by_cases h : Container.ofName? name arguments.length = some .sequence
  · obtain ⟨element, rfl⟩ := List.length_eq_one_iff.mp (Container.arity_of_ofName? h)
    rw [raise, translated_sequence h, translated_sequence h]
    simp [raise, Nat.add_assoc]
  · rw [raise, translated_of_ne h, translated_of_ne h]
    rfl

/-! ### Names -/

theorem ofName?_eq_none {name : String} {arity : Nat}
    (hsequence : Container.ofName? name arity ≠ some .sequence)
    (hdictionary : Container.ofName? name arity ≠ some .dictionary)
    (hwrapper : Container.ofName? name arity ≠ some .nullable) :
    Container.ofName? name arity = none := by
  cases hcontainer : Container.ofName? name arity with
  | none => rfl
  | some container =>
      rw [hcontainer] at hsequence hdictionary hwrapper
      cases container <;> contradiction

theorem ofName?_eq_none_of_primitive {primitive : String}
    (h : primitive ∈ targetPrimitives) (arity : Nat) :
    Container.ofName? primitive arity = none := by
  have hnames : ∀ word ∈ targetPrimitives,
      word ∉ sequenceNames ∧ word ∉ dictionaryNames ∧ word ≠ "Nullable" :=
    List.forall_iff_forall_mem.mp (by decide)
  obtain ⟨hsequence, hdictionary, hwrapper⟩ := hnames primitive h
  rw [Container.ofName?, if_neg (fun h => hsequence h.2), if_neg (fun h => hdictionary h.2),
    if_neg (fun h => hwrapper h.2)]

theorem targetName_targetName (name : String) : targetName (targetName name) = targetName name := by
  cases hprimitive : primitiveName? name with
  | none => simp only [targetName, hprimitive, Option.getD_none]
  | some primitive =>
      have hfixed : ∀ word ∈ targetPrimitives, targetName word = word :=
        List.forall_iff_forall_mem.mp (by decide)
      have hname : targetName name = primitive := by rw [targetName, hprimitive, Option.getD_some]
      rw [hname]
      exact hfixed primitive (mem_targetPrimitives hprimitive)

/-- No name becomes that of a container. -/
theorem ofName?_targetName_eq_none {name : String} {arity : Nat}
    (h : Container.ofName? name arity = none) :
    Container.ofName? (targetName name) arity = none := by
  cases hprimitive : primitiveName? name with
  | none => rwa [targetName, hprimitive, Option.getD_none]
  | some primitive =>
      rw [targetName, hprimitive, Option.getD_some]
      exact ofName?_eq_none_of_primitive (mem_targetPrimitives hprimitive) arity

/-- A name has no white space to be trimmed of. -/
theorem trim_identity {name : String} (h : IsName name.toList) :
    Trimmer.identity.trim name = name := by
  have htrimmed : trimSpaces name.toList = name.toList := by
    apply trimSpaces_eq_self_of_visible
    intro c hc
    rw [Bool.eq_false_iff]
    intro hspace
    have hname := h.2 c hc
    simp [isNameChar_eq_false_of_isSpace hspace] at hname
  simp [Trimmer.trim, Trimmer.trimChars, Trimmer.identity, stripPostfix?, htrimmed]

theorem trim_identity_ne {name : String} (h : IsName name.toList) :
    Trimmer.identity.trim name ≠ "" := by
  rw [trim_identity h]
  rintro rfl
  exact h.1 rfl

theorem typeName_identity {name : String} (h : IsName name.toList) :
    typeName .identity name = targetName name := by
  rw [typeName, trim_identity h, targetName]

theorem isName_targetName {name : String} (h : IsName name.toList) :
    IsName (targetName name).toList := by
  rw [← typeName_identity h]
  exact isName_typeName h fun _ => trim_identity_ne h

/-! ### Nothing is left to translate -/

/-- What is translated is plain, and translating it again changes nothing. -/
theorem Plain.settled_translated {type : TypeExpr} (h : Plain type) :
    Plain type.translated ∧ type.translated.translated = type.translated := by
  induction h with
  | @mk name arguments rank hdictionary hwrapper harguments ih =>
      by_cases hsequence : Container.ofName? name arguments.length = some .sequence
      · obtain ⟨element, rfl⟩ := List.length_eq_one_iff.mp (Container.arity_of_ofName? hsequence)
        obtain ⟨hplain, hfixed⟩ := ih element List.mem_cons_self
        rw [translated_sequence hsequence, translated_raise, hfixed]
        exact ⟨hplain.raise _, rfl⟩
      · have hnone : Container.ofName? (targetName name) (arguments.map translated).length = none := by
          rw [List.length_map]
          exact ofName?_targetName_eq_none (ofName?_eq_none hsequence hdictionary hwrapper)
        have hfixed : (arguments.map translated).map translated = arguments.map translated := by
          rw [List.map_map]
          exact List.map_congr_left fun argument hmem => (ih argument hmem).2
        have hno : ∀ container,
            Container.ofName? (targetName name) (arguments.map translated).length ≠ some container := by
          intro container
          rw [hnone]
          exact (Option.some_ne_none container).symm
        rw [translated_of_ne hsequence, translated_of_ne (hno .sequence), targetName_targetName,
          hfixed]
        refine ⟨.mk (hno .dictionary) (hno .nullable) ?_, rfl⟩
        rw [List.forall_mem_map]
        exact fun argument hmem => (ih argument hmem).1

theorem AllNames.translated {type : TypeExpr} (h : AllNames IsName type) :
    AllNames IsName type.translated := by
  induction h with
  | @intro name arguments rank isNullable hname _ ih =>
      by_cases hsequence : Container.ofName? name arguments.length = some .sequence
      · obtain ⟨element, rfl⟩ := List.length_eq_one_iff.mp (Container.arity_of_ofName? hsequence)
        rw [translated_sequence hsequence]
        exact (ih element List.mem_cons_self).raise _
      · rw [translated_of_ne hsequence]
        refine .intro (isName_targetName hname) ?_
        rw [List.forall_mem_map]
        exact ih

theorem AllNames.spellable {type : TypeExpr} (h : AllNames IsName type) :
    Spellable .identity type := by
  induction h with
  | intro hname _ ih => exact .mk hname (fun _ _ => trim_identity_ne hname) ih

theorem Plain.isOptional_ofTypeExpr {type : TypeExpr} (h : Plain type) (trimmer : Trimmer)
    (marked : Bool) : (ofTypeExpr trimmer marked type).isOptional = false := by
  rw [← Bool.not_eq_true, isOptional_ofTypeExpr_iff]
  cases h with
  | mk _ hwrapper _ =>
      rintro (hmark | hname)
      · simp at hmark
      · exact hwrapper (ofName?_eq_nullable_iff.mpr hname)

end TypeExpr

/-! ### What is emitted -/

namespace TsType

section Arrays

variable {type : TsType} (h : Proper type) (hoptional : type.isOptional = false) (rank : Nat)

include h hoptional

/-- No parentheses are needed around a type that is no union. -/
theorem chars_array_of_proper : (array type rank).chars = type.chars ++ bracketChars rank := by
  rw [chars_array, arrayChars, h.passedFrom.2.2, hoptional]
  rfl

theorem chars_arrayOf : (arrayOf rank type).chars = type.chars ++ bracketChars rank := by
  rw [arrayOf]
  split
  · next hrank => rw [hrank, bracketChars, List.replicate_zero, List.flatten_nil, List.append_nil]
  · exact chars_array_of_proper h hoptional rank

theorem chars_arrayOf_array :
    (arrayOf rank (array type 1)).chars = type.chars ++ bracketChars (1 + rank) := by
  have harray : Proper (array type 1) := .array 1 h
  calc (arrayOf rank (array type 1)).chars
      = (array type 1).chars ++ bracketChars rank := chars_arrayOf harray rfl rank
    _ = type.chars ++ bracketChars 1 ++ bracketChars rank := by
        rw [chars_array_of_proper h hoptional]
    _ = type.chars ++ bracketChars (1 + rank) := by
        rw [List.append_assoc, ← bracketChars_add]

end Arrays

/-- A name that stands for itself is written before its arguments. -/
theorem chars_arrayOf_name {name : String} {arguments : List TypeExpr} (hname : IsName name.toList)
    (hnames : ∀ argument ∈ arguments, AllNames IsName argument)
    (hchars : ∀ argument ∈ arguments,
      (ofTypeExpr .identity true argument).chars = argument.translated.chars) (rank : Nat) :
    (arrayOf rank (if arguments = [] then .named name
      else .generic name (arguments.map (ofTypeExpr .identity true)))).chars =
      name.toList ++ (argumentChars (arguments.map translated) ++ bracketChars rank) := by
  rw [← List.append_assoc]
  cases arguments with
  | nil =>
      rw [if_pos rfl, chars_arrayOf (.named hname) rfl, chars_named, List.map_nil, argumentChars,
        List.append_nil]
  | cons argument arguments =>
      have hproper : Proper (.generic name
          ((argument :: arguments).map (ofTypeExpr .identity true))) := by
        refine .generic hname (by simp) ?_
        rw [List.forall_mem_map]
        exact fun argument hmem => (proper_ofTypeExpr (hnames argument hmem).spellable true).1
      have hwritten : (argument :: arguments).map (chars ∘ ofTypeExpr .identity true) =
          (argument :: arguments).map (TypeExpr.chars ∘ translated) :=
        List.map_congr_left hchars
      rw [if_neg (List.cons_ne_nil _ _), chars_arrayOf hproper rfl, chars_generic, charsList_eq_map,
        List.map_map, hwritten, ← List.map_map, List.append_assoc name.toList]
      rfl

/-- The type that is emitted for a plain expression is written as its translation is. -/
theorem chars_ofTypeExpr {type : TypeExpr} (hplain : Plain type) (hnames : AllNames IsName type) :
    (ofTypeExpr .identity true type).chars = type.translated.chars := by
  induction hplain with
  | @mk name arguments rank hdictionary hwrapper harguments ih =>
      obtain ⟨hname, hinner⟩ := hnames
      have hchars : ∀ argument ∈ arguments,
          (ofTypeExpr .identity true argument).chars = argument.translated.chars :=
        fun argument hmem => ih argument hmem (hinner argument hmem)
      by_cases hsequence : Container.ofName? name arguments.length = some .sequence
      · obtain ⟨element, rfl⟩ := List.length_eq_one_iff.mp (Container.arity_of_ofName? hsequence)
        have hmem : element ∈ [element] := List.mem_cons_self
        have hproper := (proper_ofTypeExpr (hinner element hmem).spellable true).1
        have hoptional := (harguments element hmem).isOptional_ofTypeExpr .identity true
        rw [ofTypeExpr_sequence hsequence, translated_sequence hsequence, chars_raise,
          ← hchars element hmem]
        exact chars_arrayOf_array hproper hoptional rank
      · have hnone := ofName?_eq_none hsequence hdictionary hwrapper
        rw [ofTypeExpr_of_none hnone, translated_of_ne hsequence, TypeExpr.chars_mk,
          typeName_identity hname]
        exact chars_arrayOf_name (isName_targetName hname) hinner hchars rank

end TsType

namespace TypeExpr

theorem emit_eq_print_translated {type : TypeExpr} (hplain : Plain type)
    (hnames : AllNames IsName type) : type.emit .identity = type.translated.print := by
  rw [emit, TsType.print, chars_ofTypeExpr hplain hnames, TypeExpr.print]

/-- **Translating twice** changes nothing. What is emitted for a plain expression is its translation
as that is written: it is read as the translation, with every array level, and emitted as it stands. -/
theorem parse_emit_translated {source : String} {type : TypeExpr} (hparse : parse source = .ok type)
    (hplain : Plain type) :
    type.emit .identity = type.translated.print ∧
      parse (type.emit .identity) = .ok type.translated ∧
      type.translated.emit .identity = type.emit .identity ∧
      convert .identity source = .ok (type.emit .identity) ∧
      convert .identity (type.emit .identity) = .ok (type.emit .identity) := by
  have hnames := (parse_eq_ok_iff.mp hparse).allNames
  obtain ⟨hplain', hfixed⟩ := hplain.settled_translated
  have hemit := emit_eq_print_translated hplain hnames
  have hagain : type.translated.emit .identity = type.emit .identity := by
    rw [emit_eq_print_translated hplain' hnames.translated, hfixed, hemit]
  have hread : parse (type.emit .identity) = .ok type.translated := by
    rw [hemit, parse_print_eq_ok_iff]
    exact hnames.translated
  refine ⟨hemit, hread, hagain, ?_, ?_⟩
  · rw [convert, hparse]
    rfl
  · rw [convert, hread]
    exact congrArg Except.ok hagain

/-- Two sequences and the brackets of the inner one make three array levels. A `List` of two arguments
is no sequence, before and after. -/
theorem parse_emit_translated_tuple :
    let source := "Tuple<List<int[], Tuple<bool, int[]>>[][], IList< List<string>[,] >>[]"
    let pair : TypeExpr := ⟨"List", [⟨"int", [], 1, false⟩,
      ⟨"Tuple", [⟨"bool", [], 0, false⟩, ⟨"int", [], 1, false⟩], 0, false⟩], 2, false⟩
    let strings : TypeExpr :=
      ⟨"IList", [⟨"List", [⟨"string", [], 0, false⟩], 1, false⟩], 0, false⟩
    let type : TypeExpr := ⟨"Tuple", [pair, strings], 1, false⟩
    let emitted := "Tuple<List<number[], Tuple<boolean, number[]>>[][], string[][][]>[]"
    parse source = .ok type ∧ Plain type ∧ type.emit .identity = emitted ∧
      type.translated.print = emitted ∧ parse emitted = .ok type.translated ∧
      type.translated.emit .identity = emitted ∧ convert .identity source = .ok emitted ∧
      convert .identity emitted = .ok emitted := by
  intro source pair strings type emitted
  have hparse : parse source = .ok type := parse_eq_ok_of_toOption (by decide +kernel)
  have hleaf : ∀ name rank, Plain ⟨name, [], rank, false⟩ := fun name rank =>
    .mk (by simp [Container.ofName?]) (by simp [Container.ofName?]) (by simp)
  have hpair : Plain pair := by
    refine .mk (by decide) (by decide) (List.forall_mem_cons.mpr ⟨hleaf _ _, ?_⟩)
    rw [List.forall_mem_singleton]
    exact .mk (by decide) (by decide) (by simp [hleaf])
  have hstrings : Plain strings := by
    refine .mk (by decide) (by decide) (List.forall_mem_singleton.mpr ?_)
    exact .mk (by decide) (by decide) (by simp [hleaf])
  have hplain : Plain type := .mk (by decide) (by decide) (by simp [hpair, hstrings])
  have hemit : type.emit .identity = emitted := by decide +kernel
  obtain ⟨hprint, hread, hagain, hconvert, hconvert'⟩ := parse_emit_translated hparse hplain
  rw [hemit] at hprint hread hagain hconvert hconvert'
  exact ⟨hparse, hplain, hemit, hprint.symm, hread, hagain, hconvert, hconvert'⟩

end TypeExpr

end TypeScribe
