import TypeScribe.Proofs.Name.Trimming
import TypeScribe.Proofs.TsType.Written
import TypeScribe.TsType.OfTypeExpr

/-!
# Emitted types say what the type expression stands for

The emitted text of a type expression is read by the grammar of written types, and read as what the
type expression stands for and as nothing else.
-/

namespace TypeScribe

open Text TypeExpr TsType

/-! ### What a type expression stands for -/

/-- The array levels around `core`, and absence around these. -/
def TsType.Meaning.decorate (rank : Nat) (mayBeAbsent : Bool) (core : Meaning) : Meaning :=
  if mayBeAbsent then .optional (Meaning.array^[rank] core) else Meaning.array^[rank] core

theorem TypeExpr.sizeOf_lt_of_mem {name : String} {arguments : List TypeExpr} {rank : Nat}
    {isNullable : Bool} {argument : TypeExpr} (h : argument ∈ arguments) :
    sizeOf argument < sizeOf (⟨name, arguments, rank, isNullable⟩ : TypeExpr) := by
  have hlt := List.sizeOf_lt_of_mem h
  rw [mk.sizeOf_spec]
  omega

theorem TypeExpr.sizeOf_unmarked (type : TypeExpr) :
    sizeOf { type with isNullable := false } = sizeOf type := by
  obtain ⟨name, arguments, rank, isNullable⟩ := type
  cases isNullable <;> rfl

/-- What a type expression stands for. The explicit wrapper stands for its argument without the
argument's own mark, and for absence. -/
def TypeExpr.meaning (trimmer : Trimmer) : TypeExpr → Meaning
  | ⟨name, arguments, rank, isNullable⟩ =>
      match Container.ofName? name arguments.length, arguments with
      | some .sequence, [element] =>
          Meaning.decorate rank isNullable (.array (meaning trimmer element))
      | some .dictionary, [key, value] =>
          Meaning.decorate rank isNullable
            (.dictionary (meaning trimmer key) (meaning trimmer value))
      | some .nullable, [inner] =>
          Meaning.decorate rank true (meaning trimmer { inner with isNullable := false })
      | _, [] => Meaning.decorate rank isNullable (.named (typeName trimmer name))
      | _, arguments =>
          Meaning.decorate rank isNullable
            (.generic (typeName trimmer name)
              (arguments.attach.map fun argument => meaning trimmer argument.1))
termination_by type => sizeOf type
decreasing_by
  · exact sizeOf_lt_of_mem List.mem_cons_self
  · exact sizeOf_lt_of_mem List.mem_cons_self
  · exact sizeOf_lt_of_mem (List.mem_cons_of_mem _ List.mem_cons_self)
  · rw [sizeOf_unmarked]
    exact sizeOf_lt_of_mem List.mem_cons_self
  · exact sizeOf_lt_of_mem argument.2

/-- A type expression of proper names. The names that pass through, neither of containers nor of
primitive types, are not trimmed to nothing. -/
inductive TypeExpr.Spellable (trimmer : Trimmer) : TypeExpr → Prop where
  | mk {name : String} {arguments : List TypeExpr} {rank : Nat} {isNullable : Bool}
      (hname : IsName name.toList)
      (htrim : Container.ofName? name arguments.length = none → primitiveName? name = none →
        trimmer.trim name ≠ "")
      (harguments : ∀ argument ∈ arguments, Spellable trimmer argument) :
      Spellable trimmer ⟨name, arguments, rank, isNullable⟩

theorem Container.arity_of_ofName? {name : String} {arity : Nat} {container : Container}
    (h : ofName? name arity = some container) :
    arity = if container = .dictionary then 2 else 1 := by
  unfold ofName? at h
  split at h
  · next hsequence => cases h; exact hsequence.1
  · split at h
    · next hdictionary => cases h; exact hdictionary.1
    · split at h
      · next hnullable => cases h; exact hnullable.1
      · exact absurd h (by simp)

/-! ### Trimmed names -/

section Names

variable {trimmer : Trimmer} {name : List Char} {c : Char}

/-- Trimming brings in no characters. -/
theorem mem_of_mem_trimChars (h : c ∈ trimmer.trimChars name) : c ∈ name :=
  (trimmer.isInfix_trimChars name).subset h

/-- The names that primitive names become. -/
def targetPrimitives : List String := ["number", "boolean", "string", "any"]

theorem mem_targetPrimitives {name primitive : String} (h : primitiveName? name = some primitive) :
    primitive ∈ targetPrimitives := by
  unfold primitiveName? at h
  split at h
  · cases h; decide
  · split at h
    · cases h; decide
    · split at h
      · cases h; decide
      · split at h <;> cases h; decide

theorem isName_primitiveName? {name primitive : String} (h : primitiveName? name = some primitive) :
    IsName primitive.toList := by
  have hprimitives : ∀ word ∈ targetPrimitives, IsName word.toList :=
    List.forall_iff_forall_mem.mp (by decide)
  exact hprimitives primitive (mem_targetPrimitives h)

theorem isName_typeName {name : String} (hname : IsName name.toList)
    (htrim : primitiveName? name = none → trimmer.trim name ≠ "") :
    IsName (typeName trimmer name).toList := by
  rw [typeName]
  cases hprimitive : primitiveName? name with
  | some primitive => exact isName_primitiveName? hprimitive
  | none =>
      have htrimmed := htrim hprimitive
      rw [Option.getD_none]
      refine ⟨by simpa using htrimmed, fun c hc => hname.2 c ?_⟩
      rw [Trimmer.trim, String.toList_ofList] at hc
      exact mem_of_mem_trimChars hc

end Names

/-! ### The emitted type -/

namespace TsType

variable {trimmer : Trimmer}

theorem meaning_decorate (rank : Nat) (mayBeAbsent : Bool) (type : TsType) :
    (decorate rank mayBeAbsent type).meaning = type.meaning.decorate rank mayBeAbsent := by
  have harray : (arrayOf rank type).meaning = Meaning.array^[rank] type.meaning := by
    cases rank with
    | zero => rfl
    | succ rank => rfl
  cases mayBeAbsent with
  | true => simp [decorate, Meaning.decorate, meaning, harray]
  | false => simp [decorate, Meaning.decorate, harray]

theorem Proper.decorate {type : TsType} (h : Proper type) (rank : Nat) (mayBeAbsent : Bool) :
    Proper (decorate rank mayBeAbsent type) := by
  have harray : Proper (arrayOf rank type) := by
    rw [arrayOf]
    split
    · exact h
    · exact .array rank h
  cases mayBeAbsent with
  | true => exact .optional harray
  | false => exact harray

theorem ofTypeExprs_eq_map (types : List TypeExpr) :
    ofTypeExprs trimmer types = types.map (ofTypeExpr trimmer true) := by
  induction types with
  | nil => rfl
  | cons type types ih => simp [ofTypeExprs, ih]

section Equations

variable {name : String} {arguments : List TypeExpr} {element key value inner : TypeExpr} {rank : Nat}
  {isNullable marked : Bool}

theorem ofTypeExpr_sequence (h : Container.ofName? name 1 = some .sequence) :
    ofTypeExpr trimmer marked ⟨name, [element], rank, isNullable⟩ =
      decorate rank (marked && isNullable) (.array (ofTypeExpr trimmer true element) 1) := by
  simp [ofTypeExpr, h]

theorem meaning_sequence (h : Container.ofName? name 1 = some .sequence) :
    TypeExpr.meaning trimmer ⟨name, [element], rank, isNullable⟩ =
      Meaning.decorate rank isNullable (.array (TypeExpr.meaning trimmer element)) := by
  simp [TypeExpr.meaning, h]

theorem ofTypeExpr_dictionary (h : Container.ofName? name 2 = some .dictionary) :
    ofTypeExpr trimmer marked ⟨name, [key, value], rank, isNullable⟩ =
      decorate rank (marked && isNullable)
        (.dictionary (ofTypeExpr trimmer true key) (ofTypeExpr trimmer true value)) := by
  simp [ofTypeExpr, h]

theorem meaning_dictionary (h : Container.ofName? name 2 = some .dictionary) :
    TypeExpr.meaning trimmer ⟨name, [key, value], rank, isNullable⟩ =
      Meaning.decorate rank isNullable
        (.dictionary (TypeExpr.meaning trimmer key) (TypeExpr.meaning trimmer value)) := by
  simp [TypeExpr.meaning, h]

theorem ofTypeExpr_nullable (h : Container.ofName? name 1 = some .nullable) :
    ofTypeExpr trimmer marked ⟨name, [inner], rank, isNullable⟩ =
      decorate rank true (ofTypeExpr trimmer false inner) := by
  simp [ofTypeExpr, h]

theorem meaning_nullable (h : Container.ofName? name 1 = some .nullable) :
    TypeExpr.meaning trimmer ⟨name, [inner], rank, isNullable⟩ =
      Meaning.decorate rank true (TypeExpr.meaning trimmer { inner with isNullable := false }) := by
  simp [TypeExpr.meaning, h]

theorem ofTypeExpr_of_none (h : Container.ofName? name arguments.length = none) :
    ofTypeExpr trimmer marked ⟨name, arguments, rank, isNullable⟩ =
      decorate rank (marked && isNullable)
        (if arguments = [] then .named (typeName trimmer name)
          else .generic (typeName trimmer name) (arguments.map (ofTypeExpr trimmer true))) := by
  rw [ofTypeExpr.eq_def]
  simp only [h]
  cases arguments with
  | nil => rfl
  | cons argument arguments => simp [ofTypeExprs_eq_map]

theorem meaning_of_none (h : Container.ofName? name arguments.length = none) :
    TypeExpr.meaning trimmer ⟨name, arguments, rank, isNullable⟩ =
      Meaning.decorate rank isNullable
        (if arguments = [] then .named (typeName trimmer name)
          else .generic (typeName trimmer name) (arguments.map (TypeExpr.meaning trimmer))) := by
  rw [TypeExpr.meaning.eq_def]
  simp only [h]
  cases arguments with
  | nil => rfl
  | cons argument arguments => simp

end Equations

theorem with_true_and_isNullable (type : TypeExpr) :
    { type with isNullable := true && type.isNullable } = type := by
  cases type
  rfl

/-- `type`, whose own mark counts only if `marked` is set, becomes a type that says the same. -/
theorem proper_ofTypeExpr {type : TypeExpr} (h : Spellable trimmer type) (marked : Bool) :
    Proper (ofTypeExpr trimmer marked type) ∧ (ofTypeExpr trimmer marked type).meaning =
      TypeExpr.meaning trimmer { type with isNullable := marked && type.isNullable } := by
  induction h generalizing marked with
  | @mk name arguments rank isNullable hname htrim _ ih =>
      have htrue : ∀ argument ∈ arguments, Proper (ofTypeExpr trimmer true argument) ∧
          (ofTypeExpr trimmer true argument).meaning = TypeExpr.meaning trimmer argument :=
        fun argument hmem => by simpa only [with_true_and_isNullable] using ih argument hmem true
      cases hcontainer : Container.ofName? name arguments.length with
      | some container =>
          have harity := Container.arity_of_ofName? hcontainer
          cases container with
          | sequence =>
              obtain ⟨element, rfl⟩ := List.length_eq_one_iff.mp harity
              obtain ⟨hproper, hmeaning⟩ := htrue element (by simp)
              rw [ofTypeExpr_sequence hcontainer, meaning_sequence hcontainer, meaning_decorate]
              refine ⟨(Proper.array 1 hproper).decorate rank _, ?_⟩
              rw [meaning, hmeaning, Function.iterate_one]
          | dictionary =>
              obtain ⟨key, value, rfl⟩ := List.length_eq_two.mp harity
              obtain ⟨hkey, hkeyMeaning⟩ := htrue key (by simp)
              obtain ⟨hvalue, hvalueMeaning⟩ := htrue value (by simp)
              rw [ofTypeExpr_dictionary hcontainer, meaning_dictionary hcontainer, meaning_decorate]
              refine ⟨(Proper.dictionary hkey hvalue).decorate rank _, ?_⟩
              rw [meaning, hkeyMeaning, hvalueMeaning]
          | nullable =>
              obtain ⟨inner, rfl⟩ := List.length_eq_one_iff.mp harity
              obtain ⟨hproper, hmeaning⟩ := ih inner (by simp) false
              rw [ofTypeExpr_nullable hcontainer, meaning_nullable hcontainer, meaning_decorate,
                hmeaning, Bool.false_and]
              exact ⟨hproper.decorate rank true, rfl⟩
      | none =>
          have htype : IsName (typeName trimmer name).toList :=
            isName_typeName hname (htrim hcontainer)
          rw [ofTypeExpr_of_none hcontainer, meaning_of_none hcontainer, meaning_decorate]
          split
          · exact ⟨(Proper.named htype).decorate rank _, rfl⟩
          · next hne =>
            have harguments : Proper (.generic (typeName trimmer name)
                (arguments.map (ofTypeExpr trimmer true))) := by
              refine .generic htype (by simpa using hne) ?_
              rw [List.forall_mem_map]
              exact fun argument hmem => (htrue argument hmem).1
            refine ⟨harguments.decorate rank _, ?_⟩
            rw [meaning, meaningList_eq_map, List.map_map]
            congr 2
            exact List.map_congr_left fun argument hmem => (htrue argument hmem).2

end TsType

/-- The grammar reads what is emitted for a type expression as what the expression stands for, and as
nothing else. -/
theorem TypeExpr.reads_emit_iff {config : Config} {type : TypeExpr}
    (h : Spellable config.trimmer type) (meaning : Meaning) :
    Reads .union (type.emit config.trimmer).toList meaning ↔
      meaning = type.meaning config.trimmer := by
  obtain ⟨hproper, hmeaning⟩ := proper_ofTypeExpr h true
  have hreads : Reads .union (type.emit config.trimmer).toList (type.meaning config.trimmer) := by
    rw [emit, TsType.print, String.toList_ofList]
    have hemitted := hproper.reads.1
    rwa [hmeaning, with_true_and_isNullable] at hemitted
  constructor
  · exact fun hread => hread.eq hreads
  · rintro rfl
    exact hreads

/-- The type `Dictionary<string, List<OrderDto?>>?[]`, with the postfix `Dto` taken off. -/
theorem TypeExpr.reads_emit_optional_dictionaries :
    let config : Config := { trimPostfixes := ["Dto"] }
    let orders : TypeExpr := ⟨"List", [⟨"OrderDto", [], 0, true⟩], 0, false⟩
    let type : TypeExpr := ⟨"Dictionary", [⟨"string", [], 0, false⟩, orders], 1, true⟩
    Spellable config.trimmer type ∧
      type.emit config.trimmer = "\x7b [key: string]: (Order | undefined)[] \x7d[] | undefined" ∧
      ∀ meaning, Reads .union (type.emit config.trimmer).toList meaning ↔
        meaning = .optional (.array (.dictionary (.named "string")
          (.array (.optional (.named "Order"))))) := by
  intro config orders type
  have horder : config.trimmer.trim "OrderDto" = "Order" := by decide +kernel
  have hstring : Spellable config.trimmer ⟨"string", [], 0, false⟩ :=
    .mk (by decide) (fun _ h => absurd h (by decide)) (by simp)
  have horderDto : Spellable config.trimmer ⟨"OrderDto", [], 0, true⟩ :=
    .mk (by decide) (fun _ _ => by simp [horder]) (by simp)
  have horders : Spellable config.trimmer orders :=
    .mk (by decide) (fun h => absurd h (by decide)) (by simpa using horderDto)
  have hspellable : Spellable config.trimmer type :=
    .mk (by decide) (fun h => absurd h (by decide)) (by simpa using ⟨hstring, horders⟩)
  have hmeaning : type.meaning config.trimmer = .optional (.array (.dictionary (.named "string")
      (.array (.optional (.named "Order"))))) := by
    simp [type, orders, TypeExpr.meaning, Container.ofName?, sequenceNames, dictionaryNames,
      typeName, primitiveName?, numberNames, Meaning.decorate, horder]
  refine ⟨hspellable, by decide +kernel, fun meaning => ?_⟩
  rw [← hmeaning]
  exact reads_emit_iff hspellable meaning

end TypeScribe
