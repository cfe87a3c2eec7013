import TypeScribe.Proofs.TsType.Emission

/-!
# Where absence is written

A mark and an explicit wrapper both say that a value may be absent. Together on one level they are
written as one union with `undefined`, but each of two wrappers on one level writes its own.
-/

namespace TypeScribe

open TypeExpr TsType

/-! ### Marks and wrappers -/

namespace TypeExpr

def withMark (type : TypeExpr) : TypeExpr := { type with isNullable := true }

/-- The explicit wrapper around `type`. -/
def inWrapper (type : TypeExpr) : TypeExpr := ⟨"Nullable", [type], 0, false⟩

def IsWrapper (type : TypeExpr) : Prop := type.name = "Nullable" ∧ type.arguments.length = 1

instance (type : TypeExpr) : Decidable type.IsWrapper := instDecidableAnd

/-- At no depth does a wrapper stand directly around a wrapper. Array levels on the outer one keep the
two apart. -/
inductive WrapsOnce : TypeExpr → Prop where
  | mk {name : String} {arguments : List TypeExpr} {rank : Nat} {isNullable : Bool}
      (hinner : IsWrapper ⟨name, arguments, rank, isNullable⟩ → rank = 0 →
        ∀ argument ∈ arguments, ¬IsWrapper argument)
      (harguments : ∀ argument ∈ arguments, WrapsOnce argument) :
      WrapsOnce ⟨name, arguments, rank, isNullable⟩

theorem wrapsOnce_mk_iff {name : String} {arguments : List TypeExpr} {rank : Nat}
    {isNullable : Bool} :
    WrapsOnce ⟨name, arguments, rank, isNullable⟩ ↔
      (IsWrapper ⟨name, arguments, rank, isNullable⟩ → rank = 0 →
        ∀ argument ∈ arguments, ¬IsWrapper argument) ∧
      ∀ argument ∈ arguments, WrapsOnce argument :=
  ⟨fun | .mk hinner harguments => ⟨hinner, harguments⟩, fun h => .mk h.1 h.2⟩

@[elab_as_elim]
theorem induction {motive : TypeExpr → Prop}
    (mk : ∀ (name : String) (arguments : List TypeExpr) (rank : Nat) (isNullable : Bool),
      (∀ argument ∈ arguments, motive argument) → motive ⟨name, arguments, rank, isNullable⟩)
    (type : TypeExpr) : motive type := by
  obtain ⟨name, arguments, rank, isNullable⟩ := type
  exact mk name arguments rank isNullable fun argument hmem => induction mk argument
termination_by sizeOf type
decreasing_by exact sizeOf_lt_of_mem hmem

theorem ofName?_eq_nullable_iff {name : String} {arity : Nat} :
    Container.ofName? name arity = some .nullable ↔ name = "Nullable" ∧ arity = 1 := by
  constructor
  · intro h
    unfold Container.ofName? at h
    split at h
    · cases h
    · split at h
      · cases h
      · split at h
        · next hnullable => exact ⟨hnullable.2, hnullable.1⟩
        · cases h
  · rintro ⟨rfl, rfl⟩
    decide

end TypeExpr

/-- No union with `undefined` stands directly in another one. -/
inductive TsType.AbsentOnce : TsType → Prop where
  | named (name : String) : AbsentOnce (.named name)
  | generic {name : String} {arguments : List TsType}
      (harguments : ∀ argument ∈ arguments, AbsentOnce argument) :
      AbsentOnce (.generic name arguments)
  | dictionary {key value : TsType} (hkey : AbsentOnce key) (hvalue : AbsentOnce value) :
      AbsentOnce (.dictionary key value)
  | array {element : TsType} {rank : Nat} (helement : AbsentOnce element) :
      AbsentOnce (.array element rank)
  | optional {type : TsType} (htype : AbsentOnce type) (hcore : type.isOptional = false) :
      AbsentOnce (.optional type)

namespace TsType

theorem absentOnce_optional_iff {type : TsType} :
    AbsentOnce (.optional type) ↔ AbsentOnce type ∧ type.isOptional = false :=
  ⟨fun | .optional htype hcore => ⟨htype, hcore⟩, fun h => .optional h.1 h.2⟩

theorem absentOnce_array_iff {element : TsType} {rank : Nat} :
    AbsentOnce (.array element rank) ↔ AbsentOnce element :=
  ⟨fun | .array helement => helement, .array⟩

theorem absentOnce_dictionary_iff {key value : TsType} :
    AbsentOnce (.dictionary key value) ↔ AbsentOnce key ∧ AbsentOnce value :=
  ⟨fun | .dictionary hkey hvalue => ⟨hkey, hvalue⟩, fun h => .dictionary h.1 h.2⟩

theorem absentOnce_generic_iff {name : String} {arguments : List TsType} :
    AbsentOnce (.generic name arguments) ↔ ∀ argument ∈ arguments, AbsentOnce argument :=
  ⟨fun | .generic harguments => harguments, .generic⟩

theorem isOptional_decorate {core : TsType} {rank : Nat} {mayBeAbsent : Bool} :
    (decorate rank mayBeAbsent core).isOptional =
      (mayBeAbsent || (rank == 0 && core.isOptional)) := by
  cases mayBeAbsent with
  | true => rfl
  | false =>
      rw [decorate, if_neg Bool.false_ne_true, arrayOf]
      split
      · next hrank => simp [hrank]
      · next hrank => simp [hrank, isOptional]

theorem absentOnce_decorate_iff {core : TsType} {rank : Nat} {mayBeAbsent : Bool} :
    AbsentOnce (decorate rank mayBeAbsent core) ↔
      AbsentOnce core ∧ (mayBeAbsent = true → rank = 0 → core.isOptional = false) := by
  have harray : AbsentOnce (arrayOf rank core) ↔ AbsentOnce core := by
    rw [arrayOf]
    split
    · rfl
    · exact absentOnce_array_iff
  cases mayBeAbsent with
  | false => simpa [decorate] using harray
  | true =>
      have hoptional := @isOptional_decorate core rank false
      simp only [decorate, Bool.false_eq_true, if_false] at hoptional
      simp [decorate, absentOnce_optional_iff, harray, hoptional]

variable {trimmer : Trimmer} {type : TypeExpr} {marked : Bool}

/-! ### One level -/

/-- A type expression that is no wrapper is translated by what its name and its arguments say, under
its array levels. -/
theorem exists_core (h : ¬type.IsWrapper) : ∃ core : TsType, core.isOptional = false ∧
    (AbsentOnce core ↔
      ∀ argument ∈ type.arguments, AbsentOnce (ofTypeExpr trimmer true argument)) ∧
    ∀ marked isNullable, ofTypeExpr trimmer marked { type with isNullable := isNullable } =
      decorate type.rank (marked && isNullable) core := by
  obtain ⟨name, arguments, rank, isNullable⟩ := type
  cases hcontainer : Container.ofName? name arguments.length with
  | some container =>
      have harity := Container.arity_of_ofName? hcontainer
      cases container with
      | sequence =>
          obtain ⟨element, rfl⟩ := List.length_eq_one_iff.mp harity
          refine ⟨_, rfl, ?_, fun _ _ => ofTypeExpr_sequence hcontainer⟩
          simp [absentOnce_array_iff]
      | dictionary =>
          obtain ⟨key, value, rfl⟩ := List.length_eq_two.mp harity
          refine ⟨_, rfl, ?_, fun _ _ => ofTypeExpr_dictionary hcontainer⟩
          simp [absentOnce_dictionary_iff]
      | nullable => exact absurd (ofName?_eq_nullable_iff.mp hcontainer) h
  | none =>
      refine ⟨_, ?_, ?_, fun _ _ => ofTypeExpr_of_none hcontainer⟩
      · split <;> rfl
      · split
        · next hnil =>
            obtain rfl : arguments = [] := hnil
            simp [AbsentOnce.named]
        · simp [absentOnce_generic_iff]

theorem ofTypeExpr_withMark (h : ¬type.IsWrapper) :
    ofTypeExpr trimmer true type.withMark = .optional (ofTypeExpr trimmer false type) := by
  obtain ⟨core, -, -, hcore⟩ := @exists_core trimmer type h
  obtain ⟨name, arguments, rank, isNullable⟩ := type
  rw [withMark, hcore true true, hcore false isNullable, Bool.false_and]
  rfl

/-- The mark of a wrapper adds nothing to it. -/
theorem ofTypeExpr_withMark_of_isWrapper (h : type.IsWrapper) :
    ofTypeExpr trimmer true type.withMark = ofTypeExpr trimmer false type := by
  obtain ⟨name, arguments, rank, isNullable⟩ := type
  have hcontainer := ofName?_eq_nullable_iff.mpr h
  obtain ⟨inner, rfl⟩ := List.length_eq_one_iff.mp h.2
  exact (ofTypeExpr_nullable hcontainer).trans (ofTypeExpr_nullable hcontainer).symm

theorem ofTypeExpr_inWrapper :
    ofTypeExpr trimmer marked type.inWrapper = .optional (ofTypeExpr trimmer false type) :=
  ofTypeExpr_nullable (ofName?_eq_nullable_iff.mpr ⟨rfl, rfl⟩)

theorem isOptional_ofTypeExpr_iff : (ofTypeExpr trimmer marked type).isOptional = true ↔
    (marked && type.isNullable) = true ∨ type.IsWrapper := by
  by_cases h : type.IsWrapper
  · obtain ⟨name, arguments, rank, isNullable⟩ := type
    obtain ⟨inner, rfl⟩ := List.length_eq_one_iff.mp h.2
    rw [ofTypeExpr_nullable (ofName?_eq_nullable_iff.mpr h)]
    exact iff_of_true rfl (.inr h)
  · obtain ⟨core, hcore, -, hofTypeExpr⟩ := @exists_core trimmer type h
    obtain ⟨name, arguments, rank, isNullable⟩ := type
    rw [hofTypeExpr marked isNullable, isOptional_decorate, hcore, Bool.and_false, Bool.or_false,
      or_iff_left h]

/-! ### All levels -/

theorem absentOnce_ofTypeExpr_iff :
    AbsentOnce (ofTypeExpr trimmer marked type) ↔ type.WrapsOnce := by
  -- A wrapper has its argument translated without the mark, so `marked` varies.
  induction type using TypeExpr.induction generalizing marked with
  | mk name arguments rank isNullable ih =>
      rw [wrapsOnce_mk_iff]
      by_cases h : IsWrapper ⟨name, arguments, rank, isNullable⟩
      · obtain ⟨inner, rfl⟩ := List.length_eq_one_iff.mp h.2
        have hinner : (ofTypeExpr trimmer false inner).isOptional = false ↔ ¬inner.IsWrapper := by
          rw [← Bool.not_eq_true, isOptional_ofTypeExpr_iff, Bool.false_and, or_iff_right (by simp)]
        rw [ofTypeExpr_nullable (ofName?_eq_nullable_iff.mpr h), absentOnce_decorate_iff,
          ih inner List.mem_cons_self, hinner]
        simp [h, and_comm]
      · obtain ⟨core, hcore, habsent, hofTypeExpr⟩ := @exists_core trimmer _ h
        have harguments : (∀ argument ∈ arguments, AbsentOnce (ofTypeExpr trimmer true argument)) ↔
            ∀ argument ∈ arguments, argument.WrapsOnce :=
          forall₂_congr fun argument hmem => ih argument hmem
        rw [hofTypeExpr marked isNullable, absentOnce_decorate_iff, habsent, harguments]
        simp [h, hcore]

end TsType

theorem TsType.print_optional (type : TsType) :
    (optional type).print = type.print ++ " | undefined" := by
  rw [print, chars_optional, String.ofList_append, String.ofList_toList, ← print]

/-- **Wrapper and mark** are written alike around all but a wrapper. Around a wrapper, which takes no
notice of its own mark, another one adds a second `undefined`. So each level is joined with it at most
once just where no wrapper stands directly around a wrapper. -/
theorem TypeExpr.emit_inWrapper_eq_iff (config : Config) (type : TypeExpr) :
    (type.inWrapper.emit config.trimmer = type.withMark.emit config.trimmer ↔ ¬type.IsWrapper) ∧
      (type.IsWrapper → type.inWrapper.emit config.trimmer =
        type.withMark.emit config.trimmer ++ " | undefined") ∧
      (AbsentOnce (ofTypeExpr config.trimmer true type) ↔ type.WrapsOnce) := by
  have hmore : type.IsWrapper → type.inWrapper.emit config.trimmer =
      type.withMark.emit config.trimmer ++ " | undefined" := by
    intro h
    rw [emit, emit, ofTypeExpr_inWrapper, ofTypeExpr_withMark_of_isWrapper h, print_optional]
  refine ⟨⟨fun heq h => ?_, fun h => ?_⟩, hmore, absentOnce_ofTypeExpr_iff⟩
  · have hlength := congrArg String.length ((hmore h).symm.trans heq)
    rw [String.length_append] at hlength
    have hsuffix : " | undefined".length = 12 := rfl
    omega
  · rw [emit, emit, ofTypeExpr_inWrapper, ofTypeExpr_withMark h]

/-- The wrapper around `Nullable<int>` is not written as `Nullable<int>?` is. -/
theorem TypeExpr.exists_emit_inWrapper_ne :
    ¬∀ (config : Config) (type : TypeExpr),
      type.inWrapper.emit config.trimmer = type.withMark.emit config.trimmer := by
  intro h
  have hnested := h {} (inWrapper ⟨"int", [], 0, false⟩)
  exact absurd hnested (by decide +kernel)

end TypeScribe
