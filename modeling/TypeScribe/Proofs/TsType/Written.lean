import TypeScribe.Proofs.TsType.Grammar

/-!
# Written types are read as what they say

Whether an element needs parentheses is decided on its written form, by a search for a `|` outside of
brackets. Brackets of all kinds pair up in written types, so the search finds one in the unions and in
no other type.
-/

namespace TypeScribe

open Text TypeExpr

namespace TsType

/-! ### The search for a bar -/

/-- The search for a bar passes over the text if at least `floor` brackets are open around it. -/
def PassedFrom (floor : Int) (text : List Char) : Prop :=
  ∀ (depth : Int) (rest : List Char), floor ≤ depth →
    isUnion depth (text ++ rest) = isUnion depth rest

section Search

variable {floor : Int} {left right text : List Char}

theorem passedFrom_nil : PassedFrom floor [] := fun _ _ _ => rfl

theorem PassedFrom.mono {higher : Int} (h : PassedFrom floor text) (hle : floor ≤ higher) :
    PassedFrom higher text :=
  fun depth rest hdepth => h depth rest (Int.le_trans hle hdepth)

theorem PassedFrom.append (hleft : PassedFrom floor left) (hright : PassedFrom floor right) :
    PassedFrom floor (left ++ right) := by
  intro depth rest hdepth
  rw [List.append_assoc, hleft depth _ hdepth, hright depth rest hdepth]

theorem passedFrom_flat (h : ∀ c ∈ text, nesting c = 0 ∧ (c = '|' → 0 < floor)) :
    PassedFrom floor text := by
  intro depth rest hdepth
  induction text with
  | nil => rfl
  | cons c text ih =>
      obtain ⟨hflat, hbar⟩ := h c List.mem_cons_self
      have hmore := ih fun d hd => h d (List.mem_cons_of_mem c hd)
      have hstop : (c == '|' && depth == 0) = false := by
        rw [Bool.and_eq_false_iff, beq_eq_false_iff_ne, beq_eq_false_iff_ne]
        by_cases hc : c = '|'
        · have := hbar hc
          exact .inr (by omega)
        · exact .inl hc
      rw [List.cons_append, isUnion, hflat, Int.add_zero, hmore, hstop, Bool.false_or]

/-- Between brackets that pair up one more of them is open. -/
theorem passedFrom_enclosed {opening closing : Char} (hopening : nesting opening = 1)
    (hclosing : nesting closing = -1) (h : PassedFrom 1 text) :
    PassedFrom 0 (opening :: (text ++ [closing])) := by
  have hbar : nesting '|' = 0 := by decide
  have hopening' : opening ≠ '|' := by
    rintro rfl
    omega
  have hclosing' : closing ≠ '|' := by
    rintro rfl
    omega
  intro depth rest hdepth
  have hinside := h (depth + 1) (closing :: rest) (by omega)
  rw [List.cons_append, List.append_assoc, List.singleton_append, isUnion, hopening, hinside, isUnion,
    hclosing, Int.add_neg_cancel_right, beq_false_of_ne hopening', beq_false_of_ne hclosing']
  rfl

theorem passedFrom_name (h : ∀ c ∈ text, isNameChar c = true) : PassedFrom floor text := by
  have hmarks : ∀ mark ∈ ['|', '\x7b', '(', '[', '<', '\x7d', ')', ']', '>'],
      isNameChar mark = false :=
    List.forall_iff_forall_mem.mp (by decide)
  refine passedFrom_flat fun c hc => ?_
  have hother : c ∉ ['|', '\x7b', '(', '[', '<', '\x7d', ')', ']', '>'] := by
    intro hmem
    exact absurd (h c hc) (by simp [hmarks c hmem])
  simp only [List.mem_cons, List.not_mem_nil, or_false, not_or] at hother
  simp [nesting, hother]

theorem passedFrom_undefined : PassedFrom 1 " | undefined".toList := by
  have hflat : ∀ c ∈ " | undefined".toList, nesting c = 0 :=
    List.forall_iff_forall_mem.mp (by decide)
  exact passedFrom_flat fun c hc => ⟨hflat c hc, fun _ => Int.one_pos⟩

theorem isUnion_append {depth : Int} (h : isUnion depth left = true) :
    isUnion depth (left ++ right) = true := by
  induction left generalizing depth with
  | nil => simp [isUnion] at h
  | cons c left ih =>
      rw [isUnion, Bool.or_eq_true] at h
      rw [List.cons_append, isUnion, Bool.or_eq_true]
      exact h.imp_right ih

end Search

/-! ### Written types -/

def isOptional : TsType → Bool
  | .optional _ => true
  | _ => false

/-- A type whose names are proper, and whose generic parts are not empty. -/
inductive Proper : TsType → Prop where
  | named {name : String} (hname : IsName name.toList) : Proper (.named name)
  | generic {name : String} {arguments : List TsType} (hname : IsName name.toList)
      (hne : arguments ≠ []) (harguments : ∀ argument ∈ arguments, Proper argument) :
      Proper (.generic name arguments)
  | dictionary {key value : TsType} (hkey : Proper key) (hvalue : Proper value) :
      Proper (.dictionary key value)
  | array {element : TsType} (rank : Nat) (helement : Proper element) :
      Proper (.array element rank)
  | optional {type : TsType} (htype : Proper type) : Proper (.optional type)

theorem passedFrom_intercalate {texts : List (List Char)} (h : ∀ text ∈ texts, PassedFrom 1 text) :
    PassedFrom 1 ([',', ' '].intercalate texts) := by
  have hcomma : PassedFrom 1 [',', ' '] := passedFrom_flat (List.forall_iff_forall_mem.mp (by decide))
  induction texts with
  | nil => exact passedFrom_nil
  | cons text texts ih =>
      have hhead := h text List.mem_cons_self
      have htail := ih fun other hother => h other (List.mem_cons_of_mem text hother)
      cases texts with
      | nil => simpa using hhead
      | cons other texts =>
          rw [List.intercalate_cons_cons, List.append_assoc]
          exact hhead.append (hcomma.append htail)

theorem passedFrom_bracketPairs (rank : Nat) :
    PassedFrom 0 (List.replicate rank ['[', ']']).flatten := by
  induction rank with
  | zero => exact passedFrom_nil
  | succ rank ih =>
      have hpair : PassedFrom 0 ['[', ']'] :=
        passedFrom_enclosed (by decide) (by decide) passedFrom_nil
      rw [List.replicate_succ, List.flatten_cons]
      exact hpair.append ih

theorem Proper.passedFrom {type : TsType} (h : Proper type) :
    PassedFrom 1 type.chars ∧ (type.isOptional = false → PassedFrom 0 type.chars) ∧
      isUnion 0 type.chars = type.isOptional := by
  have hclosed : ∀ {type : TsType}, type.isOptional = false → PassedFrom 0 type.chars →
      PassedFrom 1 type.chars ∧ (type.isOptional = false → PassedFrom 0 type.chars) ∧
        isUnion 0 type.chars = type.isOptional := by
    intro type hoptional hpassed
    refine ⟨hpassed.mono Int.one_nonneg, fun _ => hpassed, ?_⟩
    have hscan := hpassed 0 [] (Int.le_refl 0)
    rw [List.append_nil] at hscan
    rw [hscan, hoptional, isUnion]
  induction h with
  | @named name hname =>
      refine hclosed rfl ?_
      rw [chars_named]
      exact passedFrom_name hname.2
  | @generic name arguments hname hne _ ih =>
      refine hclosed rfl ?_
      have harguments : PassedFrom 1 ([',', ' '].intercalate (charsList arguments)) := by
        rw [charsList_eq_map]
        apply passedFrom_intercalate
        rw [List.forall_mem_map]
        exact fun argument hmem => (ih argument hmem).1
      rw [chars_generic, List.append_assoc, List.cons_append]
      exact (passedFrom_name hname.2).append
        (passedFrom_enclosed (by decide) (by decide) harguments)
  | @dictionary key value _ _ ihkey ihvalue =>
      have hlead : PassedFrom 1 "key: ".toList :=
        passedFrom_flat (List.forall_iff_forall_mem.mp (by decide))
      have hcolon : PassedFrom 1 ": ".toList :=
        passedFrom_flat (List.forall_iff_forall_mem.mp (by decide))
      have hspace : PassedFrom 1 [' '] :=
        passedFrom_flat (List.forall_iff_forall_mem.mp (by decide))
      have hbrackets : PassedFrom 0 ('[' :: ("key: ".toList ++ key.chars ++ [']'])) :=
        passedFrom_enclosed (by decide) (by decide) (hlead.append ihkey.1)
      have hinside := hspace.append ((hbrackets.mono Int.one_nonneg).append
        (hcolon.append (ihvalue.1.append hspace)))
      have hopening : nesting '\x7b' = 1 := by decide
      have hclosing : nesting '\x7d' = -1 := by decide
      refine hclosed rfl ?_
      simpa [chars_dictionary] using passedFrom_enclosed hopening hclosing hinside
  | @array element rank _ ih =>
      refine hclosed rfl ?_
      rw [chars_array, arrayChars, ih.2.2]
      cases hoptional : element.isOptional with
      | true =>
          exact (passedFrom_enclosed (by decide) (by decide) ih.1).append
            (passedFrom_bracketPairs rank)
      | false => exact (ih.2.1 hoptional).append (passedFrom_bracketPairs rank)
  | @optional type _ ih =>
      refine ⟨?_, fun hoptional => Bool.noConfusion hoptional, ?_⟩
      · rw [chars_optional]
        exact ih.1.append passedFrom_undefined
      · rw [chars_optional, isOptional]
        cases hoptional : type.isOptional with
        | true =>
            rw [hoptional] at ih
            exact isUnion_append ih.2.2
        | false =>
            rw [ih.2.1 hoptional 0 _ (Int.le_refl 0)]
            decide

/-! ### Written types are read -/

mutual

def meaning : TsType → Meaning
  | .named name => .named name
  | .generic name arguments => .generic name (meaningList arguments)
  | .dictionary key value => .dictionary key.meaning value.meaning
  | .array element rank => Meaning.array^[rank] element.meaning
  | .optional type => .optional type.meaning

def meaningList : List TsType → List Meaning
  | [] => []
  | type :: types => type.meaning :: meaningList types

end

theorem meaningList_eq_map (types : List TsType) : meaningList types = types.map meaning := by
  induction types with
  | nil => rfl
  | cons type types ih => simp [meaningList, ih]

theorem Reads.of_primary {text : List Char} {meaning : Meaning} (h : Reads .primary text meaning) :
    Reads .arrays text meaning := by
  have harrays := Reads.arrays 0 h
  rwa [bracketPairs, List.replicate_zero, List.flatten_nil, List.append_nil] at harrays

theorem Reads.of_arrays {text : List Char} {meaning : Meaning} (h : Reads .arrays text meaning) :
    Reads .union text meaning := by
  have hunion := Reads.union 0 h
  rwa [undefinedParts, List.replicate_zero, List.flatten_nil, List.append_nil] at hunion

theorem Reads.append_bracketPairs {text : List Char} {meaning : Meaning} (rank : Nat)
    (h : Reads .arrays text meaning) :
    Reads .arrays (text ++ bracketPairs rank) (Meaning.array^[rank] meaning) := by
  cases h with
  | @arrays text meaning count h =>
      have hmore := Reads.arrays (count + rank) h
      rw [bracketPairs, List.replicate_add, List.flatten_append, Nat.add_comm,
        Function.iterate_add_apply] at hmore
      rwa [List.append_assoc]

theorem Reads.append_undefined {text : List Char} {meaning : Meaning} (h : Reads .union text meaning) :
    Reads .union (text ++ " | undefined".toList) (.optional meaning) := by
  cases h with
  | @union text meaning count h =>
      have hmore := Reads.union (count + 1) h
      rw [undefinedParts, List.replicate_add, List.flatten_append, Function.iterate_succ_apply'] at hmore
      rw [List.append_assoc]
      simpa [undefinedParts] using hmore

theorem Proper.reads {type : TsType} (h : Proper type) :
    Reads .union type.chars type.meaning ∧
      (type.isOptional = false → Reads .arrays type.chars type.meaning) := by
  induction h with
  | @named name hname =>
      have hreads := (Reads.named hname).of_primary
      rw [String.ofList_toList] at hreads
      exact ⟨hreads.of_arrays, fun _ => hreads⟩
  | @generic name arguments hname hne _ ih =>
      let texts := arguments.map fun argument => (argument.chars, argument.meaning)
      have htexts : ∀ argument ∈ texts, Reads .union argument.1 argument.2 := by
        rw [List.forall_mem_map]
        exact fun argument hmem => (ih argument hmem).1
      have hreads := (Reads.generic hname (by simpa [texts] using hne) htexts).of_primary
      have hfst : texts.map Prod.fst = charsList arguments := by
        rw [charsList_eq_map, List.map_map]
        rfl
      have hsnd : texts.map Prod.snd = meaningList arguments := by
        rw [meaningList_eq_map, List.map_map]
        rfl
      rw [hfst, hsnd, String.ofList_toList] at hreads
      rw [chars_generic, List.append_assoc, List.cons_append, meaning]
      exact ⟨hreads.of_arrays, fun _ => hreads⟩
  | dictionary _ _ ihkey ihvalue =>
      have hreads := (Reads.dictionary ihkey.1 ihvalue.1).of_primary
      simp only [chars_dictionary, List.append_assoc, meaning]
      exact ⟨hreads.of_arrays, fun _ => hreads⟩
  | @array element rank helement ih =>
      have hreads : Reads .arrays (element.array rank).chars (element.array rank).meaning := by
        rw [chars_array, arrayChars, helement.passedFrom.2.2, meaning]
        cases hoptional : element.isOptional with
        | true => exact (Reads.grouped ih.1).of_primary.append_bracketPairs rank
        | false => exact (ih.2 hoptional).append_bracketPairs rank
      exact ⟨hreads.of_arrays, fun _ => hreads⟩
  | optional _ ih =>
      rw [chars_optional, meaning]
      exact ⟨ih.1.append_undefined, fun hoptional => Bool.noConfusion hoptional⟩

end TsType

end TypeScribe
