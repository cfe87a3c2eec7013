import TypeScribe.Proofs.TypeExpr.Grammar

/-!
# Generic parts and their closing angle

The generic part of a well-formed type is nested text, and its closing `>` is the last of all. So a
type stays well-formed with another name in front of its generic part; and where the `>` that closes a
generic part is the last of all, no further `<` within it opens a well-formed generic part that runs to
that same `>`.
-/

namespace TypeScribe.TypeExpr

open Text

/-- The `>` that closes the first `<` of the text is its last one. -/
def AnglesClose (text : List Char) : Prop :=
  ∃ front inside after, text = front ++ '<' :: (inside ++ '>' :: after) ∧ '<' ∉ front ∧
    closeAngle 0 (inside ++ '>' :: after) = some (inside, after) ∧ '>' ∉ after

section Generic

variable {lead name gap name' gap' generic inside after : List Char} {type : TypeExpr}

theorem not_mem_angle_of_spaces {text : List Char} (h : Spaces text) : '>' ∉ text :=
  fun hmem => absurd (h _ hmem) (by decide)

theorem Mark.not_mem_angle {text : List Char} {isNullable : Bool} (h : Mark text isNullable) :
    '>' ∉ text := by
  cases h with
  | absent => simp
  | present htrail => simpa using not_mem_angle_of_spaces htrail

theorem Brackets.not_mem_angle {text : List Char} {rank : Nat} (h : Brackets text rank) :
    '>' ∉ text := by
  induction h with
  | nil => simp
  | cons hinside htrail _ ih =>
      have hmark : '>' ∉ _ := fun hmem => absurd (hinside '>' hmem) (by decide)
      simp [hmark, not_mem_angle_of_spaces htrail, ih]

theorem head?_suffix {mark brackets : List Char} {rank : Nat} {isNullable : Bool}
    (hmark : Mark mark isNullable) (hbrackets : Brackets brackets rank) :
    (mark ++ brackets).head?.any isNameChar = false ∧ (mark ++ brackets).head? ≠ some '<' := by
  rcases hmark.eq_nil_or_cons hbrackets with hnil | ⟨c, hc, rest, hcons⟩
  · rw [hnil]
    exact ⟨rfl, by simp⟩
  · obtain ⟨_, hname, _, hangle⟩ := class_of_mem_marks hc
    rw [hcons]
    exact ⟨hname, by simpa using hangle⟩

/-- Behind a name and `<` a well-formed type goes on with nested text, a last `>`, and an end without
arguments. Which name it is does not matter. -/
theorem exists_inside_of_derives (hlead : Spaces lead) (hname : IsName name) (hgap : Spaces gap)
    (h : Derives (lead ++ (name ++ (gap ++ '<' :: generic))) type) :
    (∃ inside after, generic = inside ++ '>' :: after ∧ Nested true inside ∧ '>' ∉ after) ∧
      ∀ other gap', IsName other → Spaces gap' →
        ∃ type', Derives (other ++ (gap' ++ '<' :: generic)) type' := by
  have hopen : ∀ rest : List Char, ('<' :: rest).head?.any isSpace = false ∧
      ('<' :: rest).head?.any isNameChar = false := fun _ => ⟨rfl, rfl⟩
  obtain ⟨stop, hat⟩ := exists_nameAt hlead hname hgap (hopen generic).1 (hopen generic).2 0
  generalize lead ++ (name ++ (gap ++ '<' :: generic)) = text at h hat
  cases h with
  | plain hlead hname hgap hmark hbrackets =>
      obtain ⟨hnameChar, hangle⟩ := head?_suffix hmark hbrackets
      obtain ⟨stop', hat'⟩ :=
        exists_nameAt hlead hname hgap (isSpace_head?_suffix hmark hbrackets) hnameChar 0
      have hrest := congrArg Located.chars (hat.rest_eq.symm.trans hat'.rest_eq)
      exact absurd (congrArg List.head? hrest).symm hangle
  | generic hlead hname hgap hne harguments hgap' hmark hbrackets =>
      obtain ⟨stop', hat'⟩ := exists_nameAt hlead hname hgap (hopen _).1 (hopen _).2 0
      have hrest := congrArg Located.chars (hat.rest_eq.symm.trans hat'.rest_eq)
      obtain rfl := (List.cons.inj hrest).2
      refine ⟨⟨_, _, rfl, .intercalate ?_, ?_⟩, fun other gap hother hspaces => ?_⟩
      · rw [List.forall_mem_map]
        exact fun argument hmem => (harguments argument hmem).nested
      · simp [not_mem_angle_of_spaces hgap', hmark.not_mem_angle, hbrackets.not_mem_angle]
      · exact ⟨_, .generic spaces_nil hother hspaces hne harguments hgap' hmark hbrackets⟩

/-- A name can be made longer at its front. -/
theorem Derives.exists_cons {text : List Char} {c : Char} (h : Derives text type)
    (hhead : text.head?.any isSpace = false) (hc : isNameChar c = true) :
    ∃ type', Derives (c :: text) type' := by
  have hnil : ∀ {lead rest : List Char}, Spaces lead → (lead ++ rest).head?.any isSpace = false →
      lead = [] := by
    intro lead rest hlead hfirst
    cases lead with
    | nil => rfl
    | cons d lead => simp [hlead d List.mem_cons_self] at hfirst
  have hlonger : ∀ {name : List Char}, IsName name → IsName (c :: name) := fun hname =>
    ⟨List.cons_ne_nil _ _, List.forall_mem_cons.mpr ⟨hc, hname.2⟩⟩
  cases h with
  | plain hlead hname hgap hmark hbrackets =>
      obtain rfl := hnil hlead hhead
      exact ⟨_, .plain spaces_nil (hlonger hname) hgap hmark hbrackets⟩
  | generic hlead hname hgap hne harguments hgap' hmark hbrackets =>
      obtain rfl := hnil hlead hhead
      exact ⟨_, .generic spaces_nil (hlonger hname) hgap hne harguments hgap' hmark hbrackets⟩

/-! ### The closing angle -/

theorem closeAngle_eq_none {depth : Nat} {text : List Char} (h : '>' ∉ text) :
    closeAngle depth text = none := by
  rw [Option.eq_none_iff_forall_ne_some]
  rintro ⟨inside, after⟩ hclose
  rw [eq_append_of_closeAngle hclose] at h
  simp at h

/-- A `>` that closes is also found from any place before it, at some depth. -/
theorem exists_closeAngle_of_append {depth : Nat} {front text : List Char}
    (h : closeAngle depth (front ++ text) = some (front ++ inside, after)) :
    ∃ depth', closeAngle depth' text = some (inside, after) := by
  induction front generalizing depth with
  | nil => exact ⟨depth, h⟩
  | cons c front ih =>
      rw [List.cons_append, closeAngle] at h
      split at h
      · simp at h
      · obtain ⟨⟨inside', after'⟩, hclose, heq⟩ := Option.map_eq_some_iff.mp h
        obtain ⟨rfl, rfl⟩ : inside' = front ++ inside ∧ after' = after := by simpa using heq
        exact ih hclose

/-- Within a generic part that its last `>` closes no other begins that runs to that `>`. -/
theorem not_anglesClose {front between : List Char} (hfront : '<' ∉ front)
    (hinside : Nested true inside) (hafter : '>' ∉ after) :
    ¬AnglesClose (front ++ '<' :: (between ++ '<' :: (inside ++ '>' :: after))) := by
  rintro ⟨front', whole, after', htext, hfront', hclose, hafter'⟩
  obtain ⟨rfl, hwhole⟩ := eq_of_first htext hfront hfront'
  have hlast : (between ++ '<' :: inside) ++ '>' :: after = whole ++ '>' :: after' := by
    simpa using hwhole
  obtain ⟨rfl, rfl⟩ := eq_of_last hlast hafter hafter'
  rw [← hwhole] at hclose
  obtain ⟨depth, hinner⟩ := exists_closeAngle_of_append hclose
  have hnone : closeAngle depth ('<' :: (inside ++ '>' :: after)) = none := by
    rw [closeAngle, if_neg (by simp), hinside.closeAngle_append, closeAngle,
      if_neg (by simp [angleDepth]), closeAngle_eq_none hafter]
    rfl
  simp [hnone] at hinner

end Generic

end TypeScribe.TypeExpr
