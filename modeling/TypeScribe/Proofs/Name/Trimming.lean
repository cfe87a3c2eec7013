import TypeScribe.Name.Trimmer
import TypeScribe.Proofs.Text.Trimmed

/-!
# What trimming takes off a name

Trimming rewrites a name from its end: the first postfix of the list that fits goes, and in recursive
mode this is repeated until none fits. The white space around the name goes once, before that, so a
trimmed name can end with white space, and exactly then it is trimmed further when it is trimmed
again.
-/

namespace TypeScribe

open Text

/-- Of the postfixes that are not empty, `fix` is the first of the list that the text ends with. -/
def FirstFit (postfixes : List String) (text : List Char) (fix : String) : Prop :=
  ∃ earlier later, postfixes = earlier ++ fix :: later ∧ fix ≠ "" ∧ fix.toList <:+ text ∧
    ∀ other ∈ earlier, other ≠ "" → ¬other.toList <:+ text

def NoneFits (postfixes : List String) (text : List Char) : Prop :=
  ∀ fix ∈ postfixes, fix ≠ "" → ¬fix.toList <:+ text

/-- The postfixes as they stand in the name from which they were taken one by one. -/
def joined (taken : List String) : List Char := taken.reverse.flatMap String.toList

/-- Each of the postfixes was the first that fitted when its turn came to be taken. -/
def TakenInTurn (postfixes : List String) (result : List Char) (taken : List String) : Prop :=
  ∀ gone fix left, taken = gone ++ fix :: left →
    FirstFit postfixes (result ++ joined (fix :: left)) fix

/-- Without the white space around it, the name is `result` with the postfixes `taken` behind it. -/
structure TrimmedTo (config : Config) (name core : List Char) (taken : List String)
    (result : List Char) : Prop where
  trimsTo_core : TrimsTo name core
  core_eq : core = result ++ joined taken
  takenInTurn : TakenInTurn config.trimPostfixes result taken
  exhausted : config.recursiveTrimPostfixes = true → NoneFits config.trimPostfixes result
  at_most_one : config.recursiveTrimPostfixes = false → taken.length ≤ 1
  one_if_any : config.recursiveTrimPostfixes = false → taken = [] →
    NoneFits config.trimPostfixes core

/-! ### One postfix -/

section Postfix

variable {postfixes : List String} {text rest : List Char} {fix : String}

theorem withoutPostfix?_eq_none_iff :
    withoutPostfix? text fix = none ↔ (fix ≠ "" → ¬fix.toList <:+ text) := by
  rw [Option.eq_none_iff_forall_ne_some]
  constructor
  · rintro h hne ⟨rest, hrest⟩
    exact h rest (withoutPostfix?_eq_some_iff.mpr ⟨hne, hrest.symm⟩)
  · intro h rest hrest
    obtain ⟨hne, rfl⟩ := withoutPostfix?_eq_some_iff.mp hrest
    exact h hne (List.suffix_append rest _)

theorem stripPostfix?_eq_none_iff :
    stripPostfix? postfixes text = none ↔ NoneFits postfixes text := by
  rw [stripPostfix?, List.findSome?_eq_none_iff]
  exact forall₂_congr fun _ _ => withoutPostfix?_eq_none_iff

theorem stripPostfix?_eq_some_iff : stripPostfix? postfixes text = some rest ↔
    ∃ fix, FirstFit postfixes text fix ∧ text = rest ++ fix.toList := by
  rw [stripPostfix?, List.findSome?_eq_some_iff]
  constructor
  · rintro ⟨earlier, fix, later, rfl, hfix, hearlier⟩
    obtain ⟨hne, rfl⟩ := withoutPostfix?_eq_some_iff.mp hfix
    refine ⟨fix, ⟨earlier, later, rfl, hne, List.suffix_append rest _, ?_⟩, rfl⟩
    intro other hother
    exact withoutPostfix?_eq_none_iff.mp (hearlier other hother)
  · rintro ⟨fix, ⟨earlier, later, rfl, hne, -, hearlier⟩, rfl⟩
    refine ⟨earlier, fix, later, rfl, withoutPostfix?_eq_some_iff.mpr ⟨hne, rfl⟩, ?_⟩
    intro other hother
    exact withoutPostfix?_eq_none_iff.mpr (hearlier other hother)

theorem stripPostfix?_append (h : FirstFit postfixes (rest ++ fix.toList) fix) :
    stripPostfix? postfixes (rest ++ fix.toList) = some rest :=
  stripPostfix?_eq_some_iff.mpr ⟨fix, h, rfl⟩

end Postfix

/-! ### All postfixes -/

section Postfixes

variable {postfixes taken : List String} {text result : List Char}

theorem joined_cons (fix : String) (taken : List String) :
    joined (fix :: taken) = joined taken ++ fix.toList := by
  simp [joined]

theorem append_joined_nil (result : List Char) : result ++ joined [] = result := by
  simp [joined]

theorem joined_singleton (fix : String) : joined [fix] = fix.toList := by
  simp [joined]

theorem takenInTurn_nil : TakenInTurn postfixes result [] := by
  intro gone fix left h
  simp at h

theorem takenInTurn_cons_iff {fix : String} : TakenInTurn postfixes result (fix :: taken) ↔
    FirstFit postfixes (result ++ joined (fix :: taken)) fix ∧
      TakenInTurn postfixes result taken := by
  constructor
  · intro h
    refine ⟨h [] fix taken rfl, fun gone other left hleft => ?_⟩
    exact h (fix :: gone) other left (by rw [hleft, List.cons_append])
  · rintro ⟨hfirst, hrest⟩ gone other left hleft
    cases gone with
    | nil =>
        obtain ⟨rfl, rfl⟩ := List.cons.inj hleft
        exact hfirst
    | cons _ gone => exact hrest gone other left (List.cons.inj hleft).2

/-- Postfixes that are taken off until none fits are the ones that fit in turn. -/
theorem stripPostfixes_eq_iff : stripPostfixes postfixes text = result ↔
    NoneFits postfixes result ∧
      ∃ taken, text = result ++ joined taken ∧ TakenInTurn postfixes result taken := by
  constructor
  · rintro rfl
    induction text using stripPostfixes.induct postfixes with
    | case1 text rest hrest ih =>
        obtain ⟨fix, hfirst, htext⟩ := stripPostfix?_eq_some_iff.mp hrest
        obtain ⟨hnone, taken, hjoined, hturns⟩ := ih
        rw [stripPostfixes_of_some hrest]
        have htext' : text = stripPostfixes postfixes rest ++ joined (fix :: taken) := by
          rw [joined_cons, ← List.append_assoc, ← hjoined, htext]
        exact ⟨hnone, fix :: taken, htext', takenInTurn_cons_iff.mpr ⟨htext' ▸ hfirst, hturns⟩⟩
    | case2 text hnone =>
        rw [stripPostfixes_of_none hnone]
        have hfits := stripPostfix?_eq_none_iff.mp hnone
        exact ⟨hfits, [], (append_joined_nil text).symm, takenInTurn_nil⟩
  · rintro ⟨hnone, taken, rfl, hturns⟩
    induction taken with
    | nil =>
        rw [append_joined_nil, stripPostfixes_of_none (stripPostfix?_eq_none_iff.mpr hnone)]
    | cons fix taken ih =>
        obtain ⟨hfirst, hrest⟩ := takenInTurn_cons_iff.mp hturns
        rw [joined_cons, ← List.append_assoc] at hfirst ⊢
        rw [stripPostfixes_of_some (stripPostfix?_append hfirst)]
        exact ih hrest

/-- At most one postfix is taken off. -/
theorem getD_stripPostfix?_eq_iff : (stripPostfix? postfixes text).getD text = result ↔
    ∃ taken, text = result ++ joined taken ∧ TakenInTurn postfixes result taken ∧
      taken.length ≤ 1 ∧ (taken = [] → NoneFits postfixes text) := by
  constructor
  · rintro rfl
    cases hrest : stripPostfix? postfixes text with
    | none =>
        refine ⟨[], (append_joined_nil text).symm, takenInTurn_nil, Nat.zero_le 1, fun _ => ?_⟩
        exact stripPostfix?_eq_none_iff.mp hrest
    | some rest =>
        obtain ⟨fix, hfirst, htext⟩ := stripPostfix?_eq_some_iff.mp hrest
        have htext' : text = rest ++ joined [fix] := by rw [joined_singleton, htext]
        refine ⟨[fix], htext', takenInTurn_cons_iff.mpr ⟨htext' ▸ hfirst, takenInTurn_nil⟩,
          le_rfl, fun h => ?_⟩
        simp at h
  · rintro ⟨taken, rfl, hturns, hlength, hnone⟩
    rcases taken with _ | ⟨fix, _ | ⟨other, taken⟩⟩
    · rw [stripPostfix?_eq_none_iff.mpr (hnone rfl), Option.getD_none, append_joined_nil]
    · have hfirst := (takenInTurn_cons_iff.mp hturns).1
      rw [joined_singleton] at hfirst ⊢
      rw [stripPostfix?_append hfirst, Option.getD_some]
    · simp at hlength

end Postfixes

/-! ### Names -/

namespace Trimmer

variable {trimmer : Trimmer}

theorem trimChars_of_recursive (h : trimmer.recursive = true) (name : List Char) :
    trimmer.trimChars name = stripPostfixes trimmer.postfixes (trimSpaces name) := by
  simp [trimChars, h]

theorem trimChars_of_not_recursive (h : trimmer.recursive = false) (name : List Char) :
    trimmer.trimChars name =
      (stripPostfix? trimmer.postfixes (trimSpaces name)).getD (trimSpaces name) := by
  simp [trimChars, h]

theorem isPrefix_trimChars (trimmer : Trimmer) (name : List Char) :
    trimmer.trimChars name <+: trimSpaces name := by
  cases h : trimmer.recursive with
  | true =>
      obtain ⟨_, taken, hcore, _⟩ := stripPostfixes_eq_iff.mp (trimChars_of_recursive h name).symm
      exact ⟨joined taken, hcore.symm⟩
  | false =>
      have htrim := trimChars_of_not_recursive h name
      obtain ⟨taken, hcore, _⟩ := getD_stripPostfix?_eq_iff.mp htrim.symm
      exact ⟨joined taken, hcore.symm⟩

theorem isInfix_trimChars (trimmer : Trimmer) (name : List Char) : trimmer.trimChars name <:+: name :=
  (trimmer.isPrefix_trimChars name).isInfix.trans (isInfix_trimSpaces name)

theorem head?_trimChars (trimmer : Trimmer) (name : List Char) :
    (trimmer.trimChars name).head?.any isSpace = false :=
  head?_any_of_isPrefix (trimmer.isPrefix_trimChars name) (trimsTo_trimSpaces name).head_visible

theorem noneFits_trimChars (h : trimmer.recursive = true) (name : List Char) :
    NoneFits trimmer.postfixes (trimmer.trimChars name) :=
  (stripPostfixes_eq_iff.mp (trimChars_of_recursive h name).symm).1

/-- Trimming again takes off the white space that the first time has brought to the end. -/
theorem trimChars_trimChars_eq_iff (h : trimmer.recursive = true) (name : List Char) :
    trimmer.trimChars (trimmer.trimChars name) = trimmer.trimChars name ↔
      (trimmer.trimChars name).getLast?.any isSpace = false := by
  have hnone := noneFits_trimChars h name
  have hhead := trimmer.head?_trimChars name
  generalize trimmer.trimChars name = result at hnone hhead ⊢
  rw [← trimSpaces_eq_self_iff hhead]
  constructor
  · intro hagain
    have hbegins := trimmer.isPrefix_trimChars result
    rw [hagain] at hbegins
    have hwithin := isInfix_trimSpaces result
    exact hwithin.eq_of_length (Nat.le_antisymm hwithin.length_le hbegins.length_le)
  · intro hself
    rw [trimChars_of_recursive h, hself,
      stripPostfixes_of_none (stripPostfix?_eq_none_iff.mpr hnone)]

theorem toList_trim (trimmer : Trimmer) (name : String) :
    (trimmer.trim name).toList = trimmer.trimChars name.toList := by
  rw [trim, String.toList_ofList]

end Trimmer

section Config

variable {config : Config} {name core result : List Char} {taken : List String}

theorem TrimmedTo.eq_trimChars (h : TrimmedTo config name core taken result) :
    result = config.trimmer.trimChars name := by
  obtain rfl := h.trimsTo_core.eq_trimSpaces
  symm
  cases hrecursive : config.recursiveTrimPostfixes with
  | true =>
      rw [Trimmer.trimChars_of_recursive hrecursive, stripPostfixes_eq_iff]
      exact ⟨h.exhausted hrecursive, taken, h.core_eq, h.takenInTurn⟩
  | false =>
      rw [Trimmer.trimChars_of_not_recursive hrecursive, getD_stripPostfix?_eq_iff]
      exact ⟨taken, h.core_eq, h.takenInTurn, h.at_most_one hrecursive, h.one_if_any hrecursive⟩

theorem exists_trimmedTo_trimChars (config : Config) (name : List Char) :
    ∃ core taken, TrimmedTo config name core taken (config.trimmer.trimChars name) := by
  have hcore := trimsTo_trimSpaces name
  cases hrecursive : config.recursiveTrimPostfixes with
  | true =>
      have htrim := @Trimmer.trimChars_of_recursive config.trimmer hrecursive name
      obtain ⟨hnone, taken, htext, hturns⟩ := stripPostfixes_eq_iff.mp htrim.symm
      exact ⟨_, taken, hcore, htext, hturns, fun _ => hnone, by simp [hrecursive],
        by simp [hrecursive]⟩
  | false =>
      have htrim := @Trimmer.trimChars_of_not_recursive config.trimmer hrecursive name
      obtain ⟨taken, htext, hturns, hone, hany⟩ := getD_stripPostfix?_eq_iff.mp htrim.symm
      exact ⟨_, taken, hcore, htext, hturns, by simp [hrecursive], fun _ => hone, fun _ => hany⟩

end Config

/-- **A trimmed name is the leftmost-priority rewriting of the name from its end**, and it is what the
name without the white space around it begins with. -/
theorem eq_trim_iff (config : Config) (name result : String) :
    (result = config.trimmer.trim name ↔
      ∃ core taken, TrimmedTo config name.toList core taken result.toList) ∧
      (config.trimmer.trim name).toList <+: trimSpaces name.toList := by
  rw [← String.toList_inj, config.trimmer.toList_trim]
  refine ⟨⟨fun h => h ▸ exists_trimmedTo_trimChars config name.toList, ?_⟩,
    config.trimmer.isPrefix_trimChars name.toList⟩
  rintro ⟨core, taken, h⟩
  exact h.eq_trimChars

/-- Of two postfixes that fit, the first of the list is taken, and what it brings to the end is looked
at from the first of the list again. -/
example : (⟨["Dto", "oDto", "F"], true⟩ : Trimmer).trim " FoFDto\t" = "Fo" := by decide +kernel

/-- **Trimming a trimmed name changes nothing just if the trimmed name ends visibly**, as it does if
there is no white space within the name. -/
theorem trim_trim_eq_iff {config : Config} (hrecursive : config.recursiveTrimPostfixes = true)
    (name : String) :
    let result := config.trimmer.trim name
    (config.trimmer.trim result = result ↔ result.toList.getLast?.any isSpace = false) ∧
      ((∀ c ∈ trimSpaces name.toList, isSpace c = false) → config.trimmer.trim result = result) := by
  intro result
  have hiff : config.trimmer.trim result = result ↔
      result.toList.getLast?.any isSpace = false := by
    rw [← String.toList_inj]
    simp only [result, Trimmer.toList_trim]
    exact Trimmer.trimChars_trimChars_eq_iff hrecursive name.toList
  refine ⟨hiff, fun hvisible => hiff.mpr ?_⟩
  have hbegins : result.toList <+: trimSpaces name.toList := by
    rw [config.trimmer.toList_trim]
    exact config.trimmer.isPrefix_trimChars name.toList
  have hself : trimSpaces result.toList = result.toList :=
    trimSpaces_eq_self_of_visible fun c hc => hvisible c (hbegins.subset hc)
  rw [← hself]
  exact (trimsTo_trimSpaces result.toList).last_visible

theorem trim_trim_of_blank_before_postfix :
    let config : Config := ⟨false, ["", "Dto", "Model", "Dto"], true⟩
    let trim := config.trimmer.trim
    config.recursiveTrimPostfixes = true ∧
      trim (trim "\tDto ModelDto") ≠ trim "\tDto ModelDto" ∧
        trim (trim "\tADtoModelDto ") = trim "\tADtoModelDto " := by
  intro config trim
  have hrecursive : config.recursiveTrimPostfixes = true := rfl
  have hvisible : ∀ c ∈ trimSpaces "\tADtoModelDto ".toList, isSpace c = false :=
    List.forall_iff_forall_mem.mp (by decide +kernel)
  refine ⟨hrecursive, fun hagain => ?_, (trim_trim_eq_iff hrecursive "\tADtoModelDto ").2 hvisible⟩
  have hlast := (trim_trim_eq_iff hrecursive "\tDto ModelDto").1.mp hagain
  exact absurd hlast (by decide +kernel)

/-- The blank before a postfix becomes the end of the name when the postfix goes. -/
theorem exists_trim_trim_ne :
    ¬∀ config : Config, config.recursiveTrimPostfixes = true → ∀ name : String,
      config.trimmer.trim (config.trimmer.trim name) = config.trimmer.trim name := by
  intro h
  have hagain := h ⟨false, ["Dto"], true⟩ rfl "Foo Dto"
  exact absurd hagain (by decide +kernel)

end TypeScribe
