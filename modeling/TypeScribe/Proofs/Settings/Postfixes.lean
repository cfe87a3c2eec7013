import Mathlib.Data.List.Nodup
import TypeScribe.Name.Trimmer
import TypeScribe.Settings.Validation

/-!
# Postfixes that have an effect

An empty postfix never fits, and of equal postfixes only the first ever has its turn. Without the
others a list takes the same off every name, and what is left of it is a list that settings may have.
-/

namespace TypeScribe

/-- The postfixes that are not empty, and of equal ones the first. -/
def effectivePostfixes (postfixes : List String) : List String :=
  (postfixes.filter (· ≠ "")).eraseDups

def Config.effective (config : Config) : Config :=
  { config with trimPostfixes := effectivePostfixes config.trimPostfixes }

example : effectivePostfixes ["Dto", "", "Model", "Dto", ""] = ["Dto", "Model"] := by decide

/-! ### Searching a list without some of its elements -/

section Search

variable {α β : Type} {find : α → Option β} {list : List α}

theorem findSome?_filter {keep : α → Bool} (h : ∀ a ∈ list, keep a = false → find a = none) :
    (list.filter keep).findSome? find = list.findSome? find := by
  induction list with
  | nil => rfl
  | cons a list ih =>
      have hrest := ih fun b hb => h b (List.mem_cons_of_mem a hb)
      cases hkeep : keep a with
      | true => rw [List.filter_cons_of_pos hkeep, List.findSome?_cons, List.findSome?_cons, hrest]
      | false =>
          rw [List.filter_cons_of_neg (by simp [hkeep]), hrest, List.findSome?_cons,
            h a List.mem_cons_self hkeep]

variable [BEq α]

/-- Induction along the removal of duplicates: each element first loses its equals behind it. -/
theorem eraseDups_induction {motive : List α → Prop} (nil : motive [])
    (cons : ∀ a list, motive (list.filter fun b => !b == a) → motive (a :: list)) (list : List α) :
    motive list := by
  induction hlength : list.length using Nat.strongRecOn generalizing list with
  | ind length ih =>
      subst hlength
      cases list with
      | nil => exact nil
      | cons a list =>
          have hle := List.length_filter_le (fun b => !b == a) list
          exact cons a list (ih _ (Nat.lt_succ_of_le hle) _ rfl)

variable [LawfulBEq α]

theorem findSome?_eraseDups (find : α → Option β) (list : List α) :
    list.eraseDups.findSome? find = list.findSome? find := by
  induction list using eraseDups_induction with
  | nil => rfl
  | cons a list ih =>
      rw [List.eraseDups_cons, List.findSome?_cons, List.findSome?_cons, ih]
      cases hfind : find a with
      | some found => rfl
      | none =>
          apply findSome?_filter
          intro b _ hequal
          obtain rfl : b = a := by simpa using hequal
          exact hfind

omit find in
theorem nodup_eraseDups (list : List α) : list.eraseDups.Nodup := by
  induction list using eraseDups_induction with
  | nil => exact List.nodup_nil
  | cons a list ih =>
      rw [List.eraseDups_cons, List.nodup_cons]
      refine ⟨fun hmem => ?_, ih⟩
      simp [List.mem_eraseDups] at hmem

theorem eraseDups_eq_self (h : list.Nodup) : list.eraseDups = list := by
  induction list with
  | nil => rfl
  | cons a list ih =>
      obtain ⟨hnew, hrest⟩ := List.nodup_cons.mp h
      have hkept : (list.filter fun b => !b == a) = list := by
        rw [List.filter_eq_self]
        intro b hb
        simpa using fun hequal : b = a => hnew (hequal ▸ hb)
      rw [List.eraseDups_cons, hkept, ih hrest]

end Search

/-! ### What is taken off -/

section Strip

variable (postfixes : List String) (name : List Char)

theorem stripPostfix?_effectivePostfixes :
    stripPostfix? (effectivePostfixes postfixes) name = stripPostfix? postfixes name := by
  rw [effectivePostfixes, stripPostfix?, findSome?_eraseDups, stripPostfix?]
  apply findSome?_filter
  intro fix _ hempty
  obtain rfl : fix = "" := by simpa using hempty
  rfl

theorem stripPostfixes_effectivePostfixes :
    stripPostfixes (effectivePostfixes postfixes) name = stripPostfixes postfixes name := by
  induction name using stripPostfixes.induct postfixes with
  | case1 name rest hrest ih =>
      have hrest' := (stripPostfix?_effectivePostfixes postfixes name).trans hrest
      rw [stripPostfixes_of_some hrest, stripPostfixes_of_some hrest', ih]
  | case2 name hnone =>
      have hnone' := (stripPostfix?_effectivePostfixes postfixes name).trans hnone
      rw [stripPostfixes_of_none hnone, stripPostfixes_of_none hnone']

theorem trimChars_effective (config : Config) :
    config.effective.trimmer.trimChars name = config.trimmer.trimChars name := by
  have hpostfixes : config.effective.trimmer.postfixes =
      effectivePostfixes config.trimmer.postfixes := rfl
  have hrecursive : config.effective.trimmer.recursive = config.trimmer.recursive := rfl
  simp only [Trimmer.trimChars, hpostfixes, hrecursive, stripPostfix?_effectivePostfixes,
    stripPostfixes_effectivePostfixes]

end Strip

/-! ### Validation -/

section Effective

variable {postfixes : List String}

theorem ne_empty_of_mem_effectivePostfixes {fix : String} (h : fix ∈ effectivePostfixes postfixes) :
    fix ≠ "" := by
  rw [effectivePostfixes, List.mem_eraseDups, List.mem_filter] at h
  simpa using h.2

theorem nodup_effectivePostfixes (postfixes : List String) : (effectivePostfixes postfixes).Nodup :=
  nodup_eraseDups _

theorem effectivePostfixes_eq_self_iff : effectivePostfixes postfixes = postfixes ↔
    (∀ fix ∈ postfixes, fix ≠ "") ∧ postfixes.Nodup := by
  constructor
  · intro h
    rw [← h]
    exact ⟨fun _ => ne_empty_of_mem_effectivePostfixes, nodup_effectivePostfixes _⟩
  · rintro ⟨hne, hnodup⟩
    have hfilter : postfixes.filter (· ≠ "") = postfixes :=
      List.filter_eq_self.mpr fun fix hfix => by simpa using hne fix hfix
    rw [effectivePostfixes, hfilter, eraseDups_eq_self hnodup]

theorem Config.effective_eq_self_iff {config : Config} : config.effective = config ↔
    effectivePostfixes config.trimPostfixes = config.trimPostfixes := by
  constructor
  · exact congrArg Config.trimPostfixes
  · intro h
    rw [Config.effective, h]

theorem Config.effective_effective (config : Config) :
    config.effective.effective = config.effective := by
  rw [effective_eq_self_iff, effectivePostfixes_eq_self_iff]
  exact ⟨fun _ => ne_empty_of_mem_effectivePostfixes, nodup_effectivePostfixes _⟩

end Effective

namespace Settings

theorem firstFault?_eq_none_iff {seen values : List String} : firstFault? seen values = none ↔
    (∀ value ∈ values, value ≠ "" ∧ value ∉ seen) ∧ values.Nodup := by
  induction values generalizing seen with
  | nil => simp [firstFault?]
  | cons value values ih =>
      rw [firstFault?, List.nodup_cons, List.forall_mem_cons]
      by_cases hempty : value = ""
      · simp [hempty]
      · by_cases hseen : value ∈ seen
        · simp [hempty, hseen]
        · rw [if_neg hempty, if_neg hseen, ih]
          simp only [List.mem_cons, not_or]
          grind

/-- Validation accepts the settings in which each postfix has an effect. -/
theorem validate_eq_ok_iff {source : Source} {config : Config} :
    validate source config = .ok config ↔ config.effective = config := by
  have hfault : validate source config = .ok config ↔
      firstFault? [] config.trimPostfixes = none := by
    rw [validate]
    cases firstFault? [] config.trimPostfixes <;> simp
  rw [hfault, firstFault?_eq_none_iff, Config.effective_eq_self_iff, effectivePostfixes_eq_self_iff]
  simp

end Settings

end TypeScribe
