import Mathlib.Order.Bounds.Basic
import TypeScribe.Proofs.Settings.File
import TypeScribe.Proofs.Settings.Occurrences
import TypeScribe.Proofs.Settings.Postfixes

/-!
# The first postfix without sense

Validation goes through the postfixes and stops at the first that is empty or stands in the list
before. It is reported with the quoted occurrence of its text that has as many others before it as
the list has equals of it there.
-/

namespace TypeScribe.Settings

open Text

/-- The postfix at `index` is empty, or it stands in the list before. -/
def Offends (postfixes : List String) (index : Nat) : Prop :=
  ∃ fix, postfixes[index]? = some fix ∧ (fix = "" ∨ fix ∈ postfixes.take index)

instance (postfixes : List String) (index : Nat) : Decidable (Offends postfixes index) :=
  inferInstanceAs (Decidable (∃ fix ∈ postfixes[index]?, fix = "" ∨ fix ∈ postfixes.take index))

/-- What is wrong with a postfix that offends. -/
def PostfixFault.ofPostfix (fix : String) : PostfixFault :=
  if fix = "" then .empty else .duplicate fix

/-- Of the postfixes that offend `fix`, at `index`, is the first. -/
structure FirstOffence (postfixes : List String) (index : Nat) (fix : String) : Prop where
  isLeast : IsLeast {index | Offends postfixes index} index
  getElem?_eq : postfixes[index]? = some fix

section Offence

variable {postfixes done rest : List String} {index : Nat} {fix : String}

theorem FirstOffence.unique {index' : Nat} {fix' : String} (h : FirstOffence postfixes index fix)
    (h' : FirstOffence postfixes index' fix') : index = index' ∧ fix = fix' := by
  obtain rfl := h.isLeast.unique h'.isLeast
  exact ⟨rfl, Option.some.inj (h.getElem?_eq.symm.trans h'.getElem?_eq)⟩

theorem firstOffence_iff : FirstOffence postfixes index fix ↔
    postfixes[index]? = some fix ∧ (fix = "" ∨ fix ∈ postfixes.take index) ∧
      ∀ earlier < index, ¬Offends postfixes earlier := by
  constructor
  · intro h
    obtain ⟨other, hget, hother⟩ := h.isLeast.1
    obtain rfl := Option.some.inj (h.getElem?_eq.symm.trans hget)
    exact ⟨hget, hother, fun earlier hlt hoffends => Nat.not_le.mpr hlt (h.isLeast.2 hoffends)⟩
  · rintro ⟨hget, hfix, hearlier⟩
    refine ⟨⟨⟨fix, hget, hfix⟩, fun earlier hoffends => ?_⟩, hget⟩
    by_contra hlt
    exact hearlier earlier (Nat.not_le.mp hlt) hoffends

theorem FirstOffence.mem (h : FirstOffence postfixes index fix) : fix ∈ postfixes :=
  List.mem_of_getElem? h.getElem?_eq

theorem FirstOffence.empty_not_mem_take (h : FirstOffence postfixes index fix) :
    "" ∉ postfixes.take index := by
  obtain ⟨-, -, hearlier⟩ := firstOffence_iff.mp h
  intro hmem
  obtain ⟨earlier, hget⟩ := List.mem_iff_getElem?.mp hmem
  rw [List.getElem?_take] at hget
  split at hget
  · next hlt => exact hearlier earlier hlt ⟨"", hget, .inl rfl⟩
  · exact absurd hget (by simp)

theorem FirstOffence.nodup_take (h : FirstOffence postfixes index fix) :
    (postfixes.take index).Nodup := by
  obtain ⟨-, -, hearlier⟩ := firstOffence_iff.mp h
  rw [List.nodup_iff_getElem?_ne_getElem?]
  intro first second hlt hlength heq
  rw [List.length_take] at hlength
  rw [List.getElem?_take_of_lt (by omega), List.getElem?_take_of_lt (by omega)] at heq
  have hget := List.getElem?_eq_getElem (show second < postfixes.length by omega)
  refine hearlier second (by omega) ⟨_, hget, .inr ?_⟩
  rw [List.mem_iff_getElem?]
  exact ⟨first, by rw [List.getElem?_take_of_lt hlt, heq, hget]⟩

/-- How many quoted occurrences are passed over to find the one that a fault is about. -/
def occurrencesPassed (fix : String) : Nat := if fix = "" then 0 else 1

theorem FirstOffence.count_take (h : FirstOffence postfixes index fix) :
    (postfixes.take index).count fix = occurrencesPassed fix := by
  obtain ⟨-, hfix, -⟩ := firstOffence_iff.mp h
  rw [occurrencesPassed]
  by_cases hempty : fix = ""
  · subst hempty
    rw [if_pos rfl, List.count_eq_zero]
    exact h.empty_not_mem_take
  · rw [if_neg hempty]
    exact List.count_eq_one_of_mem h.nodup_take (hfix.resolve_left hempty)

theorem FirstOffence.exists_take_eq_cons_cons (h : FirstOffence postfixes index fix)
    (hempty : fix ≠ "") (hindex : index ≠ 1) :
    ∃ first second rest, postfixes.take index = first :: second :: rest := by
  obtain ⟨hget, hfix, -⟩ := firstOffence_iff.mp h
  have hmem := hfix.resolve_left hempty
  obtain ⟨hlt, -⟩ := List.getElem?_eq_some_iff.mp hget
  have hlength := List.length_take_of_le hlt.le
  rcases htake : postfixes.take index with _ | ⟨first, _ | ⟨second, rest⟩⟩
  · rw [htake] at hmem
    exact absurd hmem List.not_mem_nil
  · rw [htake] at hlength
    exact absurd hlength.symm hindex
  · exact ⟨first, second, rest, rfl⟩

/-- Behind postfixes none of which offends, a postfix offends if it is empty or among them. -/
theorem firstOffence_append (hdone : ∀ earlier < done.length, ¬Offends (done ++ fix :: rest) earlier)
    (hfix : fix = "" ∨ fix ∈ done) : FirstOffence (done ++ fix :: rest) done.length fix := by
  refine firstOffence_iff.mpr ⟨by simp, ?_, hdone⟩
  rwa [List.take_left]

theorem not_offends_append (hempty : fix ≠ "") (hmem : fix ∉ done) :
    ¬Offends (done ++ fix :: rest) done.length := by
  rintro ⟨other, hget, hother⟩
  obtain rfl : fix = other := by simpa using hget
  rw [List.take_left] at hother
  exact hother.elim hempty hmem

/-- The induction is on what is still to be looked at; the postfixes seen are those before it. -/
theorem firstFault?_append (hdone : ∀ earlier < done.length, ¬Offends (done ++ rest) earlier) :
    match firstFault? done.reverse rest with
    | none => ∀ index, ¬Offends (done ++ rest) index
    | some fault => ∃ index fix,
        FirstOffence (done ++ rest) index fix ∧ fault = PostfixFault.ofPostfix fix := by
  induction rest generalizing done with
  | nil =>
      rintro index ⟨fix, hget, hfix⟩
      rw [List.append_nil] at hdone hget hfix
      obtain ⟨hlt, -⟩ := List.getElem?_eq_some_iff.mp hget
      exact hdone index hlt ⟨fix, hget, hfix⟩
  | cons fix rest ih =>
      rw [firstFault?]
      by_cases hempty : fix = ""
      · rw [if_pos hempty]
        exact ⟨_, fix, firstOffence_append hdone (.inl hempty), (if_pos hempty).symm⟩
      · rw [if_neg hempty]
        by_cases hmem : fix ∈ done
        · rw [if_pos (List.mem_reverse.mpr hmem)]
          exact ⟨_, fix, firstOffence_append hdone (.inr hmem), (if_neg hempty).symm⟩
        · rw [if_neg (List.mem_reverse.not.mpr hmem)]
          have hlater : ∀ earlier < (done ++ [fix]).length,
              ¬Offends (done ++ [fix] ++ rest) earlier := by
            intro earlier hlt
            rw [List.append_assoc, List.singleton_append]
            rcases (Nat.lt_succ_iff_lt_or_eq.mp (by simpa using hlt)) with hlt | rfl
            · exact hdone earlier hlt
            · exact not_offends_append hempty hmem
          have hrest := ih hlater
          rwa [List.reverse_append, List.append_assoc, List.singleton_append] at hrest

theorem firstFault?_eq_some_iff {fault : PostfixFault} :
    firstFault? [] postfixes = some fault ↔
      ∃ index fix, FirstOffence postfixes index fix ∧ fault = PostfixFault.ofPostfix fix := by
  have hsearch := @firstFault?_append [] postfixes (by simp)
  rw [List.reverse_nil, List.nil_append] at hsearch
  cases hfault : firstFault? [] postfixes with
  | none =>
      rw [hfault] at hsearch
      simp only [reduceCtorEq, false_iff]
      rintro ⟨index, fix, hfirst, -⟩
      exact hsearch index hfirst.isLeast.1
  | some found =>
      rw [hfault] at hsearch
      obtain ⟨index, fix, hfirst, rfl⟩ := hsearch
      rw [Option.some.injEq]
      constructor
      · rintro rfl
        exact ⟨index, fix, hfirst, rfl⟩
      · rintro ⟨index', fix', hfirst', rfl⟩
        rw [(hfirst.unique hfirst').2]

end Offence

/-! ### The report -/

/-- The label on a quoted occurrence of `value`, the one before which `earlier` others begin. There is
no label if there are no more than these; `double` and `single` are all that there are. -/
structure Labels (content value : String) (earlier : Nat) (span? : Option Span)
    (double single : List Nat) : Prop where
  double_found : FoundFromLeft (quoted '"' value) content.toList double
  single_found : FoundFromLeft (quoted '\'' value) content.toList single
  holds : ∀ span ∈ span?, ∃ quote ∈ ['"', '\''], span.Holds content.toList (quoted quote value)
  earlier_eq : ∀ span ∈ span?,
    double.countP (· < span.offset) + single.countP (· < span.offset) = earlier
  none_iff : span? = none ↔ double.length + single.length ≤ earlier

section Report

variable {source : Source} {config : Config}

theorem holds_quoted_of_mem {content value : String} {quote : Char} {span : Span}
    (hquote : quote.utf8Size = 1) (hlength : span.length = byteLength value.toList + 2)
    (h : span.offset ∈ quotedOffsets content value quote) :
    span.Holds content.toList (quoted quote value) := by
  have hholds := (foundFromLeft_quotedOffsets content value quote).holds span.offset h
  rwa [byteLength_quoted hquote, ← hlength] at hholds

theorem labels_quotedSpans (content value : String) (earlier : Nat) :
    Labels content value earlier (quotedSpans content value)[earlier]?
      (quotedOffsets content value '"') (quotedOffsets content value '\'') where
  double_found := foundFromLeft_quotedOffsets content value '"'
  single_found := foundFromLeft_quotedOffsets content value '\''
  holds := by
    intro span hspan
    obtain ⟨hlength, hmem | hmem, -⟩ := getElem?_quotedSpans_eq_some_iff.mp hspan
    · exact ⟨'"', by simp, holds_quoted_of_mem rfl hlength hmem⟩
    · exact ⟨'\'', by simp, holds_quoted_of_mem rfl hlength hmem⟩
  earlier_eq := fun span hspan => (getElem?_quotedSpans_eq_some_iff.mp hspan).2.2
  none_iff := getElem?_quotedSpans_eq_none_iff

theorem span?_ofPostfix (content fix : String) :
    (PostfixFault.ofPostfix fix).span? content =
      (quotedSpans content fix)[occurrencesPassed fix]? := by
  by_cases hempty : fix = ""
  · subst hempty
    rfl
  · rw [PostfixFault.ofPostfix, occurrencesPassed, if_neg hempty, if_neg hempty]
    rfl

theorem message_ofPostfix (fix : String) : (PostfixFault.ofPostfix fix).message =
    if fix = "" then "trim postfixes cannot be empty strings"
    else "duplicate trim postfix '" ++ fix ++ "'" := by
  by_cases hempty : fix = ""
  · rw [PostfixFault.ofPostfix, if_pos hempty, if_pos hempty]
    rfl
  · rw [PostfixFault.ofPostfix, if_neg hempty, if_neg hempty]
    rfl

theorem validate_of_firstOffence {index : Nat} {fix : String}
    (h : FirstOffence config.trimPostfixes index fix) : validate source config =
      .error (.invalid source (PostfixFault.ofPostfix fix).message
        (quotedSpans source.content fix)[occurrencesPassed fix]?) := by
  rw [validate, firstFault?_eq_some_iff.mpr ⟨index, fix, h, rfl⟩, ← span?_ofPostfix]

theorem exists_firstOffence (h : config.effective ≠ config) :
    ∃ index fix, FirstOffence config.trimPostfixes index fix := by
  cases hfault : firstFault? [] config.trimPostfixes with
  | none =>
      have hok : validate ⟨"", ""⟩ config = .ok config := by rw [validate, hfault]
      exact absurd (validate_eq_ok_iff.mp hok) h
  | some fault =>
      obtain ⟨index, fix, hfirst, -⟩ := firstFault?_eq_some_iff.mp hfault
      exact ⟨index, fix, hfirst⟩

/-- **Settings that can be read are accepted just if each postfix makes sense**, and else the first that
makes none is reported, at the quoted occurrence of its text that has one other before it if it is
repeated and none if it is empty. -/
theorem parse_eq_ok_iff_or_firstOffence
    (hread : (Toml.parse? source.content).bind Config.ofTable? = some config) :
    (Config.parse source = .ok config ↔
      (∀ fix ∈ config.trimPostfixes, fix ≠ "") ∧ config.trimPostfixes.Nodup) ∧
    (¬((∀ fix ∈ config.trimPostfixes, fix ≠ "") ∧ config.trimPostfixes.Nodup) →
      ∃ index fix span? double single,
        FirstOffence config.trimPostfixes index fix ∧
        Config.parse source = .error (.invalid source
          (if fix = "" then "trim postfixes cannot be empty strings"
            else "duplicate trim postfix '" ++ fix ++ "'") span?) ∧
        Labels source.content fix (if fix = "" then 0 else 1) span? double single) := by
  have heffective : config.effective = config ↔
      (∀ fix ∈ config.trimPostfixes, fix ≠ "") ∧ config.trimPostfixes.Nodup := by
    rw [Config.effective_eq_self_iff, effectivePostfixes_eq_self_iff]
  rw [Config.parse_eq_validate hread, validate_eq_ok_iff, ← heffective]
  refine ⟨Iff.rfl, fun hne => ?_⟩
  obtain ⟨index, fix, hfirst⟩ := exists_firstOffence hne
  refine ⟨index, fix, _, _, _, hfirst, ?_, labels_quotedSpans source.content fix _⟩
  rw [validate_of_firstOffence hfirst, message_ofPostfix]
  rfl

/-- The comment holds the first quoted occurrence of the repeated postfix. -/
theorem parse_eq_ok_iff_or_firstOffence_repeated :
    let source : Source := ⟨"# \"é\"\ntrimPostfixes = ['Dto', \"é\", 'é', \"\"]", "cs2ts.toml"⟩
    let config : Config := ⟨false, ["Dto", "é", "é", ""], false⟩
    (Toml.parse? source.content).bind Config.ofTable? = some config ∧
      ∃ index fix span? double single, FirstOffence config.trimPostfixes index fix ∧
        Config.parse source = .error (.invalid source
          (if fix = "" then "trim postfixes cannot be empty strings"
            else "duplicate trim postfix '" ++ fix ++ "'") span?) ∧
        Labels source.content fix (if fix = "" then 0 else 1) span? double single := by
  intro source config
  have hread : (Toml.parse? source.content).bind Config.ofTable? = some config := by
    decide +kernel
  refine ⟨hread, (parse_eq_ok_iff_or_firstOffence hread).2 fun hsense => ?_⟩
  exact absurd hsense.2 (by decide)

end Report

end TypeScribe.Settings
