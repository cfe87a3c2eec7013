import Mathlib.Data.List.Nodup
import TypeScribe.Proofs.Conversion.Edit
import TypeScribe.Proofs.Scan.Opening

/-!
# The order of the recognizers

Which match is applied next depends on the order of the recognizers only where two of them report the
same start. Of the built-in recognizers only those of properties and of headers ever do, since all
others open differently. So every order in which properties go before headers makes the same
conversions.
-/

namespace TypeScribe

open Scan

section Choice

variable {config : Config} {window : Window} {recognizers recognizers' before after : List Recognizer}
  {recognizer : Recognizer} {found : Match}

variable (config window) in
/-- What the two recognizers report at the window starts at the same place. -/
def Tie (first second : Recognizer) : Prop :=
  ∃ found found', applicable? config window first = some found ∧
    applicable? config window second = some found' ∧ found.start = found'.start

variable (config window) in
/-- The match goes first in a list that is cut at its recognizer: what is reported before it in the
list starts later, and what is reported behind it no earlier. -/
structure GoesFirst (before : List Recognizer) (recognizer : Recognizer) (after : List Recognizer)
    (found : Match) : Prop where
  applicable : applicable? config window recognizer = some found
  lt : ∀ other ∈ before, ∀ found', applicable? config window other = some found' →
    found.start < found'.start
  le : ∀ other ∈ after, ∀ found', applicable? config window other = some found' →
    found.start ≤ found'.start

theorem nextMatch?_eq_none_iff : nextMatch? config window recognizers = none ↔
    ∀ recognizer ∈ recognizers, applicable? config window recognizer = none := by
  induction recognizers with
  | nil => simp [nextMatch?]
  | cons recognizer recognizers ih =>
      rw [nextMatch?, List.forall_mem_cons, ← ih]
      cases applicable? config window recognizer with
      | none => simp
      | some found =>
          cases nextMatch? config window recognizers with
          | none => simp
          | some other =>
              by_cases hlt : other.2.start < found.start
              · simp [hlt]
              · simp [hlt]

theorem GoesFirst.nextMatch?_eq (h : GoesFirst config window before recognizer after found) :
    nextMatch? config window (before ++ recognizer :: after) = some (recognizer.name, found) := by
  obtain ⟨happlicable, hlt, hle⟩ := h
  induction before with
  | nil =>
      rw [List.nil_append, nextMatch?, happlicable]
      cases hnext : nextMatch? config window after with
      | none => rfl
      | some other =>
          obtain ⟨chosen, hmem, _, hchosen⟩ := exists_of_nextMatch? hnext
          have hnot : ¬other.2.start < found.start := Nat.not_lt.mpr (hle chosen hmem _ hchosen)
          simp [hnot]
  | cons first before ih =>
      have hrest := ih fun other hother => hlt other (List.mem_cons_of_mem first hother)
      rw [List.cons_append, nextMatch?, hrest]
      cases hfirst : applicable? config window first with
      | none => rfl
      | some found' =>
          have hlater := hlt first List.mem_cons_self found' hfirst
          simp [hlater]

theorem exists_goesFirst_of_nextMatch? {name : String}
    (h : nextMatch? config window recognizers = some (name, found)) :
    ∃ before recognizer after, recognizers = before ++ recognizer :: after ∧
      recognizer.name = name ∧ GoesFirst config window before recognizer after found := by
  induction recognizers generalizing name found with
  | nil => simp [nextMatch?] at h
  | cons first rest ih =>
      rw [nextMatch?] at h
      cases hfirst : applicable? config window first with
      | none =>
          rw [hfirst] at h
          obtain ⟨before, recognizer, after, rfl, hname, hchosen⟩ := ih h
          refine ⟨first :: before, recognizer, after, rfl, hname, hchosen.applicable, ?_, hchosen.le⟩
          rw [List.forall_mem_cons]
          exact ⟨by simp [hfirst], hchosen.lt⟩
      | some found' =>
          cases hnext : nextMatch? config window rest with
          | none =>
              rw [hfirst, hnext] at h
              obtain ⟨rfl, rfl⟩ := by simpa using h
              refine ⟨[], first, rest, rfl, rfl, hfirst, by simp, fun other hother => ?_⟩
              simp [nextMatch?_eq_none_iff.mp hnext other hother]
          | some other =>
              obtain ⟨name', found''⟩ := other
              obtain ⟨before, recognizer, after, rfl, hname, hchosen⟩ := ih hnext
              rw [hfirst, hnext] at h
              by_cases hlt : found''.start < found'.start
              · obtain ⟨rfl, rfl⟩ := by simpa [hlt] using h
                refine ⟨first :: before, recognizer, after, rfl, hname, hchosen.applicable, ?_,
                  hchosen.le⟩
                rw [List.forall_mem_cons]
                exact ⟨by simp [hfirst, hlt], hchosen.lt⟩
              · obtain ⟨rfl, rfl⟩ := by simpa [hlt] using h
                have hle : found'.start ≤ found''.start := Nat.le_of_not_lt hlt
                refine ⟨[], first, _, rfl, rfl, hfirst, by simp, ?_⟩
                rw [List.forall_mem_append, List.forall_mem_cons]
                refine ⟨fun other hother found hfound => ?_, fun found hfound => ?_,
                  fun other hother found hfound => hle.trans (hchosen.le other hother found hfound)⟩
                · exact hle.trans (hchosen.lt other hother found hfound).le
                · rw [hchosen.applicable] at hfound
                  exact hle.trans_eq (congrArg Match.start (Option.some.inj hfound))

/-- In a list without repetitions the second of a pair stands behind the first. -/
theorem mem_of_pair_sublist {first second : Recognizer} (hfirst : first ∉ before)
    (h : [first, second].Sublist (before ++ first :: after)) : second ∈ after := by
  induction before with
  | nil =>
      rcases List.sublist_cons_iff.mp h with h | ⟨rest, heq, h⟩
      · exact h.subset (by simp)
      · obtain ⟨_, rfl⟩ := List.cons.inj heq
        exact h.subset (by simp)
  | cons other before ih =>
      rw [List.mem_cons, not_or] at hfirst
      rcases List.sublist_cons_iff.mp h with h | ⟨rest, heq, _⟩
      · exact ih hfirst.2 h
      · exact absurd (List.cons.inj heq).1 hfirst.1

/-- Reordering the list leaves a match first as long as it does not swap those that start at the same
place. -/
theorem GoesFirst.perm {before' after' : List Recognizer}
    (h : GoesFirst config window before recognizer after found)
    (hperm : (before ++ recognizer :: after).Perm (before' ++ recognizer :: after'))
    (hnodup : (before ++ recognizer :: after).Nodup)
    (hties : ∀ other, Tie config window recognizer other → other ∈ after → other ∈ after') :
    GoesFirst config window before' recognizer after' found := by
  have hnodup' := hperm.nodup_iff.mp hnodup
  rw [List.nodup_middle, List.nodup_cons, List.mem_append, not_or, List.nodup_append] at hnodup'
  obtain ⟨⟨hbefore, hafter⟩, _, _, hdisjoint⟩ := hnodup'
  have hothers := (List.perm_middle.symm.trans (hperm.trans List.perm_middle)).cons_inv
  have hsides : ∀ {other}, other ∈ before' ++ after' → other ∈ before ∨ other ∈ after :=
    fun hmem => List.mem_append.mp (hothers.mem_iff.mpr hmem)
  refine ⟨h.applicable, fun other hmem found' hfound' => ?_, fun other hmem found' hfound' => ?_⟩
  · rcases hsides (List.mem_append_left _ hmem) with hearlier | hlater
    · exact h.lt other hearlier found' hfound'
    · apply lt_of_le_of_ne (h.le other hlater found' hfound')
      intro hstart
      have hbehind := hties other ⟨found, found', h.applicable, hfound', hstart⟩ hlater
      exact hdisjoint other hmem other hbehind rfl
  · rcases hsides (List.mem_append_right _ hmem) with hearlier | hlater
    · exact (h.lt other hearlier found' hfound').le
    · exact h.le other hlater found' hfound'

/-- **Order matters for ties only.** Two lists of the same recognizers agree on the next match if those
that start at the same place stand in the same order. -/
theorem nextMatch?_eq_of_perm (hperm : recognizers.Perm recognizers') (hnodup : recognizers.Nodup)
    (hties : ∀ first second, Tie config window first second →
      [first, second].Sublist recognizers → [first, second].Sublist recognizers') :
    nextMatch? config window recognizers = nextMatch? config window recognizers' := by
  cases h : nextMatch? config window recognizers with
  | none =>
      rw [nextMatch?_eq_none_iff] at h
      rw [eq_comm, nextMatch?_eq_none_iff]
      exact fun recognizer hmem => h recognizer (hperm.mem_iff.mpr hmem)
  | some next =>
      obtain ⟨name, found⟩ := next
      obtain ⟨before, recognizer, after, rfl, rfl, hchosen⟩ := exists_goesFirst_of_nextMatch? h
      have hmem : recognizer ∈ recognizers' := hperm.subset (by simp)
      obtain ⟨before', after', rfl⟩ := List.append_of_mem hmem
      have hnotMem : recognizer ∉ before' := by
        have hnodup' := List.nodup_middle.mp (hperm.nodup_iff.mp hnodup)
        exact fun hbefore => (List.nodup_cons.mp hnodup').1 (List.mem_append_left _ hbefore)
      refine (GoesFirst.nextMatch?_eq (hchosen.perm hperm hnodup fun other htie hlater => ?_)).symm
      have hpair : [recognizer, other].Sublist (before ++ recognizer :: after) :=
        (List.Sublist.cons_cons _ (List.singleton_sublist.mpr hlater)).trans
          (List.sublist_append_right _ _)
      exact mem_of_pair_sublist hnotMem (hties recognizer other htie hpair)

theorem convertWindow_congr
    (h : ∀ window, nextMatch? config window recognizers = nextMatch? config window recognizers')
    (window : Window) :
    convertWindow recognizers config window = convertWindow recognizers' config window := by
  induction window using convertWindow.induct recognizers config with
  | case1 window hnone =>
      rw [convertWindow_of_none hnone, convertWindow_of_none ((h window).symm.trans hnone)]
  | case2 window name found hsome ih =>
      rw [convertWindow_of_some hsome, convertWindow_of_some ((h window).symm.trans hsome), ih]

end Choice

/-! ### The built-in recognizers -/

theorem nodup_builtinRecognizers : builtinRecognizers.Nodup :=
  List.Nodup.of_map Recognizer.name nodup_names_builtinRecognizers

theorem opening_eq_of_tie {config : Config} {window : Window} {first second : Recognizer}
    {opening opening' : Opening} (h : Tie config window first second)
    (hfirst : first.OpensWith opening) (hsecond : second.OpensWith opening') :
    opening = opening' := by
  obtain ⟨found, found', hfound, hfound', hstart⟩ := h
  have hopening := hfirst config window found (applicable?_eq_some_iff.mp hfound).1
  have hopening' := hsecond config window found' (applicable?_eq_some_iff.mp hfound').1
  rw [hstart] at hopening
  exact Option.some.inj (hopening.symm.trans hopening')

/-- Of the built-in recognizers only those of properties and of headers tie. -/
theorem pairwise_tie_builtinRecognizers (config : Config) (window : Window) :
    builtinRecognizers.Pairwise fun first second => Tie config window first second →
      first = propertyRecognizer ∧ second = headerRecognizer := by
  have hapart : ∀ {first second : Recognizer} {opening opening' : Opening},
      first.OpensWith opening → second.OpensWith opening' → opening ≠ opening' →
        Tie config window first second → first = propertyRecognizer ∧ second = headerRecognizer :=
    fun hfirst hsecond hne htie => absurd (opening_eq_of_tie htie hfirst hsecond) hne
  refine .cons ?_ (.cons ?_ (.cons ?_ (List.pairwise_singleton _ _)))
  · intro second hsecond htie
    simp only [List.mem_cons, List.not_mem_nil, or_false] at hsecond
    rcases hsecond with rfl | rfl | rfl
    · exact hapart opensWith_propertyRecognizer opensWith_summaryRecognizer (by decide) htie
    · exact hapart opensWith_propertyRecognizer opensWith_attributeRecognizer (by decide) htie
    · exact ⟨rfl, rfl⟩
  · intro second hsecond
    simp only [List.mem_cons, List.not_mem_nil, or_false] at hsecond
    rcases hsecond with rfl | rfl
    · exact hapart opensWith_summaryRecognizer opensWith_attributeRecognizer (by decide)
    · exact hapart opensWith_summaryRecognizer opensWith_headerRecognizer (by decide)
  · intro second hsecond
    obtain rfl := List.mem_singleton.mp hsecond
    exact hapart opensWith_attributeRecognizer opensWith_headerRecognizer (by decide)

/-- **Only one pair of the built-in recognizers has an order that matters.** In every order in which
properties go before headers they make the same conversion of every source. -/
theorem convertWith_eq_of_perm {recognizers : List Recognizer}
    (hperm : recognizers.Perm builtinRecognizers)
    (horder : [propertyRecognizer, headerRecognizer].Sublist recognizers) (config : Config)
    (source : String) :
    convertWith recognizers config source = convertWith builtinRecognizers config source := by
  refine (convertWindow_congr (fun window => ?_) (.ofText source.toList)).symm
  refine nextMatch?_eq_of_perm hperm.symm nodup_builtinRecognizers fun first second htie hpair => ?_
  have hties := (pairwise_tie_builtinRecognizers config window).sublist hpair
  obtain ⟨rfl, rfl⟩ := List.pairwise_pair.mp hties htie
  exact horder

/-- Attributes first and summaries last, over a source in which a property and a header tie. -/
theorem convertWith_attributes_first :
    let recognizers := [attributeRecognizer, propertyRecognizer, headerRecognizer, summaryRecognizer]
    let source := "public class C \x7b\n    [Key]\n    public int Id \x7b get; \x7d\n\x7d\n"
    recognizers.Perm builtinRecognizers ∧
      [propertyRecognizer, headerRecognizer].Sublist recognizers ∧
      convertWith recognizers {} source = convertWith builtinRecognizers {} source ∧
      (convertWith recognizers {} source).spans =
        [("public-member", 0, 16), ("attribute", 17, 27), ("auto-property", 31, 53)] := by
  intro recognizers source
  have hbehind : [attributeRecognizer, headerRecognizer, summaryRecognizer].Perm
      [summaryRecognizer, attributeRecognizer, headerRecognizer] :=
    @List.perm_append_comm _ [attributeRecognizer, headerRecognizer] [summaryRecognizer]
  have hperm : recognizers.Perm builtinRecognizers := (List.Perm.swap _ _ _).trans (.cons _ hbehind)
  have horder : [propertyRecognizer, headerRecognizer].Sublist recognizers :=
    .cons _ (.cons_cons _ (.cons_cons _ (List.nil_sublist _)))
  exact ⟨hperm, horder, convertWith_eq_of_perm hperm horder {} source, by decide +kernel⟩

/-- The order of a header and a property is the one that shows. -/
example : let source := "public int A \x7b get; \x7d"
    (convertWith [headerRecognizer, propertyRecognizer] {} source).output =
      "export int A \x7b get; \x7d".toList := by
  decide +kernel

end TypeScribe
