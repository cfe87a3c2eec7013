import TypeScribe.Proofs.Conversion.Splice

/-!
# The leftmost, first-listed rewriting

Which edit a run makes next is settled by what the recognizers report at the cursor: of the edits that
take something the one with the smallest start, and of several such the one whose recognizer is listed
first. The run goes on for as long as there is one. These two rules leave no choice, so the run is the
only rewriting that follows them.
-/

namespace TypeScribe

open Text Scan

/-- At `cursor` the recognizer at place `place` of the list reports an edit that takes something. -/
def ReportsAt (recognizers : List Recognizer) (config : Config) (text : List Char) (cursor : Nat)
    (place : Nat) (edit : Edit) : Prop :=
  ∃ recognizer, recognizers[place]? = some recognizer ∧
    recognizer.editAt config text cursor = some edit ∧ edit.start < edit.stop

/-- Of the edits reported at `cursor` this one starts first; of several that start there, its
recognizer is the first of the list. -/
def IsFirstAt (recognizers : List Recognizer) (config : Config) (text : List Char) (cursor : Nat)
    (edit : Edit) : Prop :=
  ∃ place, ReportsAt recognizers config text cursor place edit ∧
    ∀ place' edit', ReportsAt recognizers config text cursor place' edit' →
      edit.start ≤ edit'.start ∧ (place' < place → edit.start < edit'.start)

/-- The rewriting that always makes the first edit and goes on behind it, from `cursor` on. -/
inductive LeftmostFirst (recognizers : List Recognizer) (config : Config) (text : List Char) :
    Nat → List Edit → Prop where
  | stop {cursor : Nat}
      (hnone : ∀ place edit, ¬ReportsAt recognizers config text cursor place edit) :
      LeftmostFirst recognizers config text cursor []
  | step {cursor : Nat} {edit : Edit} {edits : List Edit}
      (hfirst : IsFirstAt recognizers config text cursor edit)
      (hrest : LeftmostFirst recognizers config text edit.stop edits) :
      LeftmostFirst recognizers config text cursor (edit :: edits)

section Choice

variable {recognizers : List Recognizer} {config : Config} {text : List Char} {cursor : Nat}

theorem IsFirstAt.eq {edit edit' : Edit} (h : IsFirstAt recognizers config text cursor edit)
    (h' : IsFirstAt recognizers config text cursor edit') : edit = edit' := by
  obtain ⟨place, hreports, hfirst⟩ := h
  obtain ⟨place', hreports', hfirst'⟩ := h'
  have hle := hfirst place' edit' hreports'
  have hle' := hfirst' place edit hreports
  rcases Nat.lt_trichotomy place place' with hlt | heq | hgt
  · have := hle'.2 hlt
    omega
  · subst heq
    obtain ⟨recognizer, hplace, hedit, _⟩ := hreports
    obtain ⟨recognizer', hplace', hedit', _⟩ := hreports'
    obtain rfl := Option.some.inj (hplace.symm.trans hplace')
    exact Option.some.inj (hedit.symm.trans hedit')
  · have := hle.2 hgt
    omega

theorem LeftmostFirst.eq {edits edits' : List Edit}
    (h : LeftmostFirst recognizers config text cursor edits)
    (h' : LeftmostFirst recognizers config text cursor edits') : edits = edits' := by
  induction h generalizing edits' with
  | stop hnone =>
      cases h' with
      | stop => rfl
      | step hfirst _ =>
          obtain ⟨place, hreports, _⟩ := hfirst
          exact absurd hreports (hnone place _)
  | step hfirst _ ih =>
      cases h' with
      | stop hnone =>
          obtain ⟨place, hreports, _⟩ := hfirst
          exact absurd hreports (hnone place _)
      | step hfirst' hrest' =>
          obtain rfl := hfirst.eq hfirst'
          rw [ih hrest']

end Choice

/-! ### What the scan of the list chooses

The scan compares matches by characters in one window; the rules above compare edits by bytes. -/

section Scan

variable {config : Config} {window : Window}

theorem reportsAt_cons_zero_iff {recognizer : Recognizer} {recognizers : List Recognizer}
    {text : List Char} {cursor : Nat} {edit : Edit} :
    ReportsAt (recognizer :: recognizers) config text cursor 0 edit ↔
      recognizer.editAt config text cursor = some edit ∧ edit.start < edit.stop := by
  simp [ReportsAt]

theorem reportsAt_cons_succ_iff {recognizer : Recognizer} {recognizers : List Recognizer}
    {text : List Char} {cursor place : Nat} {edit : Edit} :
    ReportsAt (recognizer :: recognizers) config text cursor (place + 1) edit ↔
      ReportsAt recognizers config text cursor place edit := by
  simp [ReportsAt]

theorem editAt_and_lt_iff {recognizer : Recognizer} {edit : Edit} :
    (recognizer.editAt config window.source window.cursor = some edit ∧ edit.start < edit.stop) ↔
      ∃ found, applicable? config window recognizer = some found ∧
        found.edit recognizer.name window = edit := by
  rw [Recognizer.editAt_cursor, Option.map_eq_some_iff]
  constructor
  · rintro ⟨⟨found, hreport, rfl⟩, hlt⟩
    have hpos := (Match.start_edit_lt_stop_edit_iff (recognizer.stop_le hreport)).mp hlt
    exact ⟨found, applicable?_eq_some_iff.mpr ⟨hreport, hpos⟩, rfl⟩
  · rintro ⟨found, happlicable, rfl⟩
    obtain ⟨hreport, hpos⟩ := applicable?_eq_some_iff.mp happlicable
    exact ⟨⟨found, hreport, rfl⟩,
      (Match.start_edit_lt_stop_edit_iff (recognizer.stop_le hreport)).mpr hpos⟩

theorem not_reportsAt_of_nextMatch?_eq_none {recognizers : List Recognizer}
    (h : nextMatch? config window recognizers = none) (place : Nat) (edit : Edit) :
    ¬ReportsAt recognizers config window.source window.cursor place edit := by
  induction recognizers generalizing place with
  | nil => simp [ReportsAt]
  | cons recognizer recognizers ih =>
      rw [nextMatch?] at h
      split at h
      · next happlicable =>
          cases place with
          | zero =>
              rw [reportsAt_cons_zero_iff, editAt_and_lt_iff]
              rintro ⟨found, hfound, _⟩
              simp [happlicable] at hfound
          | succ place =>
              rw [reportsAt_cons_succ_iff]
              exact ih h place
      · simp at h
      · split at h <;> simp at h

theorem IsFirstAt.cons {recognizer : Recognizer} {recognizers : List Recognizer}
    {text : List Char} {cursor : Nat} {edit : Edit}
    (h : IsFirstAt recognizers config text cursor edit)
    (hhead : ∀ edit', recognizer.editAt config text cursor = some edit' ∧
      edit'.start < edit'.stop → edit.start < edit'.start) :
    IsFirstAt (recognizer :: recognizers) config text cursor edit := by
  obtain ⟨place, hreports, hfirst⟩ := h
  refine ⟨place + 1, reportsAt_cons_succ_iff.mpr hreports, fun place' edit' hreports' => ?_⟩
  cases place' with
  | zero =>
      have hlt := hhead edit' (reportsAt_cons_zero_iff.mp hreports')
      exact ⟨hlt.le, fun _ => hlt⟩
  | succ place' =>
      obtain ⟨hle, hlt⟩ := hfirst place' edit' (reportsAt_cons_succ_iff.mp hreports')
      exact ⟨hle, fun hplace => hlt (Nat.lt_of_succ_lt_succ hplace)⟩

theorem isFirstAt_cons_of_head {recognizer : Recognizer} {recognizers : List Recognizer}
    {text : List Char} {cursor : Nat} {edit : Edit}
    (h : recognizer.editAt config text cursor = some edit ∧ edit.start < edit.stop)
    (hrest : ∀ place edit', ReportsAt recognizers config text cursor place edit' →
      edit.start ≤ edit'.start) :
    IsFirstAt (recognizer :: recognizers) config text cursor edit := by
  refine ⟨0, reportsAt_cons_zero_iff.mpr h, fun place' edit' hreports' => ?_⟩
  refine ⟨?_, fun hplace => absurd hplace (Nat.not_lt_zero place')⟩
  cases place' with
  | zero =>
      obtain ⟨hedit', _⟩ := reportsAt_cons_zero_iff.mp hreports'
      obtain rfl := Option.some.inj (h.1.symm.trans hedit')
      exact le_rfl
  | succ place' => exact hrest place' edit' (reportsAt_cons_succ_iff.mp hreports')

theorem isFirstAt_of_nextMatch? {recognizers : List Recognizer} {name : String} {found : Match}
    (h : nextMatch? config window recognizers = some (name, found)) :
    IsFirstAt recognizers config window.source window.cursor (found.edit name window) := by
  induction recognizers generalizing name found with
  | nil => simp [nextMatch?] at h
  | cons recognizer recognizers ih =>
      rw [nextMatch?] at h
      split at h
      · next happlicable =>
          refine (ih h).cons fun edit' hedit' => ?_
          obtain ⟨found', hfound', _⟩ := editAt_and_lt_iff.mp hedit'
          simp [happlicable] at hfound'
      · next found' happlicable hnone =>
          obtain ⟨rfl, rfl⟩ := by simpa using h
          refine isFirstAt_cons_of_head (editAt_and_lt_iff.mpr ⟨_, happlicable, rfl⟩) ?_
          intro place edit' hreports
          exact absurd hreports (not_reportsAt_of_nextMatch?_eq_none hnone place edit')
      · next found' other happlicable hother =>
          obtain ⟨other, found''⟩ := other
          have hstop' := recognizer.stop_le (applicable?_eq_some_iff.mp happlicable).1
          have hstop'' := stop_le_of_nextMatch? hother
          split at h
          · next hlt =>
              obtain ⟨rfl, rfl⟩ := by simpa using h
              refine (ih hother).cons fun edit' hedit' => ?_
              obtain ⟨_, hfound', rfl⟩ := editAt_and_lt_iff.mp hedit'
              obtain rfl := Option.some.inj (happlicable.symm.trans hfound')
              exact (Match.start_edit_lt_iff hstop'' hstop').mpr hlt
          · next hnot =>
              obtain ⟨rfl, rfl⟩ := by simpa using h
              refine isFirstAt_cons_of_head (editAt_and_lt_iff.mpr ⟨_, happlicable, rfl⟩) ?_
              intro place edit' hreports
              obtain ⟨_, _, hfirst⟩ := ih hother
              exact ((Match.start_edit_le_iff hstop' hstop'').mpr (Nat.le_of_not_lt hnot)).trans
                (hfirst place edit' hreports).1

end Scan

theorem leftmostFirst_runEdits (recognizers : List Recognizer) (config : Config)
    (window : Window) :
    LeftmostFirst recognizers config window.source window.cursor
      (runEdits recognizers config window) := by
  induction window using convertWindow.induct recognizers config with
  | case1 window hnone =>
      rw [runEdits_of_none hnone]
      exact .stop fun place edit => not_reportsAt_of_nextMatch?_eq_none hnone place edit
  | case2 window name found hsome ih =>
      rw [Window.source_advance, Match.cursor_advance_stop name] at ih
      rw [runEdits_of_some hsome]
      exact .step (isFirstAt_of_nextMatch? hsome) ih

/-- **The selection law.** The edits of a run are the leftmost, first-listed rewriting of the source:
each is the first at the end of the one before, at the end of the last there is none, and no other
list of edits has both properties. -/
theorem leftmostFirst_iff_eq_edits (recognizers : List Recognizer) (config : Config)
    (source : String) (edits : List Edit) :
    LeftmostFirst recognizers config source.toList 0 edits ↔
      edits = (convertWith recognizers config source).edits := by
  have hrun := leftmostFirst_runEdits recognizers config (.ofText source.toList)
  rw [edits_convertWith]
  constructor
  · exact fun h => h.eq hrun
  · rintro rfl
    exact hrun

end TypeScribe
