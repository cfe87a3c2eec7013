import TypeScribe.Proofs.Conversion.Edit

/-!
# The splice law

A conversion leaves the source as it is but for its edits: these stand in the order of the source, do
not overlap, and take no bytes twice, and the output is the text between them with the replacements
put in. Each replacement was reported by a recognizer that looked at the source, never at a text that
was put in before.
-/

namespace TypeScribe

open Text Scan

/-- The text from `cursor` on, with the replacement of each edit in the place of its span. -/
def splice (text : List Char) (cursor : Nat) : List Edit → List Char
  | [] => dropBytes cursor text
  | edit :: edits =>
      slice cursor edit.start text ++ edit.replacement ++ splice text edit.stop edits

/-- From `cursor` up to `limit` the edits follow one another, none of them empty. -/
def InOrder (limit cursor : Nat) : List Edit → Prop
  | [] => cursor ≤ limit
  | edit :: edits => cursor ≤ edit.start ∧ edit.start < edit.stop ∧ InOrder limit edit.stop edits

/-- Each edit is what one of the recognizers reports at the end of the edit before. -/
def Reported (recognizers : List Recognizer) (config : Config) (text : List Char) (cursor : Nat) :
    List Edit → Prop
  | [] => True
  | edit :: edits =>
      (∃ recognizer ∈ recognizers, recognizer.editAt config text cursor = some edit) ∧
        Reported recognizers config text edit.stop edits

/-- The edit that leaves the text as it is. -/
def Edit.undo (text : List Char) (edit : Edit) : Edit :=
  { edit with replacement := slice edit.start edit.stop text }

theorem InOrder.cursor_add_length_le {limit cursor : Nat} {edits : List Edit}
    (h : InOrder limit cursor edits) : cursor + edits.length ≤ limit := by
  induction edits generalizing cursor with
  | nil => exact h
  | cons edit edits ih =>
      obtain ⟨hstart, hstop, hrest⟩ := h
      have := ih hrest
      simp only [List.length_cons]
      omega

theorem slice_cursor (window : Window) (count : Nat) :
    slice window.cursor (window.advance count).cursor window.source = window.ahead.take count := by
  have hslice := slice_append window.behind.reverse (window.ahead.take count)
    (window.ahead.drop count)
  rw [List.take_append_drop, byteLength_reverse] at hslice
  rw [Window.cursor_advance]
  exact hslice

theorem dropBytes_cursor (window : Window) :
    dropBytes window.cursor window.source = window.ahead := by
  have hdrop := dropBytes_append window.behind.reverse window.ahead
  rwa [byteLength_reverse] at hdrop

theorem isBoundary_cursor_advance (window : Window) (count : Nat) :
    IsBoundary window.source (window.advance count).cursor := by
  have h := (window.advance count).isBoundary_cursor
  rwa [Window.source_advance] at h

theorem Reported.exists_of_mem {recognizers : List Recognizer} {config : Config} {text : List Char}
    {cursor : Nat} {edits : List Edit} {edit : Edit}
    (h : Reported recognizers config text cursor edits) (hmem : edit ∈ edits) :
    ∃ recognizer ∈ recognizers, ∃ place, recognizer.editAt config text place = some edit := by
  induction edits generalizing cursor with
  | nil => simp at hmem
  | cons first edits ih =>
      obtain ⟨⟨recognizer, hrecognizer, hreport⟩, hrest⟩ := h
      rcases List.mem_cons.mp hmem with rfl | hmem
      · exact ⟨recognizer, hrecognizer, cursor, hreport⟩
      · exact ih hrest hmem

/-! ### What one step contributes -/

section Step

variable (name : String) (window : Window) (found : Match)

theorem isBoundary_start_edit : IsBoundary window.source (found.edit name window).start := by
  rw [← Match.cursor_advance_start]
  exact isBoundary_cursor_advance window found.start

theorem isBoundary_stop_edit : IsBoundary window.source (found.edit name window).stop := by
  rw [← Match.cursor_advance_stop]
  exact isBoundary_cursor_advance window found.stop

theorem slice_cursor_start_edit :
    slice window.cursor (found.edit name window).start window.source =
      window.ahead.take found.start := by
  rw [← Match.cursor_advance_start]
  exact slice_cursor window found.start

theorem slice_edit :
    slice (found.edit name window).start (found.edit name window).stop window.source =
      (window.ahead.drop found.start).take found.length := by
  have hslice := slice_cursor (window.advance found.start) found.length
  rw [Window.source_advance, ← Window.advance_add] at hslice
  rw [← Match.cursor_advance_stop, ← Match.cursor_advance_start]
  exact hslice

end Step

variable {recognizers : List Recognizer} {config : Config} {window : Window}

theorem exists_editAt_of_nextMatch? {name : String} {found : Match}
    (h : nextMatch? config window recognizers = some (name, found)) :
    ∃ recognizer ∈ recognizers,
      recognizer.editAt config window.source window.cursor = some (found.edit name window) := by
  obtain ⟨recognizer, hmem, rfl, happlicable⟩ := exists_of_nextMatch? h
  obtain ⟨hreport, _⟩ := applicable?_eq_some_iff.mp happlicable
  refine ⟨recognizer, hmem, ?_⟩
  rw [Recognizer.editAt_cursor, hreport, Option.map_some]

theorem stop_le_of_nextMatch? {name : String} {found : Match}
    (h : nextMatch? config window recognizers = some (name, found)) :
    found.stop ≤ window.ahead.length := by
  obtain ⟨recognizer, _, rfl, happlicable⟩ := exists_of_nextMatch? h
  exact recognizer.stop_le (applicable?_eq_some_iff.mp happlicable).1

theorem start_edit_lt_stop_edit_of_nextMatch? {name : String} {found : Match}
    (h : nextMatch? config window recognizers = some (name, found)) :
    (found.edit name window).start < (found.edit name window).stop := by
  obtain ⟨recognizer, _, rfl, happlicable⟩ := exists_of_nextMatch? h
  have hpos := (applicable?_eq_some_iff.mp happlicable).2
  exact (Match.start_edit_lt_stop_edit_iff (stop_le_of_nextMatch? h)).mpr hpos

/-! ### What a run adds up to

Each statement is about the run from a window: its text is the window's, and its first edit was found
at the window's cursor. The induction is on the run. -/

variable (recognizers config window)

theorem inOrder_runEdits :
    InOrder (byteLength window.source) window.cursor (runEdits recognizers config window) := by
  induction window using convertWindow.induct recognizers config with
  | case1 window hnone =>
      rw [runEdits_of_none hnone]
      exact window.isBoundary_cursor.le
  | case2 window name found hsome ih =>
      rw [runEdits_of_some hsome]
      rw [Window.source_advance, Match.cursor_advance_stop name] at ih
      exact ⟨Nat.le_add_right _ _, start_edit_lt_stop_edit_of_nextMatch? hsome, ih⟩

theorem isBoundary_of_mem_runEdits {edit : Edit} (h : edit ∈ runEdits recognizers config window) :
    IsBoundary window.source edit.start ∧ IsBoundary window.source edit.stop := by
  induction window using convertWindow.induct recognizers config with
  | case1 window hnone => simp [runEdits_of_none hnone] at h
  | case2 window name found hsome ih =>
      rw [runEdits_of_some hsome, List.mem_cons] at h
      rcases h with rfl | h
      · exact ⟨isBoundary_start_edit name window found, isBoundary_stop_edit name window found⟩
      · rw [Window.source_advance] at ih
        exact ih h

theorem reported_runEdits :
    Reported recognizers config window.source window.cursor
      (runEdits recognizers config window) := by
  induction window using convertWindow.induct recognizers config with
  | case1 window hnone =>
      rw [runEdits_of_none hnone]
      trivial
  | case2 window name found hsome ih =>
      rw [runEdits_of_some hsome]
      rw [Window.source_advance, Match.cursor_advance_stop name] at ih
      exact ⟨exists_editAt_of_nextMatch? hsome, ih⟩

theorem output_convertWindow_eq_splice :
    (convertWindow recognizers config window).output =
      splice window.source window.cursor (runEdits recognizers config window) := by
  induction window using convertWindow.induct recognizers config with
  | case1 window hnone =>
      rw [runEdits_of_none hnone, output_convertWindow_of_none hnone, splice, dropBytes_cursor]
  | case2 window name found hsome ih =>
      rw [Window.source_advance, Match.cursor_advance_stop name] at ih
      rw [runEdits_of_some hsome, output_convertWindow_of_some hsome, splice,
        slice_cursor_start_edit, ih]
      rfl

theorem splice_undo_runEdits :
    splice window.source window.cursor
      ((runEdits recognizers config window).map (Edit.undo window.source)) = window.ahead := by
  induction window using convertWindow.induct recognizers config with
  | case1 window hnone =>
      rw [runEdits_of_none hnone, List.map_nil, splice, dropBytes_cursor]
  | case2 window name found hsome ih =>
      rw [Window.source_advance, Match.cursor_advance_stop name] at ih
      rw [runEdits_of_some hsome, List.map_cons, splice]
      change slice window.cursor (found.edit name window).start window.source ++
        slice (found.edit name window).start (found.edit name window).stop window.source ++ _ = _
      rw [slice_cursor_start_edit, slice_edit]
      refine Eq.trans (congrArg _ ih) ?_
      rw [← List.take_add]
      exact List.take_append_drop _ _

/-! ### The law -/

structure SpliceLaw (recognizers : List Recognizer) (config : Config) (text : List Char)
    (conversion : Conversion) : Prop where
  /-- The recorded steps show the edits. -/
  spans_eq : conversion.spans = conversion.edits.map Edit.span
  inOrder : InOrder (byteLength text) 0 conversion.edits
  isBoundary : ∀ edit ∈ conversion.edits, IsBoundary text edit.start ∧ IsBoundary text edit.stop
  length_le : conversion.edits.length ≤ byteLength text
  reported : Reported recognizers config text 0 conversion.edits
  output_eq : conversion.output = splice text 0 conversion.edits
  /-- With the taken text in the place of the replacements the source is whole again. -/
  splice_undo : splice text 0 (conversion.edits.map (Edit.undo text)) = text
  output_of_nil : conversion.edits = [] → conversion.output = text

/-- **The splice law.** A run over any source with any recognizers comes to an end, and its record is
a splice of the source. -/
theorem spliceLaw_convertWith (recognizers : List Recognizer) (config : Config) (source : String) :
    SpliceLaw recognizers config source.toList (convertWith recognizers config source) := by
  let window := Window.ofText source.toList
  have hinOrder := inOrder_runEdits recognizers config window
  have houtput := output_convertWindow_eq_splice recognizers config window
  refine
    { spans_eq := Conversion.spans_eq_map_edits _
      inOrder := hinOrder
      isBoundary := fun edit hmem => isBoundary_of_mem_runEdits recognizers config window hmem
      length_le := ?_
      reported := reported_runEdits recognizers config window
      output_eq := houtput
      splice_undo := splice_undo_runEdits recognizers config window
      output_of_nil := ?_ }
  · have hlength := hinOrder.cursor_add_length_le
    rwa [show window.cursor = 0 from rfl, Nat.zero_add] at hlength
  · intro hnil
    change (convertWindow recognizers config window).output = source.toList
    rw [houtput, ← edits_convertWith, hnil]
    exact dropBytes_zero source.toList

end TypeScribe
