import TypeScribe.Conversion.Run
import TypeScribe.Proofs.Text.Position

/-!
# Conversions as edits of the source

An edit is a replacement with the absolute byte span that it takes out of a source. A recognizer
reports an edit for a position of the cursor in a text, and the record of a conversion is a list of
edits. Each edit of a run was found with the cursor at the end of the one before.
-/

namespace TypeScribe

open Text Scan

@[ext]
structure Edit where
  recognizer : String
  start : Nat
  stop : Nat
  replacement : List Char
  deriving DecidableEq

/-- What a step shows of itself: its recognizer and its span. -/
def Edit.span (edit : Edit) : String × Nat × Nat := (edit.recognizer, edit.start, edit.stop)

namespace Scan

def Match.edit (name : String) (window : Window) (found : Match) : Edit :=
  ⟨name, window.cursor + (found.span window).offset, window.cursor + (found.span window).stop,
    found.replacement⟩

/-- What the recognizer reports with the cursor at the byte `cursor` of the text. -/
def Recognizer.editAt (recognizer : Recognizer) (config : Config) (text : List Char)
    (cursor : Nat) : Option Edit :=
  let window := Window.atByte text cursor
  (recognizer.recognize config window).map (Match.edit recognizer.name window)

theorem Match.start_edit (name : String) (window : Window) (found : Match) :
    (found.edit name window).start = window.cursor + byteLength (window.ahead.take found.start) :=
  rfl

theorem Match.stop_edit (name : String) (window : Window) (found : Match) :
    (found.edit name window).stop = window.cursor + byteLength (window.ahead.take found.stop) := by
  rw [Match.stop, List.take_add, byteLength_append]
  rfl

theorem Match.cursor_advance_start (name : String) (window : Window) (found : Match) :
    (window.advance found.start).cursor = (found.edit name window).start := by
  rw [Window.cursor_advance, Match.start_edit]

theorem Match.cursor_advance_stop (name : String) (window : Window) (found : Match) :
    (window.advance found.stop).cursor = (found.edit name window).stop := by
  rw [Window.cursor_advance, Match.stop_edit]

section SameWindow

variable {name other : String} {window : Window} {found found' : Match}
  (hstop : found.stop ≤ window.ahead.length) (hstop' : found'.stop ≤ window.ahead.length)

include hstop

theorem Match.start_mem_Iic : found.start ∈ Set.Iic window.ahead.length :=
  (Nat.le_add_right _ _).trans hstop

theorem Match.start_edit_lt_stop_edit_iff :
    (found.edit name window).start < (found.edit name window).stop ↔ 0 < found.length := by
  have hmono := strictMonoOn_byteLength_take window.ahead
  rw [Match.start_edit, Match.stop_edit, Nat.add_lt_add_iff_left,
    hmono.lt_iff_lt (Match.start_mem_Iic hstop) hstop]
  simp [Match.stop]

include hstop'

/-- Among matches in the same window bytes and characters compare alike. -/
theorem Match.start_edit_lt_iff :
    (found.edit name window).start < (found'.edit other window).start ↔
      found.start < found'.start := by
  have hmono := strictMonoOn_byteLength_take window.ahead
  rw [Match.start_edit, Match.start_edit, Nat.add_lt_add_iff_left,
    hmono.lt_iff_lt (Match.start_mem_Iic hstop) (Match.start_mem_Iic hstop')]

theorem Match.start_edit_le_iff :
    (found.edit name window).start ≤ (found'.edit other window).start ↔
      found.start ≤ found'.start := by
  rw [← not_lt, ← not_lt, Match.start_edit_lt_iff hstop' hstop]

end SameWindow

theorem Recognizer.editAt_cursor (recognizer : Recognizer) (config : Config) (window : Window) :
    recognizer.editAt config window.source window.cursor =
      (recognizer.recognize config window).map (Match.edit recognizer.name window) := by
  rw [Recognizer.editAt, Window.atByte_cursor]

end Scan

namespace Conversion

/-- The edits of `steps`, when the first step begins to look at `offset`. -/
def editsFrom (offset : Nat) : List Step → List Edit
  | [] => []
  | step :: steps =>
      let start := offset + byteLength step.before
      let stop := start + byteLength step.taken
      ⟨step.recognizer, start, stop, step.replacement⟩ :: editsFrom stop steps

def edits (conversion : Conversion) : List Edit := editsFrom 0 conversion.steps

theorem spansFrom_eq_map (offset : Nat) (steps : List Step) :
    spansFrom offset steps = (editsFrom offset steps).map Edit.span := by
  induction steps generalizing offset with
  | nil => rfl
  | cons step steps ih =>
      rw [spansFrom, editsFrom, List.map_cons, ih]
      rfl

theorem spans_eq_map_edits (conversion : Conversion) :
    conversion.spans = conversion.edits.map Edit.span :=
  spansFrom_eq_map 0 conversion.steps

end Conversion

/-! ### One step of a run -/

/-- A match as a step, with the text before it. -/
def Scan.Match.step (name : String) (window : Window) (found : Match) : Step :=
  ⟨name, window.ahead.take found.start, (window.ahead.drop found.start).take found.length,
    found.replacement⟩

variable {recognizers : List Recognizer} {config : Config} {window : Window}

theorem convertWindow_of_none (h : nextMatch? config window recognizers = none) :
    convertWindow recognizers config window = ⟨[], window.ahead⟩ := by
  rw [convertWindow]
  split
  · rfl
  · next hsome => simp [h] at hsome

theorem convertWindow_of_some {name : String} {found : Match}
    (h : nextMatch? config window recognizers = some (name, found)) :
    convertWindow recognizers config window =
      ⟨found.step name window ::
          (convertWindow recognizers config (window.advance found.stop)).steps,
        (convertWindow recognizers config (window.advance found.stop)).tail⟩ := by
  rw [convertWindow]
  split
  · next hnone => simp [h] at hnone
  · next hsome =>
      obtain ⟨rfl, rfl⟩ := by simpa using h.symm.trans hsome
      rfl

variable (recognizers config window) in
/-- The edits of the run that begins at the window. -/
def runEdits : List Edit :=
  Conversion.editsFrom window.cursor (convertWindow recognizers config window).steps

theorem edits_convertWith (recognizers : List Recognizer) (config : Config) (source : String) :
    (convertWith recognizers config source).edits =
      runEdits recognizers config (.ofText source.toList) :=
  rfl

theorem runEdits_of_none (h : nextMatch? config window recognizers = none) :
    runEdits recognizers config window = [] := by
  rw [runEdits, convertWindow_of_none h, Conversion.editsFrom]

theorem runEdits_of_some {name : String} {found : Match}
    (h : nextMatch? config window recognizers = some (name, found)) :
    runEdits recognizers config window =
      found.edit name window :: runEdits recognizers config (window.advance found.stop) := by
  rw [runEdits, convertWindow_of_some h, Conversion.editsFrom, runEdits,
    Match.cursor_advance_stop name]
  have hstop : window.cursor + byteLength (found.step name window).before +
      byteLength (found.step name window).taken = (found.edit name window).stop := by
    rw [Match.stop_edit, Match.stop, List.take_add, byteLength_append, ← Nat.add_assoc]
    rfl
  rw [hstop]
  rfl

theorem output_convertWindow_of_none (h : nextMatch? config window recognizers = none) :
    (convertWindow recognizers config window).output = window.ahead := by
  rw [convertWindow_of_none h]
  rfl

theorem output_convertWindow_of_some {name : String} {found : Match}
    (h : nextMatch? config window recognizers = some (name, found)) :
    (convertWindow recognizers config window).output =
      window.ahead.take found.start ++ found.replacement ++
        (convertWindow recognizers config (window.advance found.stop)).output := by
  rw [convertWindow_of_some h]
  simp [Conversion.output, Match.step]

end TypeScribe
