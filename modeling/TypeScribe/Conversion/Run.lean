import TypeScribe.Conversion.Basic
import TypeScribe.Scan.AttributeLine
import TypeScribe.Scan.AutoProperty
import TypeScribe.Scan.DocSummary
import TypeScribe.Scan.PublicMember

/-!
# Running recognizers over a source

All recognizers look ahead from the cursor; the match that starts first is applied, among several the
one of the recognizer listed first, and the cursor moves behind it. The replacement is not looked at
again. Empty matches are passed over, and the run ends when no recognizer reports another one.
-/

namespace TypeScribe

open Scan

/-- The recognizer's match, unless it is empty. -/
def applicable? (config : Config) (window : Window) (recognizer : Recognizer) : Option Match :=
  (recognizer.recognize config window).filter fun found => 0 < found.length

def nextMatch? (config : Config) (window : Window) : List Recognizer → Option (String × Match)
  | [] => none
  | recognizer :: recognizers =>
      match applicable? config window recognizer, nextMatch? config window recognizers with
      | none, other => other
      | some found, none => some (recognizer.name, found)
      | some found, some other =>
          if other.2.start < found.start then some other else some (recognizer.name, found)

theorem applicable?_eq_some_iff {config : Config} {window : Window} {recognizer : Recognizer}
    {found : Match} : applicable? config window recognizer = some found ↔
      recognizer.recognize config window = some found ∧ 0 < found.length := by
  simp [applicable?]

/-- The match to apply next was reported by one of the recognizers, and it is not empty. -/
theorem exists_of_nextMatch? {config : Config} {window : Window} {recognizers : List Recognizer}
    {name : String} {found : Match}
    (h : nextMatch? config window recognizers = some (name, found)) :
    ∃ recognizer ∈ recognizers, recognizer.name = name ∧
      applicable? config window recognizer = some found := by
  induction recognizers generalizing name found with
  | nil => simp [nextMatch?] at h
  | cons recognizer recognizers ih =>
      rw [nextMatch?] at h
      split at h
      · obtain ⟨chosen, hmem, hchosen⟩ := ih h
        exact ⟨chosen, List.mem_cons_of_mem _ hmem, hchosen⟩
      · next happlicable _ =>
          obtain ⟨rfl, rfl⟩ := by simpa using h
          exact ⟨recognizer, List.mem_cons_self, rfl, happlicable⟩
      · next found' other happlicable hother =>
          split at h
          · obtain rfl := by simpa using h
            obtain ⟨chosen, hmem, hchosen⟩ := ih hother
            exact ⟨chosen, List.mem_cons_of_mem _ hmem, hchosen⟩
          · obtain ⟨rfl, rfl⟩ := by simpa using h
            exact ⟨recognizer, List.mem_cons_self, rfl, happlicable⟩

theorem length_advance_lt {config : Config} {window : Window} {recognizers : List Recognizer}
    {name : String} {found : Match}
    (h : nextMatch? config window recognizers = some (name, found)) :
    (window.advance found.stop).ahead.length < window.ahead.length := by
  obtain ⟨recognizer, _, _, happlicable⟩ := exists_of_nextMatch? h
  obtain ⟨hreport, hpos⟩ := applicable?_eq_some_iff.mp happlicable
  have hstop := recognizer.stop_le hreport
  simp only [Window.advance, List.length_drop, Match.stop] at hstop ⊢
  omega

def convertWindow (recognizers : List Recognizer) (config : Config) (window : Window) :
    Conversion :=
  match _h : nextMatch? config window recognizers with
  | none => ⟨[], window.ahead⟩
  | some (name, found) =>
      let step : Step :=
        ⟨name, window.ahead.take found.start, (window.ahead.drop found.start).take found.length,
          found.replacement⟩
      let later := convertWindow recognizers config (window.advance found.stop)
      ⟨step :: later.steps, later.tail⟩
termination_by window.ahead.length
decreasing_by exact length_advance_lt _h

def convertWith (recognizers : List Recognizer) (config : Config) (source : String) : Conversion :=
  convertWindow recognizers config (.ofText source.toList)

def builtinRecognizers : List Recognizer :=
  [propertyRecognizer, summaryRecognizer, attributeRecognizer, headerRecognizer]

/-- The converted text of a source file. Text that no recognizer claims stays as it is. -/
def convertText (config : Config) (source : String) : String :=
  String.ofList (convertWith builtinRecognizers config source).output

end TypeScribe
