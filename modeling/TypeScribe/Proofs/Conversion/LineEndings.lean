import TypeScribe.Proofs.Conversion.Edit
import TypeScribe.Proofs.Scan.LineEndings

/-!
# Line endings of converted texts

A conversion goes on with the line endings of its source: what a step takes is not cut within a line
ending, so neither is what stays before and behind it, and what the step puts there has the same line
endings.
-/

namespace TypeScribe

open Text Scan

section Step

variable {config : Config} {window : Window} {name : String} {found : Match} {ending : LineEnding}

theorem keepsLineEndings_of_nextMatch?
    (h : nextMatch? config window builtinRecognizers = some (name, found)) :
    KeepsLineEndings (window.advance found.start) ⟨found.length, found.replacement⟩ := by
  obtain ⟨recognizer, hmem, _, happlicable⟩ := exists_of_nextMatch? h
  obtain ⟨hfound, _⟩ := applicable?_eq_some_iff.mp happlicable
  simp only [builtinRecognizers, List.mem_cons, List.not_mem_nil, or_false] at hmem
  rcases hmem with rfl | rfl | rfl | rfl
  · exact keepsLineEndings_of_propertyPattern (follows_propertyRecognizer.exists_of_some hfound).2.1
  · exact keepsLineEndings_of_summaryPattern (follows_summaryRecognizer.exists_of_some hfound).2.1
  · exact keepsLineEndings_of_attributePattern
      (follows_attributeRecognizer.exists_of_some hfound).2.1
  · exact keepsLineEndings_of_headerPattern (follows_headerRecognizer.exists_of_some hfound).2.1

/-- What stays before a step, what the step puts, and the text behind it have the line endings of the
text ahead. -/
theorem Text.LineEnding.Throughout.of_nextMatch? (h : ending.Throughout window.ahead)
    (hnext : nextMatch? config window builtinRecognizers = some (name, found)) :
    ending.Throughout (window.ahead.take found.start) ∧ ending.Throughout found.replacement ∧
      ending.Throughout (window.advance found.stop).ahead := by
  have hkeeps := keepsLineEndings_of_nextMatch? hnext
  have hahead : window.ahead =
      window.ahead.take found.start ++ (window.advance found.start).ahead :=
    (List.take_append_drop _ _).symm
  have hthere : (window.advance found.start).ahead =
      (window.advance found.start).ahead.take found.length ++
        (window.advance found.stop).ahead := by
    rw [Match.stop, Window.advance_add]
    exact (List.take_append_drop _ _).symm
  rw [hahead] at h
  have hlater := h.of_append_right fun _ => hkeeps.begins
  rw [hthere] at hlater
  exact ⟨h.of_append_left, hkeeps.replaces ending hlater.of_append_left,
    hlater.of_append_right fun hreturn => absurd hreturn hkeeps.ends⟩

theorem Text.LineEnding.Throughout.output_convertWindow (h : ending.Throughout window.ahead) :
    ending.Throughout (convertWindow builtinRecognizers config window).output := by
  induction window using convertWindow.induct builtinRecognizers config with
  | case1 window hnone => rwa [output_convertWindow_of_none hnone]
  | case2 window name found hsome ih =>
      obtain ⟨hbefore, hreplacement, hrest⟩ := h.of_nextMatch? hsome
      rw [output_convertWindow_of_some hsome]
      exact (hbefore.append hreplacement).append (ih hrest)

end Step

/-- **A conversion keeps the line endings of its source**: `\r\n` where every line ends so, and no
`\r` where there is none. -/
theorem lineEndings_convertText (config : Config) (source : String) :
    (UsesCrlf source.toList → UsesCrlf (convertText config source).toList) ∧
      ('\r' ∉ source.toList → '\r' ∉ (convertText config source).toList) := by
  have hkeeps : ∀ ending : LineEnding, ending.Throughout source.toList →
      ending.Throughout (convertText config source).toList := by
    intro ending h
    rw [convertText, String.toList_ofList]
    have hahead : ending.Throughout (Window.ofText source.toList).ahead := h
    exact hahead.output_convertWindow
  exact ⟨hkeeps .crlf, hkeeps .lf⟩

theorem lineEndings_convertText_summary :
    let crlf := "/// <summary>\r\n/// One\r\n/// Two\r\n/// </summary>\r\npublic class A\r\n\x7b"
    let lf := "/// <summary>\n/// One\n/// Two\n/// </summary>\npublic class A\n\x7b"
    (convertText {} crlf = "/*One\r\n*Two */\r\nexport interface A \x7b" ∧
      convertText {} lf = "/*One\n*Two */\nexport interface A \x7b") ∧
    (UsesCrlf crlf.toList ∧ UsesCrlf (convertText {} crlf).toList) ∧
      '\r' ∉ lf.toList ∧ '\r' ∉ (convertText {} lf).toList := by
  intro crlf lf
  have hcrlf : UsesCrlf crlf.toList := by decide
  have hlf : '\r' ∉ lf.toList := by decide
  refine ⟨by decide +kernel, ⟨hcrlf, ?_⟩, hlf, ?_⟩
  · exact (lineEndings_convertText {} crlf).1 hcrlf
  · exact (lineEndings_convertText {} lf).2 hlf

end TypeScribe
