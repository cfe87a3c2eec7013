import TypeScribe.Proofs.Conversion.Scanning
import TypeScribe.Proofs.Scan.AttributeLine

/-!
# The removal of attribute lines

Attributes are looked for at line starts only, and what is found is the whole line that begins there.
So the removal of attributes is a filter on the lines of a text: it drops the attribute lines and keeps
all others as they are. As each line is judged for itself, what is left holds no attribute line.
-/

namespace TypeScribe

open Text Scan

section Run

variable {config : Config} {behind line rest : List Char}

theorem forall₂_follows_attribute :
    List.Forall₂ Recognizer.Follows [attributeRecognizer] [fun _ => attributePattern] :=
  .cons follows_attributeRecognizer .nil

theorem hitAt?_attributePattern (window : Window) :
    hitAt? [fun _ => attributePattern] config window = attributePattern window := by
  simp [hitAt?]

theorem attributePattern_of_isAttributeLine (h : IsAttributeLine line) (hline : FirstLine line rest)
    (hstart : Window.atLineStart ⟨behind, line ++ rest⟩ = true) :
    attributePattern ⟨behind, line ++ rest⟩ = some ⟨line.length, []⟩ := by
  rw [attributePattern, if_pos hstart, h.readAttributeLine?_append hline, Option.map_some,
    List.length_append, Nat.add_sub_cancel]

/-- Within a line nothing hits, and at its start only a whole line does. -/
theorem attributePattern_eq_none_of_line (h : ¬IsAttributeLine line) (hline : FirstLine line rest)
    {passed more : List Char} {c : Char} (hsplit : line = passed ++ c :: more) :
    attributePattern ⟨passed.reverse ++ behind, c :: (more ++ rest)⟩ = none := by
  rcases List.eq_nil_or_concat' passed with rfl | ⟨passed, d, rfl⟩
  · have hnone := readAttributeLine?_eq_none h hline
    rw [hsplit] at hnone
    simp only [List.nil_append, List.cons_append] at hnone
    rw [attributePattern, hnone]
    simp
  · have hd : d ≠ '\n' := by
      rintro rfl
      rw [hsplit] at hline
      exact hline.not_mem_front (by simp)
    rw [attributePattern, if_neg]
    simpa [Window.atLineStart] using hd

/-- **One line is dropped or kept as a whole.** -/
theorem output_convertWindow_line (hline : FirstLine line rest)
    (hstart : Window.atLineStart ⟨behind, line ++ rest⟩ = true) :
    (convertWindow [attributeRecognizer] config ⟨behind, line ++ rest⟩).output =
      (if IsAttributeLine line then [] else line) ++
        (convertWindow [attributeRecognizer] config ⟨line.reverse ++ behind, rest⟩).output := by
  by_cases h : IsAttributeLine line
  · have hhit : hitAt? [fun _ => attributePattern] config ⟨behind, line ++ rest⟩ =
        some ⟨line.length, []⟩ := by
      rw [hitAt?_attributePattern, attributePattern_of_isAttributeLine h hline hstart]
    have hpos := List.length_pos_iff.mpr hline.ne_nil
    rw [output_convertWindow_of_hitAt? forall₂_follows_attribute hpos hhit, if_pos h,
      Window.advance_append]
  · rw [if_neg h]
    apply output_convertWindow_append forall₂_follows_attribute
    intro passed c more hsplit
    rw [hitAt?_attributePattern]
    exact attributePattern_eq_none_of_line h hline hsplit

theorem output_convertWindow_lines (text : List Char)
    (hstart : text ≠ [] → Window.atLineStart ⟨behind, text⟩ = true) :
    (convertWindow [attributeRecognizer] config ⟨behind, text⟩).output =
      ((lines text).filter fun line => ¬IsAttributeLine line).flatten := by
  induction text using line_induction generalizing behind with
  | nil => exact output_convertWindow_nil behind
  | cons line rest hline ih =>
      have hlater : rest ≠ [] → Window.atLineStart ⟨line.reverse ++ behind, rest⟩ = true := by
        intro hne
        simp [Window.atLineStart, hline.getLast? hne]
      have hne : line ++ rest ≠ [] := List.append_ne_nil_of_left_ne_nil hline.ne_nil rest
      rw [output_convertWindow_line hline (hstart hne), ih hlater, hline.lines_append]
      by_cases h : IsAttributeLine line
      · simp [h]
      · simp [h]

end Run

/-- **The removal of attributes drops the attribute lines and keeps all other lines**, and what is
left stays as it is when attributes are removed again. -/
theorem output_attributeRecognizer_eq_filter (config config' : Config) (source : String) :
    let left := (convertWith [attributeRecognizer] config source).output
    left = ((lines source.toList).filter fun line => ¬IsAttributeLine line).flatten ∧
      (convertWith [attributeRecognizer] config' (String.ofList left)).output = left := by
  have hfilter (config : Config) (text : List Char) :
      (convertWindow [attributeRecognizer] config (.ofText text)).output =
        ((lines text).filter fun line => ¬IsAttributeLine line).flatten :=
    output_convertWindow_lines text fun _ => rfl
  intro left
  have hleft : left = ((lines source.toList).filter fun line => ¬IsAttributeLine line).flatten :=
    hfilter config source.toList
  refine ⟨hleft, ?_⟩
  rw [convertWith, String.toList_ofList, hfilter, hleft, lines_flatten_filter, List.filter_filter]
  simp

/-- A line with anything else on it stays, and the last line need not end. -/
example : (convertWith [attributeRecognizer] {} "[A]\r\n[B] // C\n\t[D] ").output =
    "[B] // C\n".toList := by
  decide +kernel

end TypeScribe
