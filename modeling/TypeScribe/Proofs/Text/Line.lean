import Mathlib.Data.List.Basic

/-!
# Lines

A line ends with a line feed, which belongs to it, and only the last line of a text may have none. A
text that is not empty begins with one line, so that what is true of a whole text can be shown line by
line.
-/

namespace TypeScribe.Text

/-- The lines of a text, each with its line feed. -/
def lines : List Char → List (List Char)
  | [] => []
  | c :: rest =>
      if c = '\n' then [c] :: lines rest
      else
        match lines rest with
        | [] => [[c]]
        | line :: others => (c :: line) :: others

/-- A line with the text behind it. Behind a line without a line feed there is none. -/
inductive FirstLine : List Char → List Char → Prop where
  | ended {content : List Char} (hfeed : '\n' ∉ content) (rest : List Char) :
      FirstLine (content ++ ['\n']) rest
  | last {content : List Char} (hfeed : '\n' ∉ content) (hne : content ≠ []) :
      FirstLine content []

@[simp]
theorem flatten_lines (text : List Char) : (lines text).flatten = text := by
  induction text with
  | nil => rfl
  | cons c rest ih =>
      rw [lines]
      by_cases hc : c = '\n'
      · rw [if_pos hc, List.flatten_cons, ih, List.singleton_append]
      · rw [if_neg hc]
        cases hlines : lines rest with
        | nil =>
            rw [hlines] at ih
            simpa using ih
        | cons line others =>
            rw [hlines, List.flatten_cons] at ih
            simp [ih]

theorem lines_cons_append {c : Char} (hc : c ≠ '\n') {text line : List Char}
    {others : List (List Char)} (h : lines text = line :: others) :
    lines (c :: text) = (c :: line) :: others := by
  rw [lines, if_neg hc, h]

section FirstLine

variable {line line' rest rest' front more : List Char} {c : Char}

theorem FirstLine.lines_append (h : FirstLine line rest) :
    lines (line ++ rest) = line :: lines rest := by
  cases h with
  | @ended content hfeed =>
      induction content with
      | nil => simp [lines]
      | cons c content ih =>
          rw [List.mem_cons, not_or] at hfeed
          exact lines_cons_append (Ne.symm hfeed.1) (ih hfeed.2)
  | last hfeed hne =>
      rw [List.append_nil]
      induction line with
      | nil => exact absurd rfl hne
      | cons c content ih =>
          rw [List.mem_cons, not_or] at hfeed
          cases content with
          | nil => simp [lines, Ne.symm hfeed.1]
          | cons d content =>
              exact lines_cons_append (Ne.symm hfeed.1) (ih hfeed.2 (List.cons_ne_nil d content))

/-- A text has one first line. -/
theorem FirstLine.eq (h : FirstLine line rest) (h' : FirstLine line' rest')
    (htext : line ++ rest = line' ++ rest') : line = line' := by
  have hlines := congrArg lines htext
  rw [h.lines_append, h'.lines_append] at hlines
  exact (List.cons.inj hlines).1

theorem exists_firstLine {text : List Char} (h : text ≠ []) :
    ∃ line rest, text = line ++ rest ∧ FirstLine line rest := by
  by_cases hfeed : '\n' ∈ text
  · obtain ⟨content, rest, rfl, hcontent⟩ := List.eq_append_cons_of_mem hfeed
    exact ⟨content ++ ['\n'], rest, by simp, .ended hcontent rest⟩
  · exact ⟨text, [], by simp, .last hfeed h⟩

/-- Before the last character of a line there is no line feed. -/
theorem FirstLine.not_mem_front (h : FirstLine (front ++ c :: more) rest) : '\n' ∉ front := by
  generalize hline : front ++ c :: more = line at h
  cases h with
  | @ended content hfeed =>
      rcases List.eq_nil_or_concat' more with rfl | ⟨more, d, rfl⟩
      · obtain ⟨rfl, _⟩ := List.append_inj' hline rfl
        exact hfeed
      · rw [← List.cons_append, ← List.append_assoc] at hline
        obtain ⟨rfl, _⟩ := List.append_inj' hline rfl
        exact fun hmem => hfeed (List.mem_append_left _ hmem)
  | last hfeed =>
      subst hline
      exact fun hmem => hfeed (List.mem_append_left _ hmem)

theorem FirstLine.ne_nil (h : FirstLine line rest) : line ≠ [] := by
  cases h with
  | ended => exact List.append_ne_nil_of_right_ne_nil _ (List.cons_ne_nil _ _)
  | last _ hne => exact hne

theorem FirstLine.getLast? (h : FirstLine line rest) (hne : rest ≠ []) :
    line.getLast? = some '\n' := by
  cases h with
  | ended => exact List.getLast?_concat
  | last => exact absurd rfl hne

end FirstLine

/-- Induction on a text line by line. -/
@[elab_as_elim]
theorem line_induction {motive : List Char → Prop} (nil : motive [])
    (cons : ∀ line rest, FirstLine line rest → motive rest → motive (line ++ rest))
    (text : List Char) : motive text := by
  induction hlength : text.length using Nat.strongRecOn generalizing text with
  | ind length ih =>
      subst hlength
      by_cases hne : text = []
      · exact hne ▸ nil
      · obtain ⟨line, rest, rfl, hline⟩ := exists_firstLine hne
        apply cons line rest hline
        apply ih rest.length ?_ rest rfl
        have hpos := List.length_pos_iff.mpr hline.ne_nil
        simp only [List.length_append]
        omega

/-- The lines that pass a filter are the lines of what is left. -/
theorem lines_flatten_filter (keep : List Char → Bool) (text : List Char) :
    lines ((lines text).filter keep).flatten = (lines text).filter keep := by
  induction text using line_induction with
  | nil => rfl
  | cons line rest hline ih =>
      rw [hline.lines_append]
      by_cases hkeep : keep line = true
      · rw [List.filter_cons_of_pos hkeep, List.flatten_cons]
        have hline' : FirstLine line ((lines rest).filter keep).flatten := by
          cases hline with
          | ended hfeed => exact .ended hfeed _
          | last hfeed hne => exact .last hfeed hne
        rw [hline'.lines_append, ih]
      · rw [List.filter_cons_of_neg hkeep, ih]

end TypeScribe.Text
