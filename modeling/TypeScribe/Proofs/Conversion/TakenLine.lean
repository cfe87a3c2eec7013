import TypeScribe.Proofs.Conversion.AttributeLines

/-!
# The line that an attribute takes

What the attribute recognizer takes is one whole line of the text, from whatever cursor it looks. The
line is told by its first and its last visible character alone: text before the first bracket or behind
the last one keeps the line, text between them does not, though it may stand outside of all brackets.
-/

namespace TypeScribe

open Text Scan

/-- Between `before` and `after` stands one whole line, with its line feed. -/
structure LineBetween (before line after : List Char) : Prop where
  starts : before.getLast?.all (· == '\n') = true
  first : FirstLine line after

section Lines

variable {before line after before' line' after' : List Char}

theorem LineBetween.before_eq_of_le (h : LineBetween before line after)
    (h' : LineBetween before' line' after')
    (htext : before ++ (line ++ after) = before' ++ (line' ++ after'))
    (hle : byteLength before ≤ byteLength before')
    (hlt : byteLength before' < byteLength (before ++ line)) : before = before' := by
  obtain ⟨between, rfl, hbetween⟩ := exists_append_of_byteLength_le htext hle
  rw [byteLength_append, byteLength_append] at hlt
  have hshort : byteLength between ≤ byteLength line := by omega
  obtain ⟨inside, rfl, _⟩ := exists_append_of_byteLength_le hbetween.symm hshort
  rcases List.eq_nil_or_concat' between with rfl | ⟨front, c, rfl⟩
  · rw [List.append_nil]
  · -- the later line would begin behind a line feed within the earlier one
    have hstarts := h'.starts
    rw [← List.append_assoc, List.getLast?_concat] at hstarts
    obtain rfl : c = '\n' := by simpa using hstarts
    have hfirst := h.first
    cases inside with
    | nil => simp at hlt
    | cons d inside => exact absurd (by simp) hfirst.not_mem_front

/-- Two lines of a text that overlap are the same line. -/
theorem LineBetween.eq_of_overlap (h : LineBetween before line after)
    (h' : LineBetween before' line' after')
    (htext : before ++ (line ++ after) = before' ++ (line' ++ after'))
    (hlt : byteLength before' < byteLength (before ++ line))
    (hlt' : byteLength before < byteLength (before' ++ line')) :
    before = before' ∧ line = line' := by
  have hbefore : before = before' := by
    rcases Nat.le_total (byteLength before) (byteLength before') with hle | hle
    · exact h.before_eq_of_le h' htext hle hlt
    · exact (h'.before_eq_of_le h htext.symm hle hlt').symm
  subst hbefore
  exact ⟨rfl, h.first.eq h'.first (List.append_cancel_left htext)⟩

end Lines

section Attribute

variable {config : Config} {text before line after : List Char} {cursor : Nat} {edit : Edit}

/-- What is taken is a line that holds bracketed text between blanks. -/
theorem exists_line_of_editAt (h : attributeRecognizer.editAt config text cursor = some edit) :
    ∃ before line after, text = before ++ (line ++ after) ∧ LineBetween before line after ∧
      IsAttributeLine line ∧
        edit = ⟨attributeRecognizer.name, byteLength before, byteLength (before ++ line), []⟩ := by
  obtain ⟨window, hit, rfl, hhit, rfl⟩ := follows_attributeRecognizer.exists_eq_of_editAt h
  rw [attributePattern] at hhit
  split at hhit
  · next hstart =>
      obtain ⟨rest, hrest, rfl⟩ := Option.map_eq_some_iff.mp hhit
      obtain ⟨line, hahead, hattribute, hline⟩ := exists_of_readAttributeLine? hrest
      have htaken : window.ahead.take (window.ahead.length - rest.length) = line := by
        rw [hahead, take_sub_length]
      refine ⟨window.behind.reverse, line, rest, ?_, ⟨?_, hline⟩, hattribute, ?_⟩
      · rw [Window.source, hahead]
      · rwa [List.getLast?_reverse]
      · rw [Window.cursor_advance, htaken, byteLength_append, byteLength_reverse, Window.cursor]
  · simp at hhit

theorem editAt_of_isAttributeLine (config : Config) (h : LineBetween before line after)
    (hattribute : IsAttributeLine line) :
    attributeRecognizer.editAt config (before ++ (line ++ after)) (byteLength before) =
      some ⟨attributeRecognizer.name, byteLength before, byteLength (before ++ line), []⟩ := by
  let window : Window := ⟨before.reverse, line ++ after⟩
  have hsource : window.source = before ++ (line ++ after) := by
    simp [window, Window.source]
  have hcursor : window.cursor = byteLength before := byteLength_reverse before
  have hstart : window.atLineStart = true := by
    rw [Window.atLineStart, List.head?_reverse]
    exact h.starts
  have hhit := attributePattern_of_isAttributeLine hattribute h.first hstart
  rw [← hsource, ← hcursor]
  refine follows_attributeRecognizer.editAt_eq_some_iff.mpr
    ⟨0, Nat.zero_le _, ⟨line.length, []⟩, hhit, by simp, ?_⟩
  rw [Nat.zero_add, Window.advance_zero, Window.cursor_advance, List.take_left, hcursor,
    byteLength_append]

/-- **A line is taken if and only if it holds bracketed text between blanks**, and then it is taken as
a whole. -/
theorem isAttributeLine_iff_exists_editAt (config : Config) (h : LineBetween before line after) :
    let text := before ++ (line ++ after)
    (IsAttributeLine line ↔ ∃ cursor edit, attributeRecognizer.editAt config text cursor = some edit ∧
        edit.start < byteLength (before ++ line) ∧ byteLength before < edit.stop) ∧
      ∀ cursor edit, attributeRecognizer.editAt config text cursor = some edit →
        edit.start < byteLength (before ++ line) → byteLength before < edit.stop →
          edit = ⟨attributeRecognizer.name, byteLength before, byteLength (before ++ line), []⟩ := by
  intro text
  have htaken : ∀ cursor edit, attributeRecognizer.editAt config text cursor = some edit →
      edit.start < byteLength (before ++ line) → byteLength before < edit.stop →
        IsAttributeLine line ∧
          edit = ⟨attributeRecognizer.name, byteLength before, byteLength (before ++ line), []⟩ := by
    intro cursor edit hedit hstart hstop
    obtain ⟨before', line', after', htext, hline, hattribute, rfl⟩ := exists_line_of_editAt hedit
    obtain ⟨rfl, rfl⟩ := h.eq_of_overlap hline htext hstart hstop
    exact ⟨hattribute, rfl⟩
  refine ⟨⟨fun hattribute => ?_, ?_⟩, fun cursor edit hedit hstart hstop =>
    (htaken cursor edit hedit hstart hstop).2⟩
  · have hlonger : byteLength before < byteLength (before ++ line) := by
      have hpos := Nat.pos_of_ne_zero (mt byteLength_eq_zero_iff.mp h.first.ne_nil)
      rw [byteLength_append]
      omega
    exact ⟨byteLength before, _, editAt_of_isAttributeLine config h hattribute, hlonger, hlonger⟩
  · rintro ⟨cursor, edit, hedit, hstart, hstop⟩
    exact (htaken cursor edit hedit hstart hstop).1

theorem isAttributeLine_iff_exists_editAt_inner_line :
    let line := "\t[Range(0, 9)] \r\n".toList
    LineBetween "é;\n".toList line "x".toList ∧ IsAttributeLine line ∧
      ∃ cursor edit, attributeRecognizer.editAt {} ("é;\n".toList ++ (line ++ "x".toList)) cursor =
        some edit ∧ edit.start < byteLength ("é;\n".toList ++ line) ∧
          byteLength "é;\n".toList < edit.stop := by
  intro line
  have hfeed : '\n' ∉ "\t[Range(0, 9)] \r".toList := by decide
  have hline : LineBetween "é;\n".toList line "x".toList := ⟨by decide, .ended hfeed _⟩
  have hattribute : IsAttributeLine line := by decide +kernel
  exact ⟨hline, hattribute, (isAttributeLine_iff_exists_editAt {} hline).1.mp hattribute⟩

/-- A line that begins with one bracketed text and ends with another is taken with the code that stands
between them. -/
theorem exists_code_taken_between_brackets :
    ¬∀ (config : Config) (lead inside between inside' trail ending before after : List Char)
        (cursor : Nat) (edit : Edit),
      let line := lead ++ '[' :: (inside ++ ']' :: (between ++ '[' :: (inside' ++ ']' :: trail))) ++
        ending
      (∀ c ∈ lead ++ trail, isBlank c = true) →
        (∀ c ∈ inside ++ between ++ inside', c ∉ ['[', ']', '\r', '\n']) →
          (∃ c ∈ between, isBlank c = false) → ending ∈ [[], ['\n'], ['\r', '\n']] →
            LineBetween before line after →
              attributeRecognizer.editAt config (before ++ (line ++ after)) cursor = some edit →
                ¬(edit.start ≤ byteLength before ∧ byteLength (before ++ line) ≤ edit.stop) := by
  intro h
  have hplain : ∀ c ∈ "Key".toList ++ " public int Id; // ".toList ++ "1".toList,
      c ∉ ['[', ']', '\r', '\n'] :=
    List.forall_iff_forall_mem.mp (by decide)
  have hline : LineBetween [] "[Key] public int Id; // [1]".toList [] :=
    ⟨by decide, .last (by decide) (by decide)⟩
  have hattribute : IsAttributeLine "[Key] public int Id; // [1]".toList := by decide +kernel
  exact h {} [] "Key".toList " public int Id; // ".toList "1".toList [] [] [] [] 0 _ (by simp)
    hplain ⟨';', by decide, by decide⟩ (by decide) hline
    (editAt_of_isAttributeLine {} hline hattribute) ⟨le_rfl, le_rfl⟩

end Attribute

end TypeScribe
