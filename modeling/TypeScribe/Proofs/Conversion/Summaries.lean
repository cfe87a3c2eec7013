import TypeScribe.Proofs.Scan.BlockComment
import TypeScribe.Proofs.Scan.Steadiness

/-!
# Summary blocks become comments

From a cursor on, the first summary block that stands in the text is replaced, up to its first closing
tag, and nothing else is. Its comment holds all that the lines of the block say, so what they say can
also end the comment early.
-/

namespace TypeScribe

open Text Scan

/-- The block stands at the byte `position` of the text. -/
def Scan.SummaryBlock.StandsAt (block : SummaryBlock) (text : List Char) (position : Nat) : Prop :=
  ∃ front rest, text = front ++ (block.chars ++ rest) ∧ byteLength front = position

/-! ### Places -/

section Places

variable {window : Window} {block : SummaryBlock} {position count more : Nat}

theorem Scan.SummaryBlock.standsAt_cursor_iff :
    block.StandsAt window.source window.cursor ↔ ∃ rest, window.ahead = block.chars ++ rest := by
  constructor
  · rintro ⟨front, rest, htext, hcursor⟩
    refine ⟨rest, ?_⟩
    rw [← window.atByte_cursor, htext, ← hcursor, Window.atByte_append]
  · rintro ⟨rest, hahead⟩
    refine ⟨window.behind.reverse, rest, ?_, ?_⟩
    · rw [← hahead, Window.source]
    · rw [byteLength_reverse, Window.cursor]

theorem Scan.SummaryBlock.standsAt_advance_iff :
    block.StandsAt window.source (window.advance count).cursor ↔
      ∃ rest, (window.advance count).ahead = block.chars ++ rest := by
  rw [← standsAt_cursor_iff, Window.source_advance]

theorem Scan.SummaryBlock.StandsAt.exists_advance (h : block.StandsAt window.source position)
    (hle : window.cursor ≤ position) :
    ∃ count ≤ window.ahead.length, position = (window.advance count).cursor := by
  obtain ⟨front, rest, htext, rfl⟩ := h
  have hboundary : IsBoundary window.source (byteLength front) :=
    htext ▸ isBoundary_byteLength front (block.chars ++ rest)
  obtain ⟨count, hcount, _, hplace⟩ := Window.exists_advance_of_isBoundary hboundary hle
  exact ⟨count, hcount, hplace.trans (window.cursor_advance count).symm⟩

theorem Scan.Window.cursor_advance_le_iff (hcount : count ≤ window.ahead.length)
    (hmore : more ≤ window.ahead.length) :
    (window.advance count).cursor ≤ (window.advance more).cursor ↔ count ≤ more := by
  rw [cursor_advance, cursor_advance, Nat.add_le_add_iff_left]
  exact (strictMonoOn_byteLength_take window.ahead).le_iff_le hcount hmore

theorem Scan.Window.cursor_le_advance (window : Window) (count : Nat) :
    window.cursor ≤ (window.advance count).cursor := by
  rw [cursor_advance]
  exact Nat.le_add_right _ _

theorem Scan.Window.cursor_advance_append {front rest : List Char}
    (h : window.ahead = front ++ rest) :
    (window.advance front.length).cursor = window.cursor + byteLength front := by
  rw [cursor_advance, h, List.take_left]

end Places

/-! ### Edits -/

/-- The edit replaces `block`, and from `cursor` on no summary block stands before it. -/
structure ReplacesFirst (text : List Char) (cursor : Nat) (block : SummaryBlock) (edit : Edit) :
    Prop where
  endsFirst : block.EndsFirst
  cursor_le : cursor ≤ edit.start
  standsAt : block.StandsAt text edit.start
  least : ∀ (other : SummaryBlock) (position : Nat), cursor ≤ position →
    other.StandsAt text position → edit.start ≤ position
  edit_eq : edit = ⟨"doc-summary", edit.start, edit.start + byteLength block.chars, block.comment⟩

section Edits

variable {config : Config} {window : Window} {block : SummaryBlock} {edit : Edit}

theorem replacesFirst_of_hit {count : Nat} {rest : List Char} (hcount : count ≤ window.ahead.length)
    (hblock : block.EndsFirst) (hahead : (window.advance count).ahead = block.chars ++ rest)
    (hnone : ∀ fewer < count, summaryPattern (window.advance fewer) = none) :
    ReplacesFirst window.source window.cursor block
      ⟨"doc-summary", (window.advance count).cursor,
        (window.advance (count + block.chars.length)).cursor, block.comment⟩ where
  endsFirst := hblock
  cursor_le := window.cursor_le_advance count
  standsAt := SummaryBlock.standsAt_advance_iff.mpr ⟨rest, hahead⟩
  least := by
    intro other position hle hother
    obtain ⟨place, hplace, rfl⟩ := hother.exists_advance hle
    obtain ⟨behind, hbehind⟩ := SummaryBlock.standsAt_advance_iff.mp hother
    refine (Window.cursor_advance_le_iff hcount hplace).mpr (Nat.le_of_not_lt fun hlt => ?_)
    have hsome := isSome_summaryPattern hbehind
    rw [hnone place hlt] at hsome
    exact absurd hsome (by simp)
  edit_eq := by
    rw [Window.advance_add, Window.cursor_advance_append hahead]

theorem ReplacesFirst.exists_hit
    (h : ReplacesFirst window.source window.cursor block edit) :
    ∃ count ≤ window.ahead.length,
      summaryPattern (window.advance count) = some ⟨block.chars.length, block.comment⟩ ∧
      (∀ fewer < count, summaryPattern (window.advance fewer) = none) ∧
      edit = ⟨"doc-summary", (window.advance count).cursor,
        (window.advance (count + block.chars.length)).cursor, block.comment⟩ := by
  obtain ⟨count, hcount, hstart⟩ := h.standsAt.exists_advance h.cursor_le
  obtain ⟨rest, hahead⟩ := SummaryBlock.standsAt_advance_iff.mp (hstart ▸ h.standsAt)
  refine ⟨count, hcount, summaryPattern_eq_some_iff.mpr ⟨block, rest, h.endsFirst, hahead, rfl⟩,
    fun fewer hfewer => ?_, ?_⟩
  · rw [Option.eq_none_iff_forall_ne_some]
    intro hit hhit
    obtain ⟨other, behind, _, hother, _⟩ := summaryPattern_eq_some_iff.mp hhit
    have hlater := h.least other _ (window.cursor_le_advance fewer)
      (SummaryBlock.standsAt_advance_iff.mpr ⟨behind, hother⟩)
    rw [hstart, Window.cursor_advance_le_iff hcount (hfewer.le.trans hcount)] at hlater
    exact absurd hfewer (Nat.not_lt.mpr hlater)
  · rw [Window.advance_add, Window.cursor_advance_append hahead, ← hstart]
    exact h.edit_eq

theorem editAt_summaryRecognizer_eq_some_iff :
    summaryRecognizer.editAt config window.source window.cursor = some edit ↔
      ∃ block, ReplacesFirst window.source window.cursor block edit := by
  rw [follows_summaryRecognizer.editAt_eq_some_iff]
  constructor
  · rintro ⟨count, hcount, hit, hhit, hnone, rfl⟩
    obtain ⟨block, rest, hblock, hahead, rfl⟩ := summaryPattern_eq_some_iff.mp hhit
    exact ⟨block, replacesFirst_of_hit hcount hblock hahead hnone⟩
  · rintro ⟨block, hreplaces⟩
    obtain ⟨count, hcount, hhit, hnone, rfl⟩ := hreplaces.exists_hit
    exact ⟨count, hcount, _, hhit, hnone, rfl⟩

theorem isSome_editAt_summaryRecognizer_iff :
    (summaryRecognizer.editAt config window.source window.cursor).isSome = true ↔
      ∃ (block : SummaryBlock) (position : Nat), window.cursor ≤ position ∧
        block.StandsAt window.source position := by
  constructor
  · intro h
    obtain ⟨edit, hedit⟩ := Option.isSome_iff_exists.mp h
    obtain ⟨block, hreplaces⟩ := editAt_summaryRecognizer_eq_some_iff.mp hedit
    exact ⟨block, edit.start, hreplaces.cursor_le, hreplaces.standsAt⟩
  · rintro ⟨block, position, hle, hstands⟩
    obtain ⟨count, hcount, rfl⟩ := hstands.exists_advance hle
    obtain ⟨rest, hahead⟩ := SummaryBlock.standsAt_advance_iff.mp hstands
    have hsome := isSome_summaryPattern hahead
    rw [summaryRecognizer.editAt_cursor, Option.isSome_map, ← Option.ne_none_iff_isSome]
    intro hnone
    rw [follows_summaryRecognizer.recognize_eq_none_iff.mp hnone count hcount] at hsome
    exact absurd hsome (by simp)

end Edits

/-- **Summary blocks become comments.** From the cursor on an edit is reported just if a block stands
in the text, and it replaces the first block, up to its first closing tag, by the comment that holds
what its lines say. -/
theorem editAt_summaryRecognizer_exact {text : List Char} {cursor : Nat}
    (hcursor : IsBoundary text cursor) (config : Config) :
    ((summaryRecognizer.editAt config text cursor).isSome = true ↔
      ∃ (block : SummaryBlock) (position : Nat), cursor ≤ position ∧ block.StandsAt text position) ∧
    ∀ edit, summaryRecognizer.editAt config text cursor = some edit ↔
      ∃ block, ReplacesFirst text cursor block edit := by
  obtain ⟨front, rest, rfl, rfl⟩ := hcursor.exists_append
  have hsource : Window.source ⟨front.reverse, rest⟩ = front ++ rest := by
    rw [Window.source, List.reverse_reverse]
  have hposition : Window.cursor ⟨front.reverse, rest⟩ = byteLength front := by
    rw [Window.cursor, byteLength_reverse]
  rw [← hsource, ← hposition]
  exact ⟨isSome_editAt_summaryRecognizer_iff, fun _ => editAt_summaryRecognizer_eq_some_iff⟩

/-- The cursor stands behind a letter of two bytes, and the block has line breaks of both kinds, a
line without text and a second closing tag. -/
theorem editAt_summaryRecognizer_two_texts :
    let text := "é/// <summary>\r\n  /// One\n///\n  ///\tTwo\r\n///  </summary>\n/// </summary>".toList
    let edit : Edit := ⟨"doc-summary", 2, 57, "/*One\r\n  *Two */".toList⟩
    IsBoundary text 2 ∧ summaryRecognizer.editAt {} text 2 = some edit ∧
      ∃ block, ReplacesFirst text 2 block edit := by
  intro text edit
  have hcursor : IsBoundary text 2 := ⟨['é'], by decide, by decide⟩
  have hedit : summaryRecognizer.editAt {} text 2 = some edit := by decide +kernel
  exact ⟨hcursor, hedit, ((editAt_summaryRecognizer_exact hcursor {}).2 edit).mp hedit⟩

/-! ### Closed comments -/

/-- **The comment of a summary is closed where it ends** just if no text of the summary closes it
earlier, by itself or with the asterisk before it. -/
theorem isClosedComment_iff_of_editAt {config : Config} {text : List Char} {cursor : Nat}
    {edit : Edit} (h : summaryRecognizer.editAt config text cursor = some edit) :
    "/*".toList <+: edit.replacement ∧ ['*', '/'] <:+ edit.replacement ∧
      (∃ block : SummaryBlock, block.EndsFirst ∧ block.StandsAt text edit.start) ∧
      ∀ block : SummaryBlock, block.EndsFirst → block.StandsAt text edit.start →
        (IsClosedComment edit.replacement ↔ block.HoldsNoEnd) := by
  obtain ⟨window, hit, rfl, hhit, rfl⟩ := follows_summaryRecognizer.exists_eq_of_editAt h
  have hblocks : ∀ block : SummaryBlock, block.EndsFirst →
      block.StandsAt window.source window.cursor → hit.replacement = block.comment := by
    intro block hblock hstands
    obtain ⟨rest, hahead⟩ := SummaryBlock.standsAt_cursor_iff.mp hstands
    have hagain := summaryPattern_eq_some_iff.mpr ⟨block, rest, hblock, hahead, rfl⟩
    exact congrArg Hit.replacement (Option.some.inj (hhit.symm.trans hagain))
  obtain ⟨block, rest, hblock, hahead, rfl⟩ := summaryPattern_eq_some_iff.mp hhit
  refine ⟨block.prefix_comment, block.suffix_comment, ⟨block, hblock, ?_⟩, fun other hother hstands => ?_⟩
  · exact SummaryBlock.standsAt_cursor_iff.mpr ⟨rest, hahead⟩
  · rw [hblocks other hother hstands]
    exact other.isClosedComment_comment_iff

theorem isClosedComment_iff_of_editAt_slashes :
    let text := "/// <summary>\n/// a / b *\n///  /c\n/// </summary>".toList
    let edit : Edit := ⟨"doc-summary", 0, 48, "/*a / b *\n* /c */".toList⟩
    summaryRecognizer.editAt {} text 0 = some edit ∧ IsClosedComment edit.replacement := by
  intro text edit
  have hedit : summaryRecognizer.editAt {} text 0 = some edit := by decide +kernel
  let opening : OpeningLine := ⟨[' '], [], .lf, by decide, by decide⟩
  let first : DocLine := ⟨[], " a / b *".toList, .lf, by decide, by decide⟩
  let second : DocLine := ⟨[], "  /c".toList, .lf, by decide, by decide⟩
  let closing : ClosingLine := ⟨[], [' '], by decide, by decide⟩
  let block : SummaryBlock := ⟨opening, [first, second], closing⟩
  have hfirst : block.EndsFirst := by decide +kernel
  have hstands : block.StandsAt text 0 := ⟨[], [], by decide +kernel, rfl⟩
  have hholds : block.HoldsNoEnd := by decide +kernel
  obtain ⟨_, _, _, hclosed⟩ := isClosedComment_iff_of_editAt hedit
  exact ⟨hedit, (hclosed block hfirst hstands).mpr hholds⟩

/-- A line that begins with four slashes closes the comment by the asterisk that is put before it. -/
theorem exists_comment_closed_early :
    ¬∀ (config : Config) (text : List Char) (cursor : Nat) (edit : Edit),
      summaryRecognizer.editAt config text cursor = some edit →
        IsClosedComment edit.replacement := by
  intro h
  have hedit : summaryRecognizer.editAt {} "/// <summary>\n/// One\n////two\n/// </summary>".toList 0 =
      some ⟨"doc-summary", 0, 44, "/*One\n*/two */".toList⟩ := by decide +kernel
  obtain ⟨inside, heq, hlast⟩ := h _ _ _ _ hedit
  have hreplacement : "/*".toList ++ ("One\n".toList ++ (['*', '/'] ++ "two */".toList)) =
      "/*".toList ++ (inside ++ ['*', '/']) := heq
  have hinside := (List.append_cancel_left hreplacement).symm
  exact absurd (hlast _ _ hinside) (by decide)

end TypeScribe
