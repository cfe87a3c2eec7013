import Mathlib.Data.List.TakeWhile
import TypeScribe.Proofs.Scan.Suffix
import TypeScribe.Proofs.Text.CharClass
import TypeScribe.Proofs.Text.LineEnding

/-!
# Reading summary blocks

A summary block is a line with the opening tag, lines of documentation, and the closing tag on a line
of its own. Any number of its lines may look like closing ones. Where such a block stands one is read,
and what is read is the block up to the first closing tag.
-/

namespace TypeScribe.Scan

open Text

def Blanks (text : List Char) : Prop := ∀ c ∈ text, isBlank c = true

instance (text : List Char) : Decidable (Blanks text) :=
  decidable_of_iff (text.all isBlank = true) (by rw [List.all_eq_true]; rfl)

/-- A tag behind the slashes of its line, with blanks between them. -/
def tagChars (gap : List Char) (tag : String) : List Char := "///".toList ++ (gap ++ tag.toList)

structure OpeningLine where
  gap : List Char
  trail : List Char
  ending : LineEnding
  blanks_gap : Blanks gap
  blanks_trail : Blanks trail

def OpeningLine.chars (line : OpeningLine) : List Char :=
  tagChars line.gap "<summary>" ++ (line.trail ++ line.ending.chars)

/-- A line between the tags. What it holds may be anything, a closing tag too. -/
structure DocLine where
  indent : List Char
  content : List Char
  ending : LineEnding
  blanks_indent : Blanks indent
  unbroken_content : Unbroken content

def DocLine.chars (line : DocLine) : List Char :=
  line.indent ++ ("///".toList ++ (line.content ++ line.ending.chars))

def DocLine.summaryLine (line : DocLine) : SummaryLine := ⟨line.indent, line.content⟩

/-- Nothing but blanks stands between the slashes and a closing tag. -/
def DocLine.IsClosing (line : DocLine) : Prop :=
  ∃ gap rest, Blanks gap ∧ line.content = gap ++ ("</summary>".toList ++ rest)

/-- The closing line up to its tag. -/
structure ClosingLine where
  indent : List Char
  gap : List Char
  blanks_indent : Blanks indent
  blanks_gap : Blanks gap

def ClosingLine.chars (line : ClosingLine) : List Char :=
  line.indent ++ tagChars line.gap "</summary>"

structure SummaryBlock where
  opening : OpeningLine
  lines : List DocLine
  closing : ClosingLine

def SummaryBlock.chars (block : SummaryBlock) : List Char :=
  block.opening.chars ++ (block.lines.flatMap DocLine.chars ++ block.closing.chars)

/-- The block ends with its first closing tag. -/
def SummaryBlock.EndsFirst (block : SummaryBlock) : Prop := ∀ line ∈ block.lines, ¬line.IsClosing

variable {text rest : List Char} {tag : String}

/-! ### Tags and line breaks -/

theorem skipBlanks_append {blanks : List Char} (hblanks : Blanks blanks)
    (hrest : rest.head?.any isBlank = false) : skipBlanks (blanks ++ rest) = rest :=
  dropWhile_append_of_boundary hblanks hrest

/-- A line ending bounds every class without line breaks. -/
theorem head?_any_ending {p : Char → Bool} (hp : ∀ c, isLineBreak c = true → p c = false)
    (ending : LineEnding) (rest : List Char) : (ending.chars ++ rest).head?.any p = false := by
  obtain ⟨c, hhead, hbreak⟩ := ending.exists_head?_append rest
  rw [hhead]
  exact hp c hbreak

theorem isBlank_eq_false_of_isLineBreak {c : Char} (h : isLineBreak c = true) :
    isBlank c = false := by
  rw [Bool.eq_false_iff]
  intro hblank
  simp [isLineBreak_eq_false_of_isBlank hblank] at h

theorem readNewline?_append (ending : LineEnding) (rest : List Char) :
    readNewline? (ending.chars ++ rest) = some rest := by
  cases ending <;> rfl

theorem exists_ending_of_readNewline? (h : readNewline? text = some rest) :
    ∃ ending : LineEnding, text = ending.chars ++ rest := by
  obtain ⟨newline, hnewline, rfl⟩ := exists_of_readNewline? h
  simp only [List.mem_cons, List.not_mem_nil, or_false] at hnewline
  rcases hnewline with rfl | rfl
  · exact ⟨.lf, rfl⟩
  · exact ⟨.crlf, rfl⟩

theorem readText?_append (fixed : String) (rest : List Char) :
    readText? fixed (fixed.toList ++ rest) = some rest :=
  isPrefixOf?_eq_some_iff.mpr rfl

theorem readTag?_eq_some_iff (htag : tag.toList.head?.any isBlank = false) (hne : tag ≠ "") :
    readTag? tag text = some rest ↔ ∃ gap, Blanks gap ∧ text = tagChars gap tag ++ rest := by
  have hhead : (tag.toList ++ rest).head?.any isBlank = false := by
    cases hchars : tag.toList with
    | nil => exact absurd (by simpa using hchars) hne
    | cons c more => simpa [hchars] using htag
  constructor
  · intro h
    obtain ⟨after, hslashes, h⟩ := Option.bind_eq_some_iff.mp h
    refine ⟨after.takeWhile isBlank, fun c hc => List.mem_takeWhile_imp hc, ?_⟩
    rw [eq_append_of_readText? hslashes, tagChars, List.append_assoc, List.append_assoc,
      ← eq_append_of_readText? h, skipBlanks, List.takeWhile_append_dropWhile]
  · rintro ⟨gap, hgap, rfl⟩
    rw [readTag?, tagChars, List.append_assoc, List.append_assoc, readText?_append,
      Option.bind_some, skipBlanks_append hgap hhead, readText?_append]

theorem readTag?_opening_iff : readTag? "<summary>" text = some rest ↔
    ∃ gap, Blanks gap ∧ text = tagChars gap "<summary>" ++ rest :=
  readTag?_eq_some_iff rfl (by decide)

theorem readTag?_closing_iff : readTag? "</summary>" text = some rest ↔
    ∃ gap, Blanks gap ∧ text = tagChars gap "</summary>" ++ rest :=
  readTag?_eq_some_iff rfl (by decide)

/-! ### Single lines -/

theorem DocLine.append_eq (line : DocLine) (rest : List Char) : line.chars ++ rest =
    line.indent ++ ("///".toList ++ (line.content ++ (line.ending.chars ++ rest))) := by
  rw [chars, List.append_assoc, List.append_assoc, List.append_assoc]

theorem DocLine.skipBlanks_append (line : DocLine) (rest : List Char) :
    skipBlanks (line.chars ++ rest) =
      "///".toList ++ (line.content ++ (line.ending.chars ++ rest)) := by
  rw [append_eq]
  exact Scan.skipBlanks_append line.blanks_indent rfl

theorem readSummaryLine?_append (line : DocLine) (rest : List Char) :
    readSummaryLine? (line.chars ++ rest) = some (line.summaryLine, rest) := by
  have hbreak : (line.ending.chars ++ rest).head?.any (!isLineBreak ·) = false :=
    head?_any_ending (by simp) line.ending rest
  have hcontent : ∀ c ∈ line.content, (!isLineBreak c) = true := fun c hc => by
    simp [line.unbroken_content c hc]
  have hindent : (line.chars ++ rest).takeWhile isBlank = line.indent := by
    rw [line.append_eq]
    exact takeWhile_append_of_boundary line.blanks_indent rfl
  rw [readSummaryLine?, line.skipBlanks_append, readText?_append, hindent]
  simp [takeWhile_append_of_boundary hcontent hbreak, dropWhile_append_of_boundary hcontent hbreak,
    readNewline?_append, DocLine.summaryLine]

theorem exists_of_readSummaryLine? {line : SummaryLine}
    (h : readSummaryLine? text = some (line, rest)) :
    ∃ doc : DocLine, text = doc.chars ++ rest ∧ line = doc.summaryLine := by
  obtain ⟨behind, hslashes, h⟩ := Option.bind_eq_some_iff.mp h
  obtain ⟨after, hnewline, heq⟩ := Option.bind_eq_some_iff.mp h
  obtain ⟨rfl, rfl⟩ := by simpa using heq
  obtain ⟨ending, hending⟩ := exists_ending_of_readNewline? hnewline
  refine ⟨⟨text.takeWhile isBlank, behind.takeWhile (!isLineBreak ·), ending,
    fun c hc => List.mem_takeWhile_imp hc,
    fun c hc => by simpa using List.mem_takeWhile_imp hc⟩, ?_, rfl⟩
  rw [DocLine.append_eq, ← hending, List.takeWhile_append_dropWhile,
    ← eq_append_of_readText? hslashes, skipBlanks, List.takeWhile_append_dropWhile]

/-- No line holds a piece of text across its end. -/
theorem prefix_of_prefix_append_ending {piece content : List Char} {ending : LineEnding}
    (hpiece : Unbroken piece) (h : piece <+: content ++ (ending.chars ++ rest)) :
    piece <+: content := by
  rcases List.prefix_or_prefix_of_prefix h (List.prefix_append content _) with hprefix | hprefix
  · exact hprefix
  · obtain ⟨more, rfl⟩ := hprefix
    rw [List.prefix_append_right_inj] at h
    cases more with
    | nil => simp
    | cons c more =>
        obtain ⟨d, hhead, hbreak⟩ := ending.exists_head?_append rest
        obtain ⟨after, hafter⟩ := h
        rw [← hafter] at hhead
        obtain rfl := Option.some.inj hhead
        exact absurd (hpiece c (by simp)) (by simp [hbreak])

theorem DocLine.isClosing_iff_readTag? (line : DocLine) (rest : List Char) :
    line.IsClosing ↔ (readTag? "</summary>" (skipBlanks (line.chars ++ rest))).isSome = true := by
  rw [line.skipBlanks_append, Option.isSome_iff_exists]
  constructor
  · rintro ⟨gap, more, hgap, hcontent⟩
    refine ⟨more ++ (line.ending.chars ++ rest), readTag?_closing_iff.mpr ⟨gap, hgap, ?_⟩⟩
    rw [hcontent, tagChars]
    simp
  · rintro ⟨after, hafter⟩
    obtain ⟨gap, hgap, heq⟩ := readTag?_closing_iff.mp hafter
    rw [tagChars, List.append_assoc, List.append_cancel_left_eq] at heq
    have hpiece : Unbroken (gap ++ "</summary>".toList) :=
      Unbroken.append (fun c hc => isLineBreak_eq_false_of_isBlank (hgap c hc)) (by decide)
    obtain ⟨more, hmore⟩ := prefix_of_prefix_append_ending hpiece (heq ▸ List.prefix_append _ after)
    refine ⟨gap, more, hgap, ?_⟩
    rw [← hmore, List.append_assoc]

instance : DecidablePred DocLine.IsClosing := fun line =>
  decidable_of_iff _ (line.isClosing_iff_readTag? []).symm

instance : DecidablePred SummaryBlock.EndsFirst := fun block =>
  inferInstanceAs (Decidable (∀ line ∈ block.lines, ¬line.IsClosing))

/-! ### The lines up to the closing tag -/

theorem readSummaryLines?_closing (closing : ClosingLine) (rest : List Char) :
    readSummaryLines? (closing.chars ++ rest) = some ([], rest) := by
  have hskip : skipBlanks (closing.chars ++ rest) = tagChars closing.gap "</summary>" ++ rest := by
    rw [ClosingLine.chars, List.append_assoc]
    exact skipBlanks_append closing.blanks_indent rfl
  rw [readSummaryLines?, hskip, readTag?_closing_iff.mpr ⟨closing.gap, closing.blanks_gap, rfl⟩]

theorem readSummaryLines?_of_isClosing {line : DocLine} (h : line.IsClosing) (rest : List Char) :
    (readSummaryLines? (line.chars ++ rest)).isSome = true := by
  obtain ⟨after, hafter⟩ := Option.isSome_iff_exists.mp ((line.isClosing_iff_readTag? rest).mp h)
  rw [readSummaryLines?, hafter]
  rfl

theorem readSummaryLines?_of_not_isClosing {line : DocLine} (h : ¬line.IsClosing)
    (rest : List Char) : readSummaryLines? (line.chars ++ rest) =
      (readSummaryLines? rest).map fun (lines, after) => (line.summaryLine :: lines, after) := by
  have hnone : readTag? "</summary>" (skipBlanks (line.chars ++ rest)) = none := by
    rwa [line.isClosing_iff_readTag? rest, Bool.not_eq_true, Option.isSome_eq_false_iff,
      Option.isNone_iff_eq_none] at h
  have hline := readSummaryLine?_append line rest
  rw [readSummaryLines?, hnone]
  dsimp only
  split
  · next hread => simp [hline] at hread
  · next found after hread =>
      obtain ⟨rfl, rfl⟩ := by simpa using hline.symm.trans hread
      rfl

theorem readSummaryLines?_append {lines : List DocLine} (h : ∀ line ∈ lines, ¬line.IsClosing)
    (closing : ClosingLine) (rest : List Char) :
    readSummaryLines? (lines.flatMap DocLine.chars ++ (closing.chars ++ rest)) =
      some (lines.map DocLine.summaryLine, rest) := by
  induction lines with
  | nil => exact readSummaryLines?_closing closing rest
  | cons line lines ih =>
      rw [List.forall_mem_cons] at h
      rw [List.flatMap_cons, List.append_assoc, readSummaryLines?_of_not_isClosing h.1, ih h.2]
      rfl

/-- Reading stops at the first closing tag, so it stops, whatever the lines hold. -/
theorem isSome_readSummaryLines? (lines : List DocLine) (closing : ClosingLine)
    (rest : List Char) :
    (readSummaryLines? (lines.flatMap DocLine.chars ++ (closing.chars ++ rest))).isSome = true := by
  induction lines with
  | nil =>
      rw [List.flatMap_nil, List.nil_append, readSummaryLines?_closing]
      rfl
  | cons line lines ih =>
      rw [List.flatMap_cons, List.append_assoc]
      by_cases hclosing : line.IsClosing
      · exact readSummaryLines?_of_isClosing hclosing _
      · rw [readSummaryLines?_of_not_isClosing hclosing, Option.isSome_map, ih]

theorem exists_of_readSummaryLines? {found : List SummaryLine}
    (h : readSummaryLines? text = some (found, rest)) :
    ∃ (lines : List DocLine) (closing : ClosingLine),
      text = lines.flatMap DocLine.chars ++ (closing.chars ++ rest) ∧
        (∀ line ∈ lines, ¬line.IsClosing) ∧ found = lines.map DocLine.summaryLine := by
  induction hlength : text.length using Nat.strongRecOn generalizing text found with
  | ind length ih =>
      subst hlength
      rw [readSummaryLines?] at h
      split at h
      · next after htag =>
          obtain ⟨rfl, rfl⟩ := by simpa using h
          obtain ⟨gap, hgap, htext⟩ := readTag?_closing_iff.mp htag
          refine ⟨[], ⟨text.takeWhile isBlank, gap, fun c hc => List.mem_takeWhile_imp hc, hgap⟩,
            ?_, by simp, rfl⟩
          rw [List.flatMap_nil, List.nil_append, ClosingLine.chars, List.append_assoc, ← htext,
            skipBlanks, List.takeWhile_append_dropWhile]
      · next hnone =>
          split at h
          · simp at h
          · next line after hline =>
              obtain ⟨⟨others, last⟩, hothers, heq⟩ := Option.map_eq_some_iff.mp h
              obtain ⟨rfl, rfl⟩ := by simpa using heq
              obtain ⟨lines, closing, htext, hlines, rfl⟩ :=
                ih _ (length_lt_of_readSummaryLine? hline) hothers rfl
              obtain ⟨doc, rfl, rfl⟩ := exists_of_readSummaryLine? hline
              refine ⟨doc :: lines, closing, ?_, ?_, rfl⟩
              · rw [List.flatMap_cons, List.append_assoc, htext]
              · rw [List.forall_mem_cons, doc.isClosing_iff_readTag? after, hnone]
                exact ⟨by simp, hlines⟩

/-! ### Blocks -/

theorem readSummary?_append (opening : OpeningLine) (rest : List Char) :
    readSummary? (opening.chars ++ rest) = readSummaryLines? rest := by
  have htag := readTag?_opening_iff.mpr ⟨opening.gap, opening.blanks_gap,
    List.append_assoc _ (opening.trail ++ opening.ending.chars) rest⟩
  have hblank : (opening.ending.chars ++ rest).head?.any isBlank = false :=
    head?_any_ending (fun _ => isBlank_eq_false_of_isLineBreak) opening.ending rest
  rw [readSummary?, OpeningLine.chars, htag]
  simp [skipBlanks_append opening.blanks_trail hblank, readNewline?_append]

theorem readSummary?_eq_some_iff {found : List SummaryLine} :
    readSummary? text = some (found, rest) ↔ ∃ block : SummaryBlock, block.EndsFirst ∧
      text = block.chars ++ rest ∧ found = block.lines.map DocLine.summaryLine := by
  constructor
  · intro h
    obtain ⟨after, htag, hbehind⟩ := Option.bind_eq_some_iff.mp h
    obtain ⟨more, hnewline, hread⟩ := Option.bind_eq_some_iff.mp hbehind
    obtain ⟨gap, hgap, rfl⟩ := readTag?_opening_iff.mp htag
    obtain ⟨ending, hending⟩ := exists_ending_of_readNewline? hnewline
    obtain ⟨lines, closing, rfl, hlines, rfl⟩ := exists_of_readSummaryLines? hread
    let opening : OpeningLine :=
      ⟨gap, after.takeWhile isBlank, ending, hgap, fun c hc => List.mem_takeWhile_imp hc⟩
    refine ⟨⟨opening, lines, closing⟩, hlines, ?_, rfl⟩
    rw [SummaryBlock.chars, OpeningLine.chars, List.append_assoc, List.append_assoc,
      List.append_assoc, List.append_assoc, ← hending, skipBlanks, List.takeWhile_append_dropWhile]
  · rintro ⟨block, hblock, rfl, rfl⟩
    rw [SummaryBlock.chars, List.append_assoc, List.append_assoc, readSummary?_append,
      readSummaryLines?_append hblock]

theorem isSome_readSummary? (block : SummaryBlock) (rest : List Char) :
    (readSummary? (block.chars ++ rest)).isSome = true := by
  rw [SummaryBlock.chars, List.append_assoc, List.append_assoc, readSummary?_append]
  exact isSome_readSummaryLines? block.lines block.closing rest

end TypeScribe.Scan
