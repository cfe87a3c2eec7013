import TypeScribe.Proofs.Scan.SummaryBlock

/-!
# The comment of a summary block

The comment holds the texts of the lines that show something, in order, each but the first behind an
asterisk on a line of its own. It ends where it is meant to just if no text holds the end of a comment
and none that follows an asterisk begins with a slash.
-/

namespace TypeScribe.Scan

open Text

/-- What the line says: its content less one leading blank. -/
def DocLine.text (line : DocLine) : List Char :=
  if line.content.head?.any isBlank then line.content.tail else line.content

/-- The lines that say more than white space. -/
def SummaryBlock.shown (block : SummaryBlock) : List DocLine :=
  block.lines.filter fun line => line.text.any (!isSpace ·)

def SummaryBlock.ending (block : SummaryBlock) : LineEnding :=
  if ['\r', '\n'] <:+: block.chars then .crlf else .lf

def SummaryBlock.comment (block : SummaryBlock) : List Char :=
  let rows := block.shown.mapIdx fun place line =>
    (if place = 0 then [] else block.ending.chars ++ line.indent ++ ['*']) ++ line.text
  "/*".toList ++ rows.flatten ++ " */".toList

/-! ### What is written -/

theorem DocLine.text_summaryLine (line : DocLine) : line.summaryLine.text = line.text := by
  rw [summaryLine, SummaryLine.text, text]
  cases line.content with
  | nil => rfl
  | cons c rest => rfl

theorem DocLine.indent_summaryLine (line : DocLine) : line.summaryLine.indent = line.indent := rfl

theorem DocLine.isVacant_summaryLine (line : DocLine) :
    line.summaryLine.isVacant = !line.text.any (!isSpace ·) := by
  rw [SummaryLine.isVacant, text_summaryLine, List.not_any_eq_all_not]
  simp

theorem SummaryBlock.filter_summaryLines (block : SummaryBlock) :
    (block.lines.map DocLine.summaryLine).filter (!·.isVacant) =
      block.shown.map DocLine.summaryLine := by
  rw [List.filter_map, shown]
  simp [Function.comp_def, DocLine.isVacant_summaryLine]

theorem SummaryBlock.newlineOf_chars (block : SummaryBlock) :
    newlineOf block.chars = block.ending.chars := by
  rw [newlineOf, ending, apply_ite LineEnding.chars]
  exact if_congr hasPair_eq_true_iff rfl rfl

theorem mapIdx_of_forall_eq {α β : Type} {f : Nat → α → β} {g : α → β}
    (h : ∀ place value, f place value = g value) (values : List α) :
    values.mapIdx f = values.map g := by
  induction values generalizing f with
  | nil => rfl
  | cons value values ih =>
      rw [List.mapIdx_cons, List.map_cons, h, ih fun place => h (place + 1)]

/-- The texts behind the first, each with the line break and the asterisk before it. -/
def laterRows (ending : LineEnding) (lines : List DocLine) : List Char :=
  lines.flatMap fun line => ending.chars ++ line.indent ++ ['*'] ++ line.text

theorem laterRows_cons (ending : LineEnding) (line : DocLine) (lines : List DocLine) :
    laterRows ending (line :: lines) =
      (ending.chars ++ line.indent) ++ (['*'] ++ (line.text ++ laterRows ending lines)) := by
  simp [laterRows]

theorem SummaryBlock.comment_of_cons {block : SummaryBlock} {line : DocLine} {lines : List DocLine}
    (h : block.shown = line :: lines) : block.comment =
      "/*".toList ++ (line.text ++ laterRows block.ending lines) ++ " */".toList := by
  unfold comment
  rw [h, List.mapIdx_cons, mapIdx_of_forall_eq (g := fun line =>
    block.ending.chars ++ line.indent ++ ['*'] ++ line.text) (by simp)]
  rfl

theorem SummaryBlock.blockComment_eq (block : SummaryBlock) :
    blockComment block.ending.chars (block.shown.map DocLine.summaryLine) = block.comment := by
  cases hshown : block.shown with
  | nil =>
      unfold blockComment comment
      rw [hshown]
      rfl
  | cons line lines =>
      rw [block.comment_of_cons hshown]
      unfold blockComment
      simp [laterRows, List.flatMap_map, DocLine.text_summaryLine, DocLine.indent_summaryLine]

theorem SummaryBlock.prefix_comment (block : SummaryBlock) : "/*".toList <+: block.comment := by
  unfold comment
  rw [List.append_assoc]
  exact List.prefix_append _ _

theorem SummaryBlock.suffix_comment (block : SummaryBlock) : ['*', '/'] <:+ block.comment :=
  (List.suffix_append [' '] _).trans (List.suffix_append _ " */".toList)

theorem summaryPattern_eq_some_iff {window : Window} {hit : Hit} :
    summaryPattern window = some hit ↔ ∃ (block : SummaryBlock) (rest : List Char),
      block.EndsFirst ∧ window.ahead = block.chars ++ rest ∧
        hit = ⟨block.chars.length, block.comment⟩ := by
  have hhit : ∀ (block : SummaryBlock) (rest : List Char), window.ahead = block.chars ++ rest →
      (⟨window.ahead.length - rest.length,
        blockComment (newlineOf (window.ahead.take (window.ahead.length - rest.length)))
          ((block.lines.map DocLine.summaryLine).filter (!·.isVacant))⟩ : Hit) =
        ⟨block.chars.length, block.comment⟩ := by
    intro block rest hahead
    rw [hahead, List.length_append, Nat.add_sub_cancel, List.take_left, block.newlineOf_chars,
      block.filter_summaryLines, block.blockComment_eq]
  constructor
  · intro h
    obtain ⟨⟨found, rest⟩, hsummary, h⟩ := Option.bind_eq_some_iff.mp h
    obtain ⟨block, hblock, hahead, rfl⟩ := readSummary?_eq_some_iff.mp hsummary
    exact ⟨block, rest, hblock, hahead, (Option.some.inj h).symm.trans (hhit block rest hahead)⟩
  · rintro ⟨block, rest, hblock, hahead, rfl⟩
    have hsummary := readSummary?_eq_some_iff.mpr ⟨block, hblock, hahead, rfl⟩
    rw [summaryPattern, hsummary, ← hhit block rest hahead]
    rfl

/-- A block that stands ahead is hit, up to its first closing tag. -/
theorem isSome_summaryPattern {window : Window} {block : SummaryBlock} {rest : List Char}
    (h : window.ahead = block.chars ++ rest) : (summaryPattern window).isSome = true := by
  obtain ⟨found, hfound⟩ := Option.isSome_iff_exists.mp (isSome_readSummary? block rest)
  rw [summaryPattern, h, hfound]
  rfl

/-! ### Where the comment ends -/

/-- A block comment that ends with its first `*/`. -/
def IsClosedComment (text : List Char) : Prop :=
  ∃ inside, text = "/*".toList ++ (inside ++ ['*', '/']) ∧
    ∀ front back, inside ++ ['*', '/'] = front ++ (['*', '/'] ++ back) → back = []

/-- No text of the block ends the comment, by itself or with the asterisk before it. -/
def SummaryBlock.HoldsNoEnd (block : SummaryBlock) : Prop :=
  (∀ line ∈ block.shown, ¬['*', '/'] <:+: line.text) ∧
    ∀ line ∈ block.shown.tail, line.text.head? ≠ some '/'

instance : DecidablePred SummaryBlock.HoldsNoEnd := fun _ => instDecidableAnd

section Ends

variable {text : List Char}

/-- Before the last `*/` there is a blank, so any other stands in the text before that. -/
theorem isClosedComment_iff :
    IsClosedComment ("/*".toList ++ text ++ " */".toList) ↔ ¬['*', '/'] <:+: text := by
  have hinside : ∀ inside, "/*".toList ++ text ++ " */".toList =
      "/*".toList ++ (inside ++ ['*', '/']) ↔ inside = text ++ [' '] := by
    intro inside
    rw [List.append_assoc, List.append_cancel_left_eq, show " */".toList = [' '] ++ ['*', '/'] from rfl,
      ← List.append_assoc, List.append_cancel_right_eq, eq_comm]
  constructor
  · rintro ⟨inside, heq, hlast⟩ ⟨front, back, rfl⟩
    obtain rfl := (hinside inside).mp heq
    have hnil := hlast front (back ++ " */".toList) (by simp)
    simp at hnil
  · intro htext
    refine ⟨text ++ [' '], (hinside _).mpr rfl, fun front back heq => ?_⟩
    by_contra hback
    obtain ⟨more, c, rfl⟩ := (List.eq_nil_or_concat' back).resolve_left hback
    have hconcat : ((text ++ [' ']) ++ ['*']) ++ ['/'] =
        (front ++ (['*', '/'] ++ more)) ++ [c] := by simpa using heq
    have hpair : ['*', '/'] <:+: (text ++ [' ']) ++ ['*'] :=
      ⟨front, more, by rw [(List.append_inj' hconcat rfl).1, List.append_assoc]⟩
    rw [pair_infix_append_left_iff (by decide), pair_infix_append_left_iff (by decide)] at hpair
    exact htext hpair

theorem head?_laterRows_ne (ending : LineEnding) (lines : List DocLine) :
    (laterRows ending lines).head? ≠ some '/' := by
  cases lines with
  | nil => simp [laterRows]
  | cons line lines =>
      obtain ⟨c, hhead, hbreak⟩ := ending.exists_head?_append
        (line.indent ++ (['*'] ++ (line.text ++ laterRows ending lines)))
      rw [laterRows_cons, List.append_assoc, hhead]
      rintro ⟨⟩
      exact absurd hbreak (by decide)

theorem not_mem_break (ending : LineEnding) (line : DocLine) :
    '*' ∉ ending.chars ++ line.indent := by
  refine List.not_mem_append (by cases ending <;> decide) fun hmem => ?_
  exact absurd (line.blanks_indent '*' hmem) (by decide)

/-- The end of a comment stands within one text or begins with the asterisk before one. -/
theorem infix_laterRows_iff (ending : LineEnding) (lines : List DocLine) (text : List Char) :
    ['*', '/'] <:+: text ++ laterRows ending lines ↔ ['*', '/'] <:+: text ∨
      ∃ line ∈ lines, ['*', '/'] <:+: line.text ∨ line.text.head? = some '/' := by
  induction lines generalizing text with
  | nil => simp [laterRows]
  | cons line lines ih =>
      have hrows := head?_laterRows_ne ending (line :: lines)
      have hseam : (line.text ++ laterRows ending lines).head? = some '/' ↔
          line.text.head? = some '/' := by
        cases line.text with
        | nil => simpa using head?_laterRows_ne ending lines
        | cons c more => rfl
      rw [pair_infix_append_iff]
      simp only [hrows, and_false, or_false]
      rw [laterRows_cons, pair_infix_append_right_iff (not_mem_break ending line),
        pair_infix_append_iff, hseam, ih, List.exists_mem_cons_iff]
      simp only [show ¬['*', '/'] <:+: ['*'] by decide, List.getLast?_singleton, true_and, false_or]
      exact or_congr_right or_right_comm

/-- **The comment of a block is closed where it ends** just if no text of the block closes it. -/
theorem SummaryBlock.isClosedComment_comment_iff (block : SummaryBlock) :
    IsClosedComment block.comment ↔ block.HoldsNoEnd := by
  rw [HoldsNoEnd]
  cases hshown : block.shown with
  | nil =>
      have hcomment : block.comment = "/*".toList ++ [] ++ " */".toList := by
        unfold comment
        rw [hshown]
        rfl
      rw [hcomment, isClosedComment_iff]
      simp
  | cons line lines =>
      rw [block.comment_of_cons hshown, isClosedComment_iff, infix_laterRows_iff, List.tail_cons,
        List.forall_mem_cons, and_assoc]
      simp only [not_or, not_exists, not_and, forall_and, ne_eq]

end Ends

end TypeScribe.Scan
