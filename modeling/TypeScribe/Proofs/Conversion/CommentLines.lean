import TypeScribe.Proofs.Scan.Steadiness

/-!
# Comment lines

A run of the built-in recognizers leaves comment lines alone, but for summary blocks. Properties and
headers are not looked for behind `//` on a line, attributes only at the start of one; and what any of
them takes holds no line that begins with a slash, so it neither reaches into a comment line nor over
one.
-/

namespace TypeScribe

open Text Scan

/-- The text from the last line feed before the position, or from the start, up to the position. -/
def Text.lineFront (text : List Char) (position : Nat) : List Char :=
  ((takeBytes position text).reverse.takeWhile (· != '\n')).reverse

/-- The text `line` between `before` and `after` is a whole line, and behind white space it begins
with two slashes. -/
structure IsCommentLine (before line after : List Char) : Prop where
  no_feed : '\n' ∉ line
  starts : before.getLast?.all (· == '\n') = true
  ends : after.head?.all (· == '\n') = true
  slashes : "//".toList <+: skipSpaces line

/-- The edit keeps off comments, unless it replaces a summary block. -/
structure LeavesComments (text : List Char) (edit : Edit) : Prop where
  /-- Where a property or a header is found, no `//` stands before it on its line. -/
  starts_outside : edit.recognizer ∈ ["auto-property", "public-member"] →
    ¬"//".toList <:+: lineFront text edit.start
  apart : edit.recognizer ∈ ["auto-property", "attribute", "public-member"] →
    ∀ before line after, text = before ++ (line ++ after) → IsCommentLine before line after →
      edit.stop ≤ byteLength before ∨ byteLength (before ++ line) ≤ edit.start
  summary_of_overlap : ∀ before line after, text = before ++ (line ++ after) →
    IsCommentLine before line after → edit.start < byteLength (before ++ line) →
      byteLength before < edit.stop → edit.recognizer = "doc-summary"

/-! ### Where the text of a line stands -/

section Lines

variable {before front more line after behind ahead taken rest : List Char} {window : Window}

theorem lineFront_append (hstarts : before.getLast?.all (· == '\n') = true) (hfeed : '\n' ∉ front)
    (rest : List Char) :
    lineFront (before ++ (front ++ rest)) (byteLength (before ++ front)) = front := by
  have hbefore : before.reverse.head?.any (· != '\n') = false := by
    rw [List.head?_reverse]
    cases hlast : before.getLast? with
    | none => rfl
    | some c =>
        rw [hlast] at hstarts
        simpa using hstarts
  rw [lineFront, ← List.append_assoc, takeBytes_append, List.reverse_append,
    takeWhile_append_of_boundary (forall_mem_reverse_ne hfeed) hbefore, List.reverse_reverse]

theorem inLineComment_eq_false_iff :
    window.inLineComment = false ↔ ¬"//".toList <:+: lineFront window.source window.cursor := by
  have hbehind : takeBytes window.cursor window.source = window.behind.reverse := by
    rw [Window.cursor, ← byteLength_reverse, Window.source, takeBytes_append]
  rw [lineFront, hbehind, List.reverse_reverse, Bool.eq_false_iff, Window.inLineComment, ne_eq,
    hasPair_eq_true_iff, ← List.reverse_infix]
  rfl

theorem IsCommentLine.head?_eq (h : IsCommentLine before line after) (rest : List Char) :
    (skipSpaces (line ++ rest)).head? = some '/' := by
  obtain ⟨more, hline⟩ := h.slashes
  rw [head?_skipSpaces_append, ← hline]
  rfl

/-- On a comment line both slashes stand before whatever begins with something else than a slash. -/
theorem IsCommentLine.slashes_infix_front (h : IsCommentLine before (front ++ more) after)
    (hmore : (skipSpaces more).head? ≠ some '/') : "//".toList <:+: front := by
  obtain ⟨text, hslashes⟩ := h.slashes
  have hsplit : skipSpaces (front ++ more) =
      if (skipSpaces front).isEmpty then skipSpaces more else skipSpaces front ++ more :=
    List.dropWhile_append
  rw [hsplit] at hslashes
  cases hvisible : skipSpaces front with
  | nil =>
      rw [hvisible] at hslashes
      exact absurd (congrArg List.head? hslashes.symm) hmore
  | cons c visible =>
      rw [hvisible] at hslashes
      obtain ⟨rfl, hslash⟩ := List.cons.inj hslashes
      cases visible with
      | nil =>
          -- the second slash would be the first character behind `front`
          refine absurd ?_ hmore
          rw [← show '/' :: text = more from hslash]
          rfl
      | cons d visible =>
          obtain ⟨rfl, _⟩ := List.cons.inj hslash
          have hprefix : "//".toList <+: skipSpaces front := ⟨visible, hvisible.symm⟩
          exact hprefix.isInfix.trans (skipSpaces_suffix front).isInfix

/-- What begins on a comment line begins behind both slashes. -/
theorem IsCommentLine.slashes_infix_lineFront (h : IsCommentLine before line after)
    (htext : behind ++ ahead = before ++ (line ++ after)) (hahead : BeginsApart ahead)
    (hbefore : byteLength before ≤ byteLength behind)
    (hstart : byteLength behind < byteLength (before ++ line)) :
    "//".toList <:+: lineFront (behind ++ ahead) (byteLength behind) := by
  obtain ⟨front, rfl, hline⟩ := exists_append_of_byteLength_le htext.symm hbefore
  have hfront : byteLength front ≤ byteLength line := by
    rw [byteLength_append, byteLength_append] at hstart
    omega
  obtain ⟨more, rfl, rfl⟩ := exists_append_of_byteLength_le hline.symm hfront
  have hmore : (skipSpaces more).head? ≠ some '/' := by
    intro hslash
    apply hahead.head?_ne
    rw [head?_skipSpaces_append, hslash, Option.some_or]
  have hfeed : '\n' ∉ front := fun hmem => h.no_feed (List.mem_append_left more hmem)
  rw [List.append_assoc, lineFront_append h.starts hfeed]
  exact h.slashes_infix_front hmore

/-- What begins before a comment line ends there at the latest. -/
theorem Scan.Uncommented.le_of_lt (htaken : Uncommented taken) (h : IsCommentLine before line after)
    (htext : behind ++ (taken ++ rest) = before ++ (line ++ after))
    (hstart : byteLength behind < byteLength before) :
    byteLength (behind ++ taken) ≤ byteLength before := by
  by_contra hreach
  obtain ⟨between, rfl, hbetween⟩ := exists_append_of_byteLength_le htext (Nat.le_of_lt hstart)
  rw [byteLength_append, byteLength_append] at hreach
  have hle : byteLength between ≤ byteLength taken := by omega
  obtain ⟨inside, rfl, hinside⟩ := exists_append_of_byteLength_le hbetween.symm hle
  rw [byteLength_append] at hreach
  -- the line begins behind a line feed, and that is taken
  rcases List.eq_nil_or_concat' between with rfl | ⟨lead, c, rfl⟩
  · simp at hstart
  · have hstarts := h.starts
    rw [← List.append_assoc, List.getLast?_concat] at hstarts
    obtain rfl : c = '\n' := by simpa using hstarts
    rcases htaken.later lead inside (List.append_assoc _ _ _) with rfl | hapart
    · simp at hreach
    · refine (hapart.append rest).head?_ne ?_
      rw [← hinside]
      exact h.head?_eq after

/-- A stretch of the text ahead that begins outside of comments keeps off every comment line. -/
theorem Scan.Uncommented.apart {count : Nat}
    (htaken : Uncommented (window.ahead.take count)) (hcomment : window.inLineComment = false)
    (hline : IsCommentLine before line after) (htext : window.source = before ++ (line ++ after)) :
    (window.advance count).cursor ≤ byteLength before ∨
      byteLength (before ++ line) ≤ window.cursor := by
  have hsource : window.behind.reverse ++ (window.ahead.take count ++ window.ahead.drop count) =
      before ++ (line ++ after) := by
    rw [List.take_append_drop, ← htext, Window.source]
  have hcursor : window.cursor = byteLength window.behind.reverse :=
    (byteLength_reverse window.behind).symm
  rw [Window.cursor_advance, hcursor, ← byteLength_append]
  rcases Nat.lt_or_ge (byteLength window.behind.reverse) (byteLength before) with hstart | hbefore
  · exact .inl (htaken.le_of_lt hline hsource hstart)
  · refine .inr (Nat.le_of_not_lt fun hstart => ?_)
    have hslashes := hline.slashes_infix_lineFront hsource (htaken.first.append _) hbefore hstart
    rw [List.take_append_drop, ← hcursor] at hslashes
    exact inLineComment_eq_false_iff.mp hcomment hslashes

end Lines

/-! ### What the recognizers take -/

/-- What a recognizer finds begins outside of comments and holds no comment line. -/
structure KeepsOff (window : Window) (hit : Hit) : Prop where
  inLineComment : window.inLineComment = false
  uncommented : Uncommented (window.ahead.take hit.length)

theorem uncommented_take {text rest : List Char}
    (h : ∃ taken, text = taken ++ rest ∧ Uncommented taken) :
    Uncommented (text.take (text.length - rest.length)) := by
  obtain ⟨taken, rfl, htaken⟩ := h
  rwa [take_sub_length]

variable {config : Config} {window : Window} {hit : Hit}

theorem keepsOff_of_propertyPattern (h : propertyPattern config window = some hit) :
    KeepsOff window hit := by
  obtain ⟨property, hproperty, h⟩ := Option.bind_eq_some_iff.mp h
  rw [judgeProperty] at h
  split at h
  · simp at h
  · next hcomment =>
      obtain ⟨type, _, rfl⟩ := Option.map_eq_some_iff.mp h
      exact ⟨by simpa using hcomment, uncommented_take (uncommented_of_readProperty? hproperty)⟩

theorem keepsOff_of_headerPattern (h : headerPattern config window = some hit) :
    KeepsOff window hit := by
  obtain ⟨header, hheader, h⟩ := Option.bind_eq_some_iff.mp h
  rw [findHeader] at hheader
  rw [judgeHeader] at h
  split at hheader
  · simp at hheader
  · split at h
    · simp at h
    · next hcomment =>
        obtain rfl := Option.some.inj h
        exact ⟨by simpa using hcomment, uncommented_take (uncommented_of_readHeader? hheader)⟩

theorem inLineComment_of_atLineStart (h : window.atLineStart = true) :
    window.inLineComment = false := by
  have hfront : window.behind.takeWhile (· != '\n') = [] := by
    rw [Window.atLineStart] at h
    cases hbehind : window.behind with
    | nil => rfl
    | cons c behind =>
        rw [hbehind] at h
        exact List.takeWhile_cons_of_neg (by simpa using h)
  rw [Window.inLineComment, hfront, hasPair]

theorem keepsOff_of_attributePattern (h : attributePattern window = some hit) :
    KeepsOff window hit := by
  rw [attributePattern] at h
  split at h
  · next hstart =>
      obtain ⟨rest, hline, rfl⟩ := Option.map_eq_some_iff.mp h
      exact ⟨inLineComment_of_atLineStart hstart,
        uncommented_take (uncommented_of_readAttributeLine? hline)⟩
  · simp at h

/-! ### Runs -/

theorem KeepsOff.leavesComments {edit : Edit} (h : KeepsOff window hit)
    (hstart : edit.start = window.cursor) (hstop : edit.stop = (window.advance hit.length).cursor) :
    LeavesComments window.source edit := by
  have hapart : ∀ before line after, window.source = before ++ (line ++ after) →
      IsCommentLine before line after →
        edit.stop ≤ byteLength before ∨ byteLength (before ++ line) ≤ edit.start := by
    intro before line after htext hline
    rw [hstart, hstop]
    exact h.uncommented.apart h.inLineComment hline htext
  refine ⟨fun _ => ?_, fun _ => hapart, fun before line after htext hline hbegin hend => ?_⟩
  · rw [hstart]
    exact inLineComment_eq_false_iff.mp h.inLineComment
  · have := hapart before line after htext hline
    omega

/-- The edits of a summary block are under no obligation. -/
theorem leavesComments_of_summary {text : List Char} {edit : Edit}
    (h : edit.recognizer = "doc-summary") : LeavesComments text edit := by
  refine ⟨fun hmem => ?_, fun hmem => ?_, fun _ _ _ _ _ _ _ => h⟩
  · rw [h] at hmem
    exact absurd hmem (by decide)
  · rw [h] at hmem
    exact absurd hmem (by decide)

/-- **Comment lines are left alone** by every edit of every run, but for those of summary blocks. -/
theorem leavesComments_of_mem_edits {config : Config} {source : String} {edit : Edit}
    (h : edit ∈ (convertWith builtinRecognizers config source).edits) :
    LeavesComments source.toList edit := by
  have hreported := reported_runEdits builtinRecognizers config (.ofText source.toList)
  obtain ⟨recognizer, hmem, place, hedit⟩ := hreported.exists_of_mem h
  rw [Window.source_ofText] at hedit
  simp only [builtinRecognizers, List.mem_cons, List.not_mem_nil, or_false] at hmem
  rcases hmem with rfl | rfl | rfl | rfl
  · obtain ⟨window, hit, hsource, hhit, _, hstart, hstop⟩ :=
      follows_propertyRecognizer.exists_of_editAt hedit
    rw [← hsource]
    exact (keepsOff_of_propertyPattern hhit).leavesComments hstart hstop
  · obtain ⟨_, _, _, _, hname, _, _⟩ := follows_summaryRecognizer.exists_of_editAt hedit
    exact leavesComments_of_summary hname
  · obtain ⟨window, hit, hsource, hhit, _, hstart, hstop⟩ :=
      follows_attributeRecognizer.exists_of_editAt hedit
    rw [← hsource]
    exact (keepsOff_of_attributePattern hhit).leavesComments hstart hstop
  · obtain ⟨window, hit, hsource, hhit, _, hstart, hstop⟩ :=
      follows_headerRecognizer.exists_of_editAt hedit
    rw [← hsource]
    exact (keepsOff_of_headerPattern hhit).leavesComments hstart hstop

/-- A header takes in the remark on its own line, and ends before the comment line that follows. -/
theorem leavesComments_header_with_remark :
    let source := "public class A // note\n\x7b\n    // int B => 1;\n    int C => 2;\n\x7d"
    let edit : Edit := ⟨"public-member", 0, 24, "export interface A // note \x7b".toList⟩
    edit ∈ (convertWith builtinRecognizers {} source).edits ∧ LeavesComments source.toList edit := by
  intro source edit
  have hmem : edit ∈ (convertWith builtinRecognizers {} source).edits := by decide +kernel
  exact ⟨hmem, leavesComments_of_mem_edits hmem⟩

end TypeScribe
