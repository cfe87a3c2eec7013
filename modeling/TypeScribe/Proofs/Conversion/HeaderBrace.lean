import TypeScribe.Proofs.Conversion.CommentLines
import TypeScribe.Proofs.Scan.HeaderParts

/-!
# The brace of a rewritten header

A header is put on one line, so a remark between its name and a brace on a later line comes to stand
before that brace. On one line with the brace there is nothing that was not there before.
-/

namespace TypeScribe

open Text Scan

/-- The edit puts one line that ends with a brace in place of text that ends with it, and puts no `//`
before it that the text does not have. -/
structure KeepsBrace (text : List Char) (edit : Edit) : Prop where
  takes : (slice edit.start edit.stop text).getLast? = some '\x7b'
  puts : edit.replacement.getLast? = some '\x7b'
  unbroken : Unbroken edit.replacement
  slashes_iff : "//".toList <:+: edit.replacement ↔ "//".toList <:+: slice edit.start edit.stop text
  /-- Only a brace that is the first on its line can come to stand in a comment. -/
  live : (∃ c ∈ lineFront text (edit.stop - 1), isSpace c = false) →
    ¬"//".toList <:+: lineFront text (edit.stop - 1) → ¬"//".toList <:+: edit.replacement

/-! ### Slashes and pieces of a text -/

section Pieces

variable {front more rest : List Char}

theorem slashes_infix_append_right_iff (h : '/' ∉ front) (rest : List Char) :
    "//".toList <:+: front ++ rest ↔ "//".toList <:+: rest :=
  pair_infix_append_right_iff h

theorem slashes_infix_append_left_iff (h : '/' ∉ rest) (front : List Char) :
    "//".toList <:+: front ++ rest ↔ "//".toList <:+: front :=
  pair_infix_append_left_iff h

theorem lineFront_eq (front rest : List Char) : lineFront (front ++ rest) (byteLength front) =
    (front.reverse.takeWhile (· != '\n')).reverse := by
  rw [lineFront, takeBytes_append]

/-- Text without a line feed stands on one line. -/
theorem suffix_lineFront (h : '\n' ∉ more) :
    more <:+ lineFront ((front ++ more) ++ rest) (byteLength (front ++ more)) := by
  rw [lineFront_eq, List.reverse_append,
    List.takeWhile_append_of_pos (forall_mem_reverse_ne h), List.reverse_append,
    List.reverse_reverse]
  exact List.suffix_append _ _

theorem lineFront_suffix (h : '\n' ∈ more) :
    lineFront ((front ++ more) ++ rest) (byteLength (front ++ more)) <:+ more := by
  rw [lineFront_eq, List.reverse_append, ← List.reverse_prefix, List.reverse_reverse]
  have hline := List.takeWhile_prefix (l := more.reverse ++ front.reverse) (· != '\n')
  rcases List.prefix_or_prefix_of_prefix hline (List.prefix_append _ _) with hprefix | hprefix
  · exact hprefix
  · have hfeed := hprefix.subset (List.mem_reverse.mpr h)
    exact absurd (List.mem_takeWhile_imp hfeed) (by decide)

end Pieces

/-! ### Headers -/

section Header

variable {config : Config} {header : HeaderText} {text : List Char}

theorem slashes_infix_exportedHeader_iff (parts : header.Parts text) :
    "//".toList <:+: exportedHeader config header ↔ "//".toList <:+: header.tail := by
  have hslash : isAsciiWord '/' = false := by decide
  have hkeyword : '/' ∉ (declarationKeyword (String.ofList header.keyword)).toList := by
    rw [declarationKeyword]
    split
    · decide
    · rw [String.toList_ofList]
      exact not_mem_of_isWord parts.isWord_keyword hslash
  have hname : '/' ∉ config.trimmer.trimChars header.name := by
    intro hmem
    exact not_mem_of_isWord parts.isWord_name hslash (mem_of_mem_trimChars hmem)
  have hnamed : '/' ∉ "export ".toList ++
      (declarationKeyword (String.ofList header.keyword)).toList ++ [' '] ++
        config.trimmer.trimChars header.name :=
    List.not_mem_append (List.not_mem_append (List.not_mem_append (by decide) hkeyword) (by decide))
      hname
  have hbrace : '/' ∉ " \x7b".toList := by decide
  unfold exportedHeader
  rw [slashes_infix_append_left_iff hbrace, slashes_infix_append_right_iff hnamed]

theorem slashes_infix_front_iff (parts : header.Parts text) :
    "//".toList <:+: parts.front ↔ "//".toList <:+: header.tail := by
  have hlead : '/' ∉ parts.lead := fun hmem =>
    absurd (parts.isLoose_of_mem_lead '/' hmem) (by decide)
  have hname : '/' ∉ header.name := not_mem_of_isWord parts.isWord_name (by decide)
  have hgap : '/' ∉ parts.gap := fun hmem => absurd (parts.spaces_gap '/' hmem) (by decide)
  rw [HeaderText.Parts.front, slashes_infix_append_right_iff (List.not_mem_append hlead hname),
    slashes_infix_append_left_iff hgap]

/-- On the line of the brace stands the rest of the header's line, or nothing but white space. -/
theorem slashes_infix_lineFront (parts : header.Parts text) {behind : List Char}
    (htail : "//".toList <:+: header.tail)
    (hvisible : ∃ c ∈ lineFront (behind ++ text) (byteLength (behind ++ parts.front)),
      isSpace c = false) :
    "//".toList <:+: lineFront (behind ++ text) (byteLength (behind ++ parts.front)) := by
  let named := behind ++ (parts.lead ++ header.name)
  have hfront : behind ++ parts.front = named ++ (header.tail ++ parts.gap) := by
    rw [HeaderText.Parts.front, ← List.append_assoc]
  have htext : behind ++ text = (behind ++ parts.front) ++ '\x7b' :: header.rest := by
    rw [List.append_assoc, ← parts.text_eq_front]
  rw [htext, hfront] at hvisible ⊢
  by_cases hfeed : '\n' ∈ parts.gap
  · -- the brace is on a later line
    obtain ⟨c, hc, hspace⟩ := hvisible
    rw [← List.append_assoc] at hc
    exact absurd (parts.spaces_gap c ((lineFront_suffix hfeed).subset hc)) (by simp [hspace])
  · have hmore := List.not_mem_append parts.unbroken_tail.not_mem_feed hfeed
    exact (htail.trans (List.infix_append' [] header.tail parts.gap)).trans
      (suffix_lineFront hmore).isInfix

theorem keepsBrace_of_headerPattern {window : Window} {hit : Hit}
    (h : headerPattern config window = some hit) :
    KeepsBrace window.source
      ⟨headerRecognizer.name, window.cursor, (window.advance hit.length).cursor, hit.replacement⟩ := by
  obtain ⟨header, ⟨parts⟩, rfl⟩ := exists_of_headerPattern h
  have hahead := parts.text_eq_front
  have htaken : window.ahead.take (window.ahead.length - header.rest.length) =
      parts.front ++ ['\x7b'] := by
    generalize parts.front = front at hahead ⊢
    rw [hahead, List.append_cons, take_sub_length]
  have hlast : ∀ front : List Char, (front ++ ['\x7b']).getLast? = some '\x7b' :=
    fun front => List.getLast?_concat
  have hslash : '/' ∉ ['\x7b'] := by decide
  refine ⟨?_, ?_, ?_, ?_, fun hvisible hline => ?_⟩
  · rw [slice_cursor, htaken, hlast]
  · unfold exportedHeader
    rw [List.getLast?_append]
    rfl
  · exact unbroken_exportedHeader parts.isWord_keyword parts.isWord_name parts.unbroken_tail
  · rw [slice_cursor, htaken, slashes_infix_append_left_iff hslash, slashes_infix_front_iff parts,
      slashes_infix_exportedHeader_iff parts]
  · have hstop : (window.advance (window.ahead.length - header.rest.length)).cursor - 1 =
        byteLength (window.behind.reverse ++ parts.front) := by
      rw [Window.cursor_advance, htaken, byteLength_append, byteLength_append, Window.cursor,
        byteLength_reverse, ← Nat.add_assoc]
      rfl
    rw [hstop] at hvisible hline
    rw [slashes_infix_exportedHeader_iff parts]
    exact fun htail => hline (slashes_infix_lineFront parts htail hvisible)

end Header

/-- **A rewritten header opens its block on the one line that it is put on**, and only a brace that is
the first on its line can come to stand behind a remark of the header. -/
theorem keepsBrace_of_editAt {config : Config} {text : List Char} {cursor : Nat} {edit : Edit}
    (h : headerRecognizer.editAt config text cursor = some edit) : KeepsBrace text edit := by
  obtain ⟨window, hit, rfl, hhit, rfl⟩ := follows_headerRecognizer.exists_eq_of_editAt h
  exact keepsBrace_of_headerPattern hhit

theorem keepsBrace_of_header_on_two_lines :
    let text := "// A\npublic\nclass A : B \x7b".toList
    let edit : Edit := ⟨"public-member", 5, 25, "export interface A : B \x7b".toList⟩
    headerRecognizer.editAt {} text 0 = some edit ∧
      (∃ c ∈ lineFront text (edit.stop - 1), isSpace c = false) ∧ KeepsBrace text edit := by
  intro text edit
  have hedit : headerRecognizer.editAt {} text 0 = some edit := by decide +kernel
  have hvisible : ∃ c ∈ lineFront text (edit.stop - 1), isSpace c = false :=
    ⟨'B', by decide +kernel, by decide⟩
  exact ⟨hedit, hvisible, keepsBrace_of_editAt hedit⟩

/-- A remark between the name and a brace on the next line takes the brace into the comment. -/
theorem exists_brace_in_line_comment :
    ¬∀ (config : Config) (text : List Char) (cursor : Nat) (edit : Edit),
      headerRecognizer.editAt config text cursor = some edit →
        ¬"//".toList <:+: lineFront text (edit.stop - 1) → ¬"//".toList <:+: edit.replacement := by
  intro h
  have hedit : headerRecognizer.editAt {} "public class A // x\n\x7b".toList 0 =
      some ⟨"public-member", 0, 21, "export interface A // x \x7b".toList⟩ := by decide +kernel
  have hline : ¬"//".toList <:+: lineFront "public class A // x\n\x7b".toList 20 := by
    decide +kernel
  have hslashes : "//".toList <:+: "export interface A // x \x7b".toList := by decide +kernel
  exact h _ _ _ _ hedit hline hslashes

end TypeScribe
