import TypeScribe.Scan.Reader
import TypeScribe.Scan.Recognizer

/-!
# Summary blocks

A `/// <summary>` line, the comment lines after it, and the first `/// </summary>` become one block
comment. The first text follows the opening of the comment directly; each later one stands on a line
of its own, indented as before. Lines without text are dropped.
-/

namespace TypeScribe.Scan

open Text

structure SummaryLine where
  indent : List Char
  /-- What follows the slashes, up to the line break. -/
  content : List Char
  deriving DecidableEq

namespace SummaryLine

/-- The content less one leading blank. -/
def text (line : SummaryLine) : List Char :=
  match line.content with
  | [] => []
  | c :: rest => if isBlank c then rest else c :: rest

def isVacant (line : SummaryLine) : Bool := line.text.all isSpace

end SummaryLine

def readTag? (tag : String) (text : List Char) : Option (List Char) :=
  (readText? "///" text).bind fun rest => readText? tag (skipBlanks rest)

def readSummaryLine? (text : List Char) : Option (SummaryLine × List Char) := do
  let content ← readText? "///" (skipBlanks text)
  let rest ← readNewline? (content.dropWhile (!isLineBreak ·))
  return (⟨text.takeWhile isBlank, content.takeWhile (!isLineBreak ·)⟩, rest)

theorem length_lt_of_readSummaryLine? {text rest : List Char} {line : SummaryLine}
    (h : readSummaryLine? text = some (line, rest)) : rest.length < text.length := by
  simp only [readSummaryLine?, Option.bind_eq_bind, Option.bind_eq_some_iff, Option.pure_def,
    Option.some.injEq, Prod.mk.injEq] at h
  obtain ⟨content, hcontent, after, hafter, _, rfl⟩ := h
  have hslashes := congrArg List.length (eq_append_of_readText? hcontent)
  have hblanks := (List.dropWhile_suffix (l := text) isBlank).length_le
  have hline := (List.dropWhile_suffix (l := content) (!isLineBreak ·)).length_le
  have hnewline := length_lt_of_readNewline? hafter
  simp only [List.length_append, skipBlanks] at hslashes
  omega

/-- The comment lines up to the first closing tag, and the rest after it. -/
def readSummaryLines? (text : List Char) : Option (List SummaryLine × List Char) :=
  match readTag? "</summary>" (skipBlanks text) with
  | some rest => some ([], rest)
  | none =>
      match _h : readSummaryLine? text with
      | none => none
      | some (line, rest) =>
          (readSummaryLines? rest).map fun (lines, rest) => (line :: lines, rest)
termination_by text.length
decreasing_by exact length_lt_of_readSummaryLine? _h

/-- The comment lines of the summary block at the front of the text, and the rest. -/
def readSummary? (text : List Char) : Option (List SummaryLine × List Char) := do
  let rest ← readTag? "<summary>" text
  let rest ← readNewline? (skipBlanks rest)
  readSummaryLines? rest

/-- A block is written with the line break that it was read with. -/
def newlineOf (block : List Char) : List Char :=
  if hasPair '\r' '\n' block then ['\r', '\n'] else ['\n']

/-- The block comment with the texts of `lines`, none of which is vacant. -/
def blockComment (newline : List Char) (lines : List SummaryLine) : List Char :=
  let texts :=
    match lines with
    | [] => []
    | first :: others =>
        first.text ++ others.flatMap fun line => newline ++ line.indent ++ '*' :: line.text
  "/*".toList ++ texts ++ " */".toList

def summaryPattern (window : Window) : Option Hit := do
  let (lines, rest) ← readSummary? window.ahead
  let length := window.ahead.length - rest.length
  let newline := newlineOf (window.ahead.take length)
  return ⟨length, blockComment newline (lines.filter (!·.isVacant))⟩

theorem length_le_of_summaryPattern {window : Window} {hit : Hit}
    (h : summaryPattern window = some hit) : hit.length ≤ window.ahead.length := by
  obtain ⟨block, _, h⟩ := Option.bind_eq_some_iff.mp h
  obtain rfl := Option.some.inj h
  exact Nat.sub_le _ _

def summaryRecognizer : Recognizer :=
  .ofPattern "doc-summary" (fun _ => summaryPattern) length_le_of_summaryPattern

end TypeScribe.Scan
