import TypeScribe.Scan.Reader
import TypeScribe.Scan.Recognizer

/-!
# Attribute lines

A line that holds nothing but an attribute such as `[Required]`. It is deleted together with its line
break. Only the first and the last bracket of the line count.
-/

namespace TypeScribe.Scan

open Text

/-- Whether `content` is bracketed text between blanks. -/
def isBracketed (content : List Char) : Bool :=
  match skipBlanks content with
  | '[' :: rest => (skipBlanks rest.reverse).head? == some ']'
  | _ => false

def readAttributeLine? (text : List Char) : Option (List Char) :=
  let content := text.takeWhile (!isLineBreak ·)
  let after := text.dropWhile (!isLineBreak ·)
  if isBracketed content then
    if after.isEmpty then some [] else readNewline? after
  else none

def attributePattern (window : Window) : Option Hit :=
  if window.atLineStart then
    (readAttributeLine? window.ahead).map fun rest => ⟨window.ahead.length - rest.length, []⟩
  else none

theorem length_le_of_attributePattern {window : Window} {hit : Hit}
    (h : attributePattern window = some hit) : hit.length ≤ window.ahead.length := by
  rw [attributePattern] at h
  split at h
  · obtain ⟨rest, _, rfl⟩ := Option.map_eq_some_iff.mp h
    exact Nat.sub_le _ _
  · simp at h

def attributeRecognizer : Recognizer :=
  .ofPattern "attribute" (fun _ => attributePattern) length_le_of_attributePattern

end TypeScribe.Scan
