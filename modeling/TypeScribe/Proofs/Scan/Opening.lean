import TypeScribe.Proofs.Scan.Cursor

/-!
# How the constructs open

Properties and headers open with a word, summary blocks with a slash, and attribute lines with a blank
or a bracket. So one character tells which of the four patterns can hit, up to the choice between a
property and a header, and none of them hits at a line feed.
-/

namespace TypeScribe.Scan

open Text

inductive Opening where
  | word
  | slash
  | bracket
  deriving DecidableEq

/-- What the character can open. -/
def Opening.ofChar? (c : Char) : Option Opening :=
  if isAsciiWord c then some .word
  else if c = '/' then some .slash
  else if isBlank c || c == '[' then some .bracket
  else none

/-- What can open at the cursor. -/
def Window.opening? (window : Window) : Option Opening :=
  window.ahead.head?.bind Opening.ofChar?

section Patterns

variable {config : Config} {window : Window} {hit : Hit}

theorem opening?_of_isAsciiWord (h : window.ahead.head?.any isAsciiWord = true) :
    window.opening? = some .word := by
  obtain ⟨c, hc, hword⟩ := (Option.any_eq_true _ _).mp h
  rw [Window.opening?, hc, Option.bind_some, Opening.ofChar?, if_pos hword]

theorem opening?_of_propertyPattern (h : propertyPattern config window = some hit) :
    window.opening? = some .word := by
  apply opening?_of_isAsciiWord
  by_contra hword
  rw [propertyPattern_eq_none (Bool.eq_false_iff.mpr hword)] at h
  simp at h

theorem opening?_of_headerPattern (h : headerPattern config window = some hit) :
    window.opening? = some .word := by
  apply opening?_of_isAsciiWord
  by_contra hword
  rw [headerPattern_eq_none (Bool.eq_false_iff.mpr hword)] at h
  simp at h

theorem opening?_of_summaryPattern (h : summaryPattern window = some hit) :
    window.opening? = some .slash := by
  have hslash : window.ahead.head? = some '/' := by
    by_contra hslash
    rw [summaryPattern_eq_none hslash] at h
    simp at h
  rw [Window.opening?, hslash]
  decide

theorem opening?_of_attributePattern (h : attributePattern window = some hit) :
    window.opening? = some .bracket := by
  have hbracket : (skipBlanks window.ahead).head? = some '[' := by
    by_contra hbracket
    rw [attributePattern_eq_none hbracket] at h
    simp at h
  rw [Window.opening?]
  cases hahead : window.ahead with
  | nil => simp [hahead, skipBlanks] at hbracket
  | cons c rest =>
      rw [hahead] at hbracket
      rw [List.head?_cons, Option.bind_some]
      by_cases hblank : isBlank c = true
      · rcases (by simpa [isBlank] using hblank : c = ' ' ∨ c = '\t') with rfl | rfl <;> decide
      · rw [skipBlanks, List.dropWhile_cons_of_neg hblank] at hbracket
        obtain rfl := Option.some.inj hbracket
        decide

end Patterns

/-! ### What a recognizer opens with -/

/-- What the recognizer reports begins with such an opening. -/
def Recognizer.OpensWith (recognizer : Recognizer) (opening : Opening) : Prop :=
  ∀ config window found, recognizer.recognize config window = some found →
    (window.advance found.start).opening? = some opening

theorem Recognizer.Follows.opensWith {recognizer : Recognizer}
    {pattern : Config → Window → Option Hit} {opening : Opening}
    (hfollows : recognizer.Follows pattern)
    (hpattern : ∀ config window hit, pattern config window = some hit →
      window.opening? = some opening) : recognizer.OpensWith opening := by
  intro config window found hfound
  obtain ⟨_, hhit, _⟩ := hfollows.exists_of_some hfound
  exact hpattern config _ _ hhit

theorem opensWith_propertyRecognizer : propertyRecognizer.OpensWith .word :=
  follows_propertyRecognizer.opensWith fun _ _ _ => opening?_of_propertyPattern

theorem opensWith_summaryRecognizer : summaryRecognizer.OpensWith .slash :=
  follows_summaryRecognizer.opensWith fun _ _ _ => opening?_of_summaryPattern

theorem opensWith_attributeRecognizer : attributeRecognizer.OpensWith .bracket :=
  follows_attributeRecognizer.opensWith fun _ _ _ => opening?_of_attributePattern

theorem opensWith_headerRecognizer : headerRecognizer.OpensWith .word :=
  follows_headerRecognizer.opensWith fun _ _ _ => opening?_of_headerPattern

end TypeScribe.Scan
