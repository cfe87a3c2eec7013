import TypeScribe.Proofs.Conversion.Scanning
import TypeScribe.Proofs.Scan.Cursor

/-!
# Conversions at the cursor

The built-in recognizers report the first hits of four patterns, so a conversion of a source can be
followed at the cursor: the first of the four that hits is applied, and a character at which none of
them hits stays.
-/

namespace TypeScribe

open Text Scan

def builtinPatterns : List (Config → Window → Option Hit) :=
  [propertyPattern, fun _ => summaryPattern, fun _ => attributePattern, headerPattern]

theorem forall₂_follows_builtin :
    List.Forall₂ Recognizer.Follows builtinRecognizers builtinPatterns :=
  .cons follows_propertyRecognizer <| .cons follows_summaryRecognizer <|
    .cons follows_attributeRecognizer <| .cons follows_headerRecognizer .nil

theorem length_pos_of_mem_builtinPatterns {pattern : Config → Window → Option Hit}
    (hmem : pattern ∈ builtinPatterns) {config : Config} {window : Window} {hit : Hit}
    (h : pattern config window = some hit) : 0 < hit.length := by
  simp only [builtinPatterns, List.mem_cons, List.not_mem_nil, or_false] at hmem
  rcases hmem with rfl | rfl | rfl | rfl
  · exact length_pos_of_propertyPattern h
  · exact length_pos_of_summaryPattern h
  · exact length_pos_of_attributePattern h
  · exact length_pos_of_headerPattern h

theorem length_pos_of_hitAt? {config : Config} {window : Window} {hit : Hit}
    (h : hitAt? builtinPatterns config window = some hit) : 0 < hit.length := by
  obtain ⟨pattern, hmem, hhit⟩ := List.exists_of_findSome?_eq_some h
  exact length_pos_of_mem_builtinPatterns hmem hhit

section Builtin

variable {config : Config} {window : Window} {hit : Hit}

theorem hitAt?_of_property (h : propertyPattern config window = some hit) :
    hitAt? builtinPatterns config window = some hit := by
  simp [hitAt?, builtinPatterns, h]

theorem hitAt?_of_attribute (hproperty : propertyPattern config window = none)
    (hsummary : summaryPattern window = none) (h : attributePattern window = some hit) :
    hitAt? builtinPatterns config window = some hit := by
  simp [hitAt?, builtinPatterns, hproperty, hsummary, h]

theorem hitAt?_of_header (hproperty : propertyPattern config window = none)
    (hsummary : summaryPattern window = none) (hattribute : attributePattern window = none)
    (h : headerPattern config window = some hit) :
    hitAt? builtinPatterns config window = some hit := by
  simp [hitAt?, builtinPatterns, hproperty, hsummary, hattribute, h]

theorem hitAt?_builtin_eq_none (hproperty : propertyPattern config window = none)
    (hsummary : summaryPattern window = none) (hattribute : attributePattern window = none)
    (hheader : headerPattern config window = none) :
    hitAt? builtinPatterns config window = none := by
  simp [hitAt?, builtinPatterns, hproperty, hsummary, hattribute, hheader]

end Builtin

/-- What a conversion makes of the text ahead of the cursor. -/
def outputAt (config : Config) (window : Window) : List Char :=
  (convertWindow builtinRecognizers config window).output

theorem convertText_eq (config : Config) (source : String) :
    convertText config source = String.ofList (outputAt config (.ofText source.toList)) := rfl

theorem outputAt_of_hitAt? {config : Config} {window : Window} {hit : Hit}
    (h : hitAt? builtinPatterns config window = some hit) :
    outputAt config window = hit.replacement ++ outputAt config (window.advance hit.length) :=
  output_convertWindow_of_hitAt? forall₂_follows_builtin (length_pos_of_hitAt? h) h

theorem outputAt_of_hitAt?_eq_none {config : Config} {behind rest : List Char} {c : Char}
    (h : hitAt? builtinPatterns config ⟨behind, c :: rest⟩ = none) :
    outputAt config ⟨behind, c :: rest⟩ = c :: outputAt config ⟨c :: behind, rest⟩ :=
  output_convertWindow_of_hitAt?_eq_none forall₂_follows_builtin h

theorem outputAt_nil (config : Config) (behind : List Char) :
    outputAt config ⟨behind, []⟩ = [] :=
  output_convertWindow_nil behind

variable {config : Config}

/-- A declared property outside of comments is converted as a whole. -/
theorem outputAt_property (property : PropertyDeclaration) {behind rest : List Char}
    (hcomment : Window.inLineComment ⟨behind, property.chars ++ rest⟩ = false)
    (hrest : property.body.EndsBefore rest) :
    outputAt config ⟨behind, property.chars ++ rest⟩ =
      propertyDeclaration config property.name property.type ++
        outputAt config ⟨property.chars.reverse ++ behind, rest⟩ := by
  rw [outputAt_of_hitAt? (hitAt?_of_property (propertyPattern_append property hcomment hrest)),
    Window.advance_append]

/-! ### Characters that stay -/

/-- A character that begins none of the constructs stays. -/
theorem outputAt_cons {c : Char} {behind rest : List Char} (hword : isAsciiWord c = false)
    (hslash : c ≠ '/') (hbracket : (skipBlanks (c :: rest)).head? ≠ some '[') :
    outputAt config ⟨behind, c :: rest⟩ = c :: outputAt config ⟨c :: behind, rest⟩ := by
  apply outputAt_of_hitAt?_eq_none
  apply hitAt?_builtin_eq_none
  · exact propertyPattern_eq_none (by simpa using hword)
  · exact summaryPattern_eq_none (by simpa using hslash)
  · exact attributePattern_eq_none hbracket
  · exact headerPattern_eq_none (by simpa using hword)

theorem outputAt_newline (behind rest : List Char) :
    outputAt config ⟨behind, '\n' :: rest⟩ = '\n' :: outputAt config ⟨'\n' :: behind, rest⟩ :=
  outputAt_cons (by decide) (by decide) (by simp [skipBlanks, isBlank])

/-- Blanks stay unless they indent an attribute. -/
theorem outputAt_blanks {blanks behind rest : List Char} (hblanks : ∀ c ∈ blanks, isBlank c = true)
    (hrest : (skipBlanks rest).head? ≠ some '[') :
    outputAt config ⟨behind, blanks ++ rest⟩ =
      blanks ++ outputAt config ⟨blanks.reverse ++ behind, rest⟩ := by
  induction blanks generalizing behind with
  | nil => rfl
  | cons c blanks ih =>
      have hblank := hblanks c List.mem_cons_self
      have hlater := fun d hd => hblanks d (List.mem_cons_of_mem c hd)
      have hword := isAsciiWord_eq_false_of_isSpace (isSpace_of_isBlank hblank)
      have hslash : c ≠ '/' := by
        rintro rfl
        simp [isBlank] at hblank
      have hskip : skipBlanks (c :: (blanks ++ rest)) = skipBlanks rest :=
        List.dropWhile_append_of_pos hblanks
      rw [List.cons_append, outputAt_cons hword hslash (by rwa [hskip]), ih hlater]
      simp

end TypeScribe
