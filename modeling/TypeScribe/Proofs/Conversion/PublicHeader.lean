import TypeScribe.Proofs.Conversion.AtCursor
import TypeScribe.Proofs.Name.Trimming
import TypeScribe.Proofs.Scan.DeclaredHeader

/-!
# Converting a public header

A public header is converted whatever its keyword is: its modifiers go, its name is trimmed, and the
rest of its line stays before a brace on the same line. No other construct can begin where a header
does, unless the header goes on like a property, and that takes a semicolon.
-/

namespace TypeScribe

open Text Scan

variable {config : Config}

theorem head?_chars (header : HeaderDeclaration) (rest : List Char) :
    (header.chars ++ rest).head? = some 'p' := rfl

/-- A declared header that begins a word outside of comments, and no property, is converted as a
whole. -/
theorem outputAt_header (header : HeaderDeclaration) {behind rest : List Char}
    (hword : behind.head?.any isWordChar = false)
    (hcomment : Window.inLineComment ⟨behind, header.chars ++ rest⟩ = false)
    (hproperty : propertyPattern config ⟨behind, header.chars ++ rest⟩ = none) :
    outputAt config ⟨behind, header.chars ++ rest⟩ =
      exportedHeader config (header.text rest) ++
        outputAt config ⟨header.chars.reverse ++ behind, rest⟩ := by
  have hslash : (header.chars ++ rest).head? ≠ some '/' := by
    rw [head?_chars]
    decide
  have hbracket : (skipBlanks (header.chars ++ rest)).head? ≠ some '[' := head?_skipBlanks_ne rfl
  have hheader := @headerPattern_append config header _ _ hword hcomment
  rw [outputAt_of_hitAt? (hitAt?_of_header hproperty (summaryPattern_eq_none hslash)
    (attributePattern_eq_none hbracket) hheader), Window.advance_append]

/-- **A public header is converted with the rest of its line intact.** -/
theorem convertText_header (config : Config) (header : HeaderDeclaration) :
    convertText config (String.ofList header.chars) =
      "export " ++ declarationKeyword (String.ofList header.keyword) ++ " " ++
        config.trimmer.trim (String.ofList header.name) ++ String.ofList header.tail ++ " \x7b" := by
  have hproperty : propertyPattern config (.ofText (header.chars ++ [])) = none := by
    apply propertyPattern_eq_none_of_semicolon
    rw [Window.ofText, List.append_nil]
    exact header.semicolon_notMem_chars
  have houtput := outputAt_header header rfl rfl hproperty
  rw [List.append_nil, outputAt_nil, List.append_nil] at houtput
  rw [convertText_eq, String.toList_ofList, Window.ofText, houtput]
  unfold exportedHeader
  rw [← String.toList_inj, String.toList_ofList]
  simp only [String.toList_append, Trimmer.toList_trim, String.toList_ofList]
  rfl

/-- The keyword may be `public`, and the trimmed name may be spelled like a modifier. -/
theorem convertText_header_modifier_names :
    convertText ⟨false, ["Dto"], false⟩ "public static public staticDto<T> : Dto\n\t\x7b" =
      "export public static<T> : Dto \x7b" := by
  let header : HeaderDeclaration :=
    { modifiers := ["static"]
      keyword := "public".toList
      name := "staticDto".toList
      tail := "<T> : Dto".toList
      gap := "\n\t".toList
      modifiers_mem := by decide
      keyword_isWord := by decide
      keyword_head := by decide
      keyword_notMem := by decide
      name_isWord := by decide
      tail_fits := List.forall_iff_forall_mem.mp (by decide)
      tail_head := by decide
      tail_last := by decide
      gap_spaces := List.forall_iff_forall_mem.mp (by decide) }
  have hsource : String.ofList header.chars =
      "public static public staticDto<T> : Dto\n\t\x7b" := by
    decide +kernel
  have hconverted := convertText_header ⟨false, ["Dto"], false⟩ header
  rw [hsource] at hconverted
  rw [hconverted]
  decide +kernel

end TypeScribe
