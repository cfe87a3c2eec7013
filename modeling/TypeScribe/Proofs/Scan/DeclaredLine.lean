import TypeScribe.Proofs.Scan.LineEndings

/-!
# The characters of a declared property

Before its body a declared property holds nothing but words, the marks of its type and spaces. Together
with the body it stands on one line, and whether what follows on that line is a comment is up to the
characters of the property alone.
-/

namespace TypeScribe.Scan

open Text TypeExpr

/-- The characters of a written type that belong to none of its names. -/
def typeMarks : List Char := ['<', '>', ',', ' ', '?', '[', ']']

theorem class_of_mem_chars {type : TypeExpr} (h : AllNames IsWord type) :
    ∀ c ∈ type.chars, isAsciiWord c = true ∨ c ∈ typeMarks := by
  induction h with
  | @intro name arguments rank isNullable hname _ ih =>
      have hcomma : ∀ c ∈ [',', ' '], c ∈ typeMarks := List.forall_iff_forall_mem.mp (by decide)
      have hsuffixes : ∀ c ∈ ['?', '[', ']'], c ∈ typeMarks :=
        List.forall_iff_forall_mem.mp (by decide)
      rw [chars_mk, List.forall_mem_append, List.forall_mem_append]
      refine ⟨fun c hc => .inl (hname.2 c hc), ?_, fun c hc => .inr ?_⟩
      · cases arguments with
        | nil => exact List.forall_mem_nil _
        | cons argument arguments =>
            have hjoin : ∀ c ∈ joinChars (argument :: arguments),
                isAsciiWord c = true ∨ c ∈ typeMarks :=
              forall_mem_intercalate (fun c hc => .inr (hcomma c hc)) (List.forall_mem_map.mpr ih)
            rw [argumentChars, List.forall_mem_append, List.forall_mem_cons,
              List.forall_mem_singleton]
            exact ⟨⟨.inr (by decide), hjoin⟩, .inr (by decide)⟩
      · exact hsuffixes c (mem_marks_of_mem_suffixChars hc)

theorem class_of_mem_spacedChars {words : List String} (h : ∀ word ∈ words, IsWord word.toList) :
    ∀ c ∈ spacedChars words, isAsciiWord c = true ∨ c ∈ typeMarks := by
  intro c hc
  obtain ⟨word, hword, hc⟩ := List.mem_flatMap.mp hc
  rcases List.mem_append.mp hc with hc | hc
  · exact .inl ((h word hword).2 c hc)
  · obtain rfl := List.mem_singleton.mp hc
    exact .inr (by decide)

theorem PropertyBody.unbroken_chars (body : PropertyBody) : Unbroken body.chars := by
  have hvalue : ∀ value : Statement, Unbroken value.chars :=
    fun value c hc => (value.fits c hc).2
  have haccessors : ∀ kind : Accessors, Unbroken kind.chars := by
    intro kind
    cases kind <;> decide
  have hequals : Unbroken " = ".toList := by decide
  have harrow : Unbroken "=> ".toList := by decide
  have hend : Unbroken [';'] := by decide
  cases body with
  | accessors kind initializer =>
      cases initializer with
      | none => exact haccessors kind
      | some value => exact (((haccessors kind).append hequals).append (hvalue value)).append hend
  | expression value => exact (harrow.append (hvalue value)).append hend

namespace PropertyDeclaration

variable (property : PropertyDeclaration)

/-- What stands before the body. -/
def front : List Char :=
  spacedChars property.access ++ (spacedChars property.members ++
    (property.type.chars ++ ' ' :: property.name))

theorem chars_eq_front : property.chars = property.front ++ ' ' :: property.body.chars := by
  simp [chars, front]

theorem class_of_mem_front : ∀ c ∈ property.front, isAsciiWord c = true ∨ c ∈ typeMarks := by
  rw [front, List.forall_mem_append, List.forall_mem_append, List.forall_mem_append,
    List.forall_mem_cons]
  exact ⟨class_of_mem_spacedChars property.isWord_of_mem_access,
    class_of_mem_spacedChars property.isWord_of_mem_members,
    class_of_mem_chars property.type_names, .inr (by decide),
    fun c hc => .inl (property.name_isWord.2 c hc)⟩

theorem colon_not_mem_front : ':' ∉ property.front := by
  intro hcolon
  rcases property.class_of_mem_front ':' hcolon with hword | hmark
  · exact absurd hword (by decide)
  · exact absurd hmark (by decide)

theorem unbroken_chars : Unbroken property.chars := by
  have hmarks : Unbroken typeMarks := by decide
  have hspace : Unbroken [' '] := by decide
  have hfront : Unbroken property.front := by
    intro c hc
    rcases property.class_of_mem_front c hc with hword | hmark
    · exact isLineBreak_eq_false_of_isNameChar (isNameChar_of_isAsciiWord hword)
    · exact hmarks c hmark
  rw [chars_eq_front]
  exact hfront.append (hspace.append property.body.unbroken_chars)

theorem head?_ne_slash : property.chars.head? ≠ some '/' := by
  intro hslash
  have hword := property.isAsciiWord_head? []
  rw [List.append_nil, hslash] at hword
  exact absurd hword (by decide)

/-- Behind a property the cursor is in a comment just if the property holds `//`. -/
theorem inLineComment_behind {behind rest : List Char}
    (hcomment : Window.inLineComment ⟨behind, property.chars ++ rest⟩ = false) :
    Window.inLineComment ⟨property.chars.reverse ++ behind, rest⟩ =
      hasPair '/' '/' property.chars :=
  Window.inLineComment_append_eq property.unbroken_chars.not_mem_feed property.head?_ne_slash
    hcomment

end PropertyDeclaration

end TypeScribe.Scan
