import TypeScribe.Proofs.Conversion.AtCursor
import TypeScribe.Proofs.Scan.HeaderParts
import TypeScribe.Proofs.Text.LineEnding

/-!
# Properties with the value of a string

The value of a property is taken up to the first semicolon, whether or not that stands between
quotes. So a string is taken as a whole just if it holds no semicolon. Otherwise what stands behind the
first one is left over.
-/

namespace TypeScribe

open Text Scan TypeExpr

namespace Scan

/-- What stands between the quotes of a string that needs no escapes. -/
structure LiteralText where
  chars : List Char
  fits : ∀ c ∈ chars, c ∉ ['"', '\\', '\r', '\n']

def LiteralText.quoted (text : LiteralText) : List Char := '"' :: (text.chars ++ ['"'])

/-- The body that ends with a value, behind accessors or without any. -/
def valueBody : Option Accessors → Statement → PropertyBody
  | some kind, value => .accessors kind (some value)
  | none, value => .expression value

/-- What stands before the value of a property. -/
def valueOpening : Option Accessors → List Char
  | some kind => kind.chars ++ " = ".toList
  | none => "=> ".toList

theorem chars_valueBody (accessors : Option Accessors) (value : Statement) :
    (valueBody accessors value).chars = valueOpening accessors ++ (value.chars ++ [';']) := by
  cases accessors <;> simp [valueBody, valueOpening, PropertyBody.chars]

theorem endsBefore_valueBody (accessors : Option Accessors) (value : Statement)
    (rest : List Char) : (valueBody accessors value).EndsBefore rest := by
  cases accessors <;> trivial

/-- A property whose value is a string. -/
structure LiteralProperty where
  access : List String
  members : List String
  type : TypeExpr
  name : List Char
  accessors : Option Accessors
  text : LiteralText
  access_mem : ∀ word ∈ access, word ∈ accessModifiers
  members_mem : ∀ word ∈ members, word ∈ memberModifiers
  type_names : AllNames IsWord type
  name_isWord : IsWord name

namespace LiteralProperty

variable (property : LiteralProperty)

def chars : List Char :=
  spacedChars property.access ++ (spacedChars property.members ++
    (property.type.chars ++ ' ' :: (property.name ++
      ' ' :: (valueOpening property.accessors ++ (property.text.quoted ++ [';'])))))

/-- The declaration with the text `value` in place of the string. -/
def declared (value : Statement) : PropertyDeclaration :=
  { property with body := valueBody property.accessors value }

theorem chars_eq_declared {value : Statement} {rest : List Char}
    (h : property.text.quoted ++ [';'] = value.chars ++ ';' :: rest) :
    property.chars = (property.declared value).chars ++ rest := by
  simp [chars, declared, PropertyDeclaration.chars, chars_valueBody, h]

end LiteralProperty

theorem LiteralText.unbroken_quoted (text : LiteralText) : Unbroken text.quoted := by
  have hquote : isLineBreak '"' = false := by decide
  have hinside : Unbroken text.chars := by
    intro c hc
    have hfits := text.fits c hc
    simp only [List.mem_cons, List.not_mem_nil, or_false, not_or] at hfits
    simp [isLineBreak, hfits]
  rw [Unbroken, quoted, List.forall_mem_cons, List.forall_mem_append, List.forall_mem_singleton]
  exact ⟨hquote, hinside, hquote⟩

/-- A string and the semicolon behind it, cut at the first semicolon there is. -/
theorem LiteralText.exists_statement (text : LiteralText) :
    ∃ (value : Statement) (rest : List Char), text.quoted ++ [';'] = value.chars ++ ';' :: rest ∧
      (rest = [] ↔ ';' ∉ text.chars) := by
  have hmem : ';' ∈ text.quoted ++ [';'] := by simp
  have hunbroken : Unbroken (text.quoted ++ [';']) := text.unbroken_quoted.append (by decide)
  have hquoted : ';' ∈ text.quoted ↔ ';' ∈ text.chars := by simp [quoted]
  obtain ⟨value, rest, hcut, hvalue⟩ := List.eq_append_cons_of_mem hmem
  have hfits : ∀ c ∈ value, c ≠ ';' ∧ isLineBreak c = false := by
    intro c hc
    refine ⟨fun hequal => hvalue (hequal ▸ hc), hunbroken c ?_⟩
    rw [hcut]
    exact List.mem_append_left _ hc
  refine ⟨⟨value, hfits⟩, rest, hcut, ?_⟩
  rw [← hquoted]
  constructor
  · rintro rfl
    rwa [List.append_cancel_right hcut]
  · intro hnone
    exact ((List.append_cons_inj_of_notMem hnone List.not_mem_nil).mp hcut).2.2.symm

end Scan

variable {config : Config} {window : Window}

theorem replacement_ne_nil_of_hitAt? {hit : Hit} (hstart : window.atLineStart = false)
    (h : hitAt? builtinPatterns config window = some hit) : hit.replacement ≠ [] := by
  obtain ⟨pattern, hmem, hhit⟩ := List.exists_of_findSome?_eq_some h
  simp only [builtinPatterns, List.mem_cons, List.not_mem_nil, or_false] at hmem
  rcases hmem with rfl | rfl | rfl | rfl
  · obtain ⟨property, type, _, _, _, rfl⟩ := exists_of_propertyPattern hhit
    exact List.append_ne_nil_of_right_ne_nil _ (by decide)
  · obtain ⟨block, _, hblock⟩ := Option.bind_eq_some_iff.mp hhit
    rw [← Option.some.inj hblock]
    exact List.append_ne_nil_of_right_ne_nil _ (by decide)
  · -- only at the start of a line an attribute is taken
    simp [attributePattern, hstart] at hhit
  · obtain ⟨header, _, rfl⟩ := exists_of_headerPattern hhit
    exact List.append_ne_nil_of_right_ne_nil _ (by decide)

/-- Within a line something is left of whatever stands ahead. -/
theorem outputAt_ne_nil (hstart : window.atLineStart = false) (hahead : window.ahead ≠ []) :
    outputAt config window ≠ [] := by
  cases h : hitAt? builtinPatterns config window with
  | some hit =>
      rw [outputAt_of_hitAt? h]
      exact List.append_ne_nil_of_left_ne_nil (replacement_ne_nil_of_hitAt? hstart h) _
  | none =>
      obtain ⟨behind, ahead⟩ := window
      obtain ⟨c, rest, rfl⟩ := List.exists_cons_of_ne_nil hahead
      rw [outputAt_of_hitAt?_eq_none h]
      exact List.cons_ne_nil _ _

/-- What stands behind the first semicolon of the value is converted on its own. -/
theorem outputAt_literalProperty (property : LiteralProperty) {value : Statement}
    {rest : List Char} (h : property.text.quoted ++ [';'] = value.chars ++ ';' :: rest) :
    outputAt config (.ofText property.chars) =
      propertyDeclaration config property.name property.type ++
        outputAt config ⟨(property.declared value).chars.reverse, rest⟩ := by
  have hends : (property.declared value).body.EndsBefore rest := endsBefore_valueBody _ _ _
  have hproperty := @outputAt_property config (property.declared value) [] rest rfl hends
  rw [List.append_nil] at hproperty
  rw [property.chars_eq_declared h]
  exact hproperty

theorem atLineStart_behind_declared (property : LiteralProperty) (value : Statement)
    (rest : List Char) :
    Window.atLineStart ⟨(property.declared value).chars.reverse, rest⟩ = false := by
  obtain ⟨front, hfront⟩ : ∃ front, (property.declared value).chars = front ++ [';'] := by
    refine ⟨spacedChars property.access ++ (spacedChars property.members ++
      (property.type.chars ++ ' ' :: (property.name ++
        ' ' :: (valueOpening property.accessors ++ value.chars)))), ?_⟩
    simp [LiteralProperty.declared, PropertyDeclaration.chars, chars_valueBody]
  rw [Window.atLineStart, hfront, List.reverse_append]
  rfl

/-- **The value of a property is taken as a whole just if it holds no semicolon.** -/
theorem convertText_literalProperty (config : Config) (property : LiteralProperty) :
    let declared := (propertyName config (String.ofList property.name)).toList ++ ": ".toList ++
      (property.type.emit config.trimmer).toList ++ ";".toList
    let output := (convertText config (String.ofList property.chars)).toList
    declared <+: output ∧ (output = declared ↔ ';' ∉ property.text.chars) := by
  intro declared output
  obtain ⟨value, rest, htext, hrest⟩ := property.text.exists_statement
  have houtput : output = declared ++
      outputAt config ⟨(property.declared value).chars.reverse, rest⟩ := by
    have hline := @outputAt_literalProperty config property value rest htext
    simp only [output, convertText_eq, String.toList_ofList, hline]
    rfl
  refine ⟨houtput ▸ List.prefix_append _ _, ?_⟩
  rw [houtput, List.append_right_eq_self, ← hrest]
  constructor
  · intro hnil
    by_contra hne
    exact outputAt_ne_nil (atLineStart_behind_declared property value rest) hne hnil
  · rintro rfl
    exact outputAt_nil config _

/-- What stands behind a semicolon within a string is left over. -/
theorem exists_string_taken_in_part :
    ¬∀ (config : Config) (property : LiteralProperty), property.access = ["public"] →
      property.members = [] → property.accessors ∈ [some .getSet, none] →
        convertText config (String.ofList property.chars) =
          propertyName config (String.ofList property.name) ++ ": " ++
            property.type.emit config.trimmer ++ ";" := by
  intro h
  let property : LiteralProperty :=
    { access := ["public"]
      members := []
      type := ⟨"string", [], 0, false⟩
      name := "A".toList
      accessors := some .getSet
      text := ⟨"a;b".toList, List.forall_iff_forall_mem.mp (by decide)⟩
      access_mem := by decide
      members_mem := by decide
      type_names := .intro (by decide) (by simp)
      name_isWord := by decide }
  have hconverted := h {} property rfl rfl (by decide)
  have hsource : String.ofList property.chars =
      "public string A \x7b get; set; \x7d = \"a;b\";" := by
    decide +kernel
  have hoffered : propertyName {} (String.ofList property.name) ++ ": " ++
      property.type.emit ({} : Config).trimmer ++ ";" = "A: string;" := by
    decide +kernel
  have hleft : convertText {} "public string A \x7b get; set; \x7d = \"a;b\";" =
      "A: string;b\";" := by
    decide +kernel
  rw [hsource, hoffered, hleft] at hconverted
  exact absurd hconverted (by decide)

end TypeScribe
