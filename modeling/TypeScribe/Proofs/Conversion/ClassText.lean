import TypeScribe.Proofs.Conversion.PublicHeader

/-!
# Converting a class

A public class with one attribute or property a line becomes an interface with one line for each
property. The cursor enters every line at its start, so the lines are converted one by one.
-/

namespace TypeScribe

open Text Scan

/-- A line of a class body: an attribute or a property. -/
inductive ClassItem where
  | attributeLine (content : List Char) (fits : ∀ c ∈ content, isLineBreak c = false)
  | propertyLine (declaration : PropertyDeclaration)

def ClassItem.chars : ClassItem → List Char
  | .attributeLine content _ => "    [".toList ++ content ++ "]\n".toList
  | .propertyLine declaration => "    ".toList ++ declaration.chars ++ "\n".toList

theorem ClassItem.chars_attributeLine (content : List Char)
    (fits : ∀ c ∈ content, isLineBreak c = false) :
    (attributeLine content fits).chars = "    ".toList ++ '[' :: (content ++ [']', '\n']) := rfl

theorem ClassItem.chars_propertyLine (declaration : PropertyDeclaration) :
    (propertyLine declaration).chars = "    ".toList ++ (declaration.chars ++ ['\n']) := by
  unfold ClassItem.chars
  simp

/-- What stands for the line in the interface. -/
def ClassItem.converted (config : Config) : ClassItem → List Char
  | .attributeLine _ _ => []
  | .propertyLine declaration =>
      "    ".toList ++ (propertyName config (String.ofList declaration.name)).toList ++
        ": ".toList ++ (declaration.type.emit config.trimmer).toList ++ ";\n".toList

theorem ClassItem.converted_propertyLine (config : Config) (declaration : PropertyDeclaration) :
    (propertyLine declaration).converted config = "    ".toList ++
      (propertyDeclaration config declaration.name declaration.type ++ ['\n']) := by
  unfold ClassItem.converted propertyDeclaration
  simp

structure ClassText where
  name : List Char
  items : List ClassItem
  name_isWord : IsWord name

namespace ClassText

def chars (text : ClassText) : List Char :=
  "public class ".toList ++ text.name ++ " \x7b\n".toList ++
    text.items.flatMap ClassItem.chars ++ "\x7d\n".toList

def converted (config : Config) (text : ClassText) : List Char :=
  "export interface ".toList ++ (config.trimmer.trim (String.ofList text.name)).toList ++
    " \x7b\n".toList ++ text.items.flatMap (ClassItem.converted config) ++ "\x7d\n".toList

end ClassText

variable {config : Config}

/-! ### The lines of a class -/

theorem outputAt_attributeLine {content : List Char}
    (fits : ∀ c ∈ content, isLineBreak c = false) (behind rest : List Char) :
    ∃ behind', outputAt config
        ⟨'\n' :: behind, (ClassItem.attributeLine content fits).chars ++ rest⟩ =
      outputAt config ⟨'\n' :: behind', rest⟩ := by
  have hchars := ClassItem.chars_attributeLine content fits
  have hblanks : ∀ c ∈ "    ".toList, isBlank c = true :=
    List.forall_iff_forall_mem.mp (by decide)
  have hhit := attributePattern_append hblanks fits behind rest
  have hline : "    ".toList ++ '[' :: (content ++ ']' :: '\n' :: rest) =
      (ClassItem.attributeLine content fits).chars ++ rest := by
    simp [hchars]
  rw [hline, ← hchars] at hhit
  have hfirst : hitAt? builtinPatterns config
      ⟨'\n' :: behind, (ClassItem.attributeLine content fits).chars ++ rest⟩ =
        some ⟨(ClassItem.attributeLine content fits).chars.length, []⟩ :=
    hitAt?_of_attribute (propertyPattern_eq_none rfl) (summaryPattern_eq_none (by simp [hchars]))
      hhit
  refine ⟨(']' :: content.reverse) ++ ("    [".toList.reverse ++ '\n' :: behind), ?_⟩
  rw [outputAt_of_hitAt? hfirst, Window.advance_append, hchars]
  simp

theorem outputAt_propertyLine (declaration : PropertyDeclaration) (behind rest : List Char) :
    ∃ behind', outputAt config
        ⟨'\n' :: behind, (ClassItem.propertyLine declaration).chars ++ rest⟩ =
      (ClassItem.propertyLine declaration).converted config ++
        outputAt config ⟨'\n' :: behind', rest⟩ := by
  have hblanks : ∀ c ∈ "    ".toList, isBlank c = true :=
    List.forall_iff_forall_mem.mp (by decide)
  have hhead := head?_skipBlanks_ne (declaration.isAsciiWord_head? ('\n' :: rest))
  have hcomment : Window.inLineComment ⟨"    ".toList.reverse ++ '\n' :: behind,
      declaration.chars ++ '\n' :: rest⟩ = false := rfl
  have hrest : declaration.body.EndsBefore ('\n' :: rest) :=
    declaration.body.endsBefore (by simp [skipBlanks, isBlank])
  refine ⟨declaration.chars.reverse ++ ("    ".toList.reverse ++ '\n' :: behind), ?_⟩
  rw [ClassItem.chars_propertyLine, List.append_assoc, List.append_assoc, List.singleton_append,
    outputAt_blanks hblanks hhead, outputAt_property declaration hcomment hrest, outputAt_newline]
  simp [ClassItem.converted_propertyLine]

theorem outputAt_item (item : ClassItem) (behind rest : List Char) :
    ∃ behind', outputAt config ⟨'\n' :: behind, item.chars ++ rest⟩ =
      item.converted config ++ outputAt config ⟨'\n' :: behind', rest⟩ := by
  cases item with
  | attributeLine content fits => exact outputAt_attributeLine fits behind rest
  | propertyLine declaration => exact outputAt_propertyLine declaration behind rest

theorem outputAt_items (items : List ClassItem) (behind : List Char) :
    outputAt config ⟨'\n' :: behind, items.flatMap ClassItem.chars ++ "\x7d\n".toList⟩ =
      items.flatMap (ClassItem.converted config) ++ "\x7d\n".toList := by
  induction items generalizing behind with
  | nil =>
      have hbrace := @outputAt_cons config '\x7d' ('\n' :: behind) ['\n'] (by decide) (by decide)
        (by decide)
      rw [outputAt_newline, outputAt_nil] at hbrace
      exact hbrace
  | cons item items ih =>
      rw [List.flatMap_cons, List.flatMap_cons, List.append_assoc, List.append_assoc]
      obtain ⟨behind', hitem⟩ := outputAt_item item behind
        (items.flatMap ClassItem.chars ++ "\x7d\n".toList)
      rw [hitem, ih]

/-- The header of a class as a declared header. -/
def classDeclaration {name : List Char} (hname : IsWord name) : HeaderDeclaration where
  modifiers := []
  keyword := "class".toList
  name := name
  tail := []
  gap := [' ']
  modifiers_mem := List.forall_mem_nil _
  keyword_isWord := isWord_class
  keyword_head := by decide
  keyword_notMem := by decide
  name_isWord := hname
  tail_fits := List.forall_mem_nil _
  tail_head := rfl
  tail_last := rfl
  gap_spaces := List.forall_mem_singleton.mpr isSpace_space

theorem chars_classDeclaration {name : List Char} (hname : IsWord name) :
    (classDeclaration hname).chars = classHeader name := rfl

theorem outputAt_classHeader {name : List Char} (hname : IsWord name) {rest : List Char}
    (hrest : Blocked rest) :
    outputAt config (.ofText (classHeader name ++ rest)) =
      "export interface ".toList ++ config.trimmer.trimChars name ++ " \x7b".toList ++
        outputAt config ⟨(classHeader name).reverse, rest⟩ := by
  have hproperty : propertyPattern config (.ofText (classHeader name ++ rest)) = none := by
    apply acceptedHit_of_find_eq_none
    exact readProperty?_classHeader hname hrest
  have hheader := @outputAt_header config (classDeclaration hname) [] rest rfl rfl hproperty
  have hkeyword : "export ".toList ++
      (declarationKeyword (String.ofList "class".toList)).toList ++ [' '] =
        "export interface ".toList := by
    simp [declarationKeyword]
  have hexported : exportedHeader config ((classDeclaration hname).text rest) =
      "export interface ".toList ++ config.trimmer.trimChars name ++ " \x7b".toList := by
    unfold exportedHeader
    change "export ".toList ++ (declarationKeyword (String.ofList "class".toList)).toList ++ [' '] ++
      config.trimmer.trimChars name ++ [] ++ " \x7b".toList = _
    rw [hkeyword, List.append_nil]
  rwa [chars_classDeclaration, hexported, List.append_nil] at hheader

theorem blocked_items (items : List ClassItem) :
    Blocked ('\n' :: (items.flatMap ClassItem.chars ++ "\x7d\n".toList)) := by
  have hnewline : ∀ c ∈ ['\n'], isLoose c = true := List.forall_iff_forall_mem.mp (by decide)
  have hindent : ∀ c ∈ '\n' :: "    ".toList, isLoose c = true :=
    List.forall_iff_forall_mem.mp (by decide)
  cases items with
  | nil => exact (blocked_cons (by decide) (by decide) ['\n']).append hnewline
  | cons item items =>
      rw [List.flatMap_cons]
      cases item with
      | attributeLine content fits =>
          have hblocked := (@blocked_cons '[' (by decide) (by decide) (content ++
            ']' :: '\n' :: (items.flatMap ClassItem.chars ++ "\x7d\n".toList))).append hindent
          simpa [ClassItem.chars_attributeLine] using hblocked
      | propertyLine declaration =>
          have hblocked := (declaration.blocked
            ('\n' :: (items.flatMap ClassItem.chars ++ "\x7d\n".toList))).append hindent
          simpa [ClassItem.chars_propertyLine] using hblocked

theorem outputAt_class (text : ClassText) :
    outputAt config (.ofText text.chars) = text.converted config := by
  have hchars : text.chars = classHeader text.name ++
      '\n' :: (text.items.flatMap ClassItem.chars ++ "\x7d\n".toList) := by
    unfold ClassText.chars classHeader
    simp
  rw [hchars, outputAt_classHeader text.name_isWord (blocked_items text.items), outputAt_newline,
    outputAt_items]
  unfold ClassText.converted
  simp [Trimmer.trim]

/-- **A class becomes an interface**: the header with the trimmed name, each property in its order as
its name and its type, and no attribute. -/
theorem convertText_class (config : Config) (text : ClassText) :
    convertText config (String.ofList text.chars) = String.ofList (text.converted config) := by
  rw [convertText_eq, String.toList_ofList, outputAt_class]

theorem convertText_class_modifier_names :
    convertText {} "public class C \x7b\n    [Key]\n    public new new?[] get => x;\n\x7d\n" =
      "export interface C \x7b\n    get: new[] | undefined;\n\x7d\n" := by
  let property : PropertyDeclaration :=
    { access := ["public"]
      members := ["new"]
      type := ⟨"new", [], 1, true⟩
      name := "get".toList
      body := .expression ⟨"x".toList, List.forall_iff_forall_mem.mp (by decide)⟩
      access_mem := by decide
      members_mem := by decide
      type_names := .intro (by decide) (by simp)
      name_isWord := by decide }
  let text : ClassText :=
    { name := "C".toList
      items := [.attributeLine "Key".toList (List.forall_iff_forall_mem.mp (by decide)),
        .propertyLine property]
      name_isWord := by decide }
  have hsource : String.ofList text.chars =
      "public class C \x7b\n    [Key]\n    public new new?[] get => x;\n\x7d\n" := by
    decide +kernel
  have hconverted : String.ofList (text.converted {}) =
      "export interface C \x7b\n    get: new[] | undefined;\n\x7d\n" := by
    decide +kernel
  rw [← hsource, ← hconverted]
  exact convertText_class {} text

end TypeScribe
