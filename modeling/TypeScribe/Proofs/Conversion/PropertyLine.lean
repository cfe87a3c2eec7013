import TypeScribe.Proofs.Conversion.AtCursor
import TypeScribe.Proofs.Conversion.CommentLines
import TypeScribe.Proofs.Scan.DeclaredLine

/-!
# Properties on one line

Properties that share a line are converted one after the other, each as if it stood alone, until one
of them holds `//`. Whatever follows on the line counts as a comment then, also where the slashes
belong to the text of a string.
-/

namespace TypeScribe

open Text Scan TypeExpr

/-! ### Behind `//` -/

section Comment

variable {config : Config} {window : Window} {behind rest : List Char}

theorem mem_feed_of_summaryPattern {hit : Hit} (h : summaryPattern window = some hit) :
    '\n' ∈ window.ahead := by
  obtain ⟨_, hsummary, _⟩ := Option.bind_eq_some_iff.mp h
  obtain ⟨inside, htag, hlines⟩ := Option.bind_eq_some_iff.mp hsummary
  obtain ⟨after, hnewline, _⟩ := Option.bind_eq_some_iff.mp hlines
  obtain ⟨newline, hmem, hinside⟩ := exists_of_readNewline? hnewline
  have hfeed : '\n' ∈ skipBlanks inside := by
    have hnewlines : ∀ newline ∈ [['\n'], ['\r', '\n']], '\n' ∈ newline :=
      List.forall_iff_forall_mem.mp (by decide)
    rw [hinside]
    exact List.mem_append_left after (hnewlines newline hmem)
  exact ((skipBlanks_suffix inside).trans (suffix_of_readTag? htag)).subset hfeed

theorem hitAt?_eq_none_of_inLineComment (hcomment : window.inLineComment = true)
    (hfeed : '\n' ∉ window.ahead) : hitAt? builtinPatterns config window = none := by
  have hkeeps : ∀ hit, ¬KeepsOff window hit := by
    intro hit hkeeps
    exact absurd hcomment (by simp [hkeeps.inLineComment])
  apply hitAt?_builtin_eq_none
  · exact Option.eq_none_iff_forall_ne_some.mpr fun hit hhit =>
      hkeeps hit (keepsOff_of_propertyPattern hhit)
  · exact Option.eq_none_iff_forall_ne_some.mpr fun hit hhit =>
      hfeed (mem_feed_of_summaryPattern hhit)
  · exact Option.eq_none_iff_forall_ne_some.mpr fun hit hhit =>
      hkeeps hit (keepsOff_of_attributePattern hhit)
  · exact Option.eq_none_iff_forall_ne_some.mpr fun hit hhit =>
      hkeeps hit (keepsOff_of_headerPattern hhit)

/-- The rest of a line stays as it is behind `//`. -/
theorem outputAt_of_inLineComment (hcomment : Window.inLineComment ⟨behind, rest⟩ = true)
    (hfeed : '\n' ∉ rest) : outputAt config ⟨behind, rest⟩ = rest := by
  induction rest generalizing behind with
  | nil => exact outputAt_nil config behind
  | cons c rest ih =>
      obtain ⟨hc, hrest⟩ := not_or.mp (mt List.mem_cons.mpr hfeed)
      have hnext : Window.inLineComment ⟨c :: behind, rest⟩ = true :=
        @Window.inLineComment_append behind [c] rest (by simpa using hc) hcomment
      rw [outputAt_of_hitAt?_eq_none (hitAt?_eq_none_of_inLineComment hcomment hfeed), ih hnext hrest]

end Comment

/-! ### Declarations on one line -/

theorem intercalate_blank {text : List Char} {texts : List (List Char)} (h : texts ≠ []) :
    [' '].intercalate (text :: texts) = text ++ ' ' :: [' '].intercalate texts := by
  obtain ⟨other, texts, rfl⟩ := List.exists_cons_of_ne_nil h
  simp [List.intercalate_cons_cons]

/-- The property as it is declared in the converted text. -/
def Scan.PropertyDeclaration.converted (config : Config) (property : PropertyDeclaration) :
    List Char :=
  (propertyName config (String.ofList property.name)).toList ++ ": ".toList ++
    (property.type.emit config.trimmer).toList ++ ";".toList

theorem Scan.PropertyDeclaration.converted_eq (config : Config) (property : PropertyDeclaration) :
    property.converted config = propertyDeclaration config property.name property.type := rfl

/-- Properties on one line, with single spaces between them. -/
def lineChars (properties : List PropertyDeclaration) : List Char :=
  [' '].intercalate (properties.map PropertyDeclaration.chars)

theorem lineChars_singleton (property : PropertyDeclaration) :
    lineChars [property] = property.chars :=
  List.intercalate_singleton

theorem lineChars_cons_cons (property other : PropertyDeclaration)
    (properties : List PropertyDeclaration) : lineChars (property :: other :: properties) =
      property.chars ++ ' ' :: lineChars (other :: properties) :=
  intercalate_blank (List.cons_ne_nil _ _)

theorem isAsciiWord_head?_lineChars (property : PropertyDeclaration)
    (properties : List PropertyDeclaration) :
    (lineChars (property :: properties)).head?.any isAsciiWord = true := by
  cases properties with
  | nil => simpa [lineChars_singleton] using property.isAsciiWord_head? []
  | cons other properties =>
      rw [lineChars_cons_cons]
      exact property.isAsciiWord_head? _

theorem unbroken_lineChars (properties : List PropertyDeclaration) :
    Unbroken (lineChars properties) := by
  have hspace : Unbroken [' '] := by decide
  apply forall_mem_intercalate hspace
  exact List.forall_mem_map.mpr fun property _ => property.unbroken_chars

/-- What becomes of properties on one line. Behind a property that holds `//` the line stays. -/
def convertLine (config : Config) : List PropertyDeclaration → List Char
  | [] => []
  | [property] => property.converted config
  | property :: other :: properties =>
      property.converted config ++
        ' ' :: if hasPair '/' '/' property.chars then lineChars (other :: properties)
          else convertLine config (other :: properties)

section Line

variable {config : Config}

/-- A property is converted, and behind it the line is converted unless it has become a comment. -/
theorem outputAt_property_blank (property : PropertyDeclaration) {behind rest : List Char}
    (hcomment : Window.inLineComment ⟨behind, property.chars ++ ' ' :: rest⟩ = false)
    (hhead : rest.head?.any isAsciiWord = true) (hrest : Unbroken rest) :
    outputAt config ⟨behind, property.chars ++ ' ' :: rest⟩ =
      property.converted config ++
        ' ' :: if hasPair '/' '/' property.chars then rest
          else outputAt config ⟨' ' :: (property.chars.reverse ++ behind), rest⟩ := by
  have hspace : ∀ c ∈ [' '], isBlank c = true := List.forall_iff_forall_mem.mp (by decide)
  have hskip : skipBlanks (' ' :: rest) = rest :=
    (List.dropWhile_cons_of_pos rfl).trans (skipBlanks_eq_self (isSpace_head?_eq_false hhead))
  have hends : property.body.EndsBefore (' ' :: rest) := by
    apply property.body.endsBefore
    rw [hskip]
    intro hequals
    simp [hequals, isAsciiWord] at hhead
  have hbehind := property.inLineComment_behind hcomment
  rw [outputAt_property property hcomment hends, ← property.converted_eq]
  cases hpair : hasPair '/' '/' property.chars with
  | true =>
      have hfeed : '\n' ∉ ' ' :: rest := by
        simpa using hrest.not_mem_feed
      rw [outputAt_of_inLineComment (hbehind.trans hpair) hfeed, if_pos rfl]
  | false =>
      have hblank := @outputAt_blanks config [' '] (property.chars.reverse ++ behind) rest hspace
        (head?_skipBlanks_ne hhead)
      rw [if_neg Bool.false_ne_true, ← List.singleton_append, hblank]
      rfl

/-- A line of properties is converted from its front, as long as the cursor is in no comment. -/
theorem outputAt_lineChars (properties : List PropertyDeclaration) {behind : List Char}
    (hcomment : Window.inLineComment ⟨behind, lineChars properties⟩ = false) :
    outputAt config ⟨behind, lineChars properties⟩ = convertLine config properties := by
  induction properties generalizing behind with
  | nil => exact outputAt_nil config behind
  | cons property properties ih =>
      cases properties with
      | nil =>
          have hends : property.body.EndsBefore [] := property.body.endsBefore (by decide)
          have hproperty := @outputAt_property config property behind [] hcomment hends
          rw [outputAt_nil, List.append_nil, List.append_nil] at hproperty
          rw [lineChars_singleton, hproperty, convertLine, property.converted_eq]
      | cons other properties =>
          rw [lineChars_cons_cons] at hcomment ⊢
          rw [outputAt_property_blank property hcomment (isAsciiWord_head?_lineChars other properties)
            (unbroken_lineChars (other :: properties)), convertLine]
          cases hpair : hasPair '/' '/' property.chars with
          | true => rfl
          | false =>
              have hbehind := (property.inLineComment_behind hcomment).trans hpair
              have hnext : Window.inLineComment ⟨' ' :: (property.chars.reverse ++ behind),
                  lineChars (other :: properties)⟩ = false :=
                @Window.inLineComment_append_eq _ [' '] _ (by decide) (by decide) hbehind
              rw [if_neg Bool.false_ne_true, if_neg Bool.false_ne_true, ih hnext]

/-! ### When every property is converted -/

theorem mem_front_of_mem_takeWhile {p : Char → Bool} {front rest : List Char} {c d : Char}
    (hd : p d = false) (hc : c ∈ (front ++ d :: rest).takeWhile p) : c ∈ front := by
  rw [List.takeWhile_append, List.takeWhile_cons_of_neg (by simp [hd]), List.append_nil] at hc
  split at hc
  · exact hc
  · exact (List.takeWhile_prefix p).subset hc

theorem colon_not_mem_takeWhile (property : PropertyDeclaration) (rest : List Char) :
    ':' ∉ (property.chars ++ rest).takeWhile (· != ' ') := by
  intro hcolon
  rw [property.chars_eq_front, List.append_assoc, List.cons_append] at hcolon
  exact property.colon_not_mem_front (mem_front_of_mem_takeWhile (by decide) hcolon)

theorem colon_mem_takeWhile (property : PropertyDeclaration) (rest : List Char) :
    ':' ∈ (property.converted config ++ rest).takeWhile (· != ' ') := by
  have hword : ∀ c ∈ (propertyName config (String.ofList property.name)).toList ++ [':'],
      (c != ' ') = true := by
    rw [List.forall_mem_append, List.forall_mem_singleton]
    refine ⟨fun c hc => ?_, by decide⟩
    rw [bne_iff_ne]
    rintro rfl
    exact absurd (isAsciiWord_of_mem_propertyName property.name_isWord ' ' hc) (by decide)
  have hchars : property.converted config ++ rest =
      ((propertyName config (String.ofList property.name)).toList ++ [':']) ++
        ' ' :: ((property.type.emit config.trimmer).toList ++ ";".toList ++ rest) := by
    simp [PropertyDeclaration.converted]
  rw [hchars, takeWhile_append_of_boundary hword rfl]
  simp

/-- A property that stays is spelled differently from a converted one. -/
theorem lineChars_ne_intercalate (property : PropertyDeclaration)
    (properties : List PropertyDeclaration) (texts : List (List Char)) :
    lineChars (property :: properties) ≠ [' '].intercalate (property.converted config :: texts) := by
  intro hequal
  obtain ⟨rest, hline⟩ := exists_intercalate_cons [' '] property.chars
    (properties.map PropertyDeclaration.chars)
  obtain ⟨rest', htexts⟩ := exists_intercalate_cons [' '] (property.converted config) texts
  rw [lineChars, List.map_cons, hline, htexts] at hequal
  have hcolon := @colon_mem_takeWhile config property rest'
  rw [← hequal] at hcolon
  exact colon_not_mem_takeWhile property rest hcolon

theorem convertLine_eq_iff (properties : List PropertyDeclaration) :
    convertLine config properties =
        [' '].intercalate (properties.map (PropertyDeclaration.converted config)) ↔
      ∀ property ∈ properties.dropLast, hasPair '/' '/' property.chars = false := by
  induction properties with
  | nil => simp [convertLine]
  | cons property properties ih =>
      cases properties with
      | nil => simp [convertLine]
      | cons other properties =>
          rw [List.dropLast_cons_cons, List.forall_mem_cons, ← ih, convertLine, List.map_cons,
            intercalate_blank (by simp), List.append_cancel_left_eq, List.cons_inj_right]
          cases hpair : hasPair '/' '/' property.chars with
          | true =>
              rw [if_pos rfl, List.map_cons]
              simp [lineChars_ne_intercalate]
          | false => simp

/-- **Properties on one line are converted one by one** up to the first of them that holds `//`. So all
of them are converted just if none but the last holds it. -/
theorem convertText_lineChars (config : Config) (properties : List PropertyDeclaration) :
    let output := convertText config (String.ofList (lineChars properties))
    output = String.ofList (convertLine config properties) ∧
      (output = String.ofList
          ([' '].intercalate (properties.map (PropertyDeclaration.converted config))) ↔
        ∀ property ∈ properties.dropLast, ¬"//".toList <:+: property.chars) := by
  intro output
  have houtput : output = String.ofList (convertLine config properties) := by
    have hline : outputAt config (.ofText (lineChars properties)) = convertLine config properties :=
      outputAt_lineChars properties rfl
    rw [← hline]
    simp only [output, convertText_eq, String.toList_ofList]
  have hslashes : ∀ property : PropertyDeclaration,
      hasPair '/' '/' property.chars = false ↔ ¬"//".toList <:+: property.chars := by
    intro property
    rw [Bool.eq_false_iff, ne_eq, hasPair_eq_true_iff]
    rfl
  refine ⟨houtput, ?_⟩
  rw [houtput, String.ofList_inj, convertLine_eq_iff]
  simp only [hslashes]

end Line

/-- A `//` within a string keeps the property that follows on the line. -/
theorem exists_property_kept_behind_string :
    ¬∀ (config : Config) (properties : List PropertyDeclaration),
      (∀ property ∈ properties, property.access = ["public"] ∧ property.members = [] ∧
        (property.body = .accessors .getSet none ∨
          ∃ text, (∀ c ∈ text, c ∉ ['"', '\\', ';', '\r', '\n']) ∧
            property.body.chars = "=> \"".toList ++ text ++ "\";".toList)) →
        convertText config (String.ofList (lineChars properties)) =
          String.ofList
            ([' '].intercalate (properties.map (PropertyDeclaration.converted config))) := by
  intro h
  let link : PropertyDeclaration :=
    { access := ["public"]
      members := []
      type := ⟨"string", [], 0, false⟩
      name := "A".toList
      body := .expression ⟨"\"http://a\"".toList, List.forall_iff_forall_mem.mp (by decide)⟩
      access_mem := by decide
      members_mem := by decide
      type_names := .intro (by decide) (by simp)
      name_isWord := by decide }
  let number : PropertyDeclaration :=
    { access := ["public"]
      members := []
      type := ⟨"int", [], 0, false⟩
      name := "B".toList
      body := .accessors .getSet none
      access_mem := by decide
      members_mem := by decide
      type_names := .intro (by decide) (by simp)
      name_isWord := by decide }
  have hlink : ∃ text, (∀ c ∈ text, c ∉ ['"', '\\', ';', '\r', '\n']) ∧
      link.body.chars = "=> \"".toList ++ text ++ "\";".toList :=
    ⟨"http://a".toList, List.forall_iff_forall_mem.mp (by decide), by decide⟩
  have hconverted := h {} [link, number] <| List.forall_mem_cons.mpr
    ⟨⟨rfl, rfl, .inr hlink⟩, List.forall_mem_singleton.mpr ⟨rfl, rfl, .inl rfl⟩⟩
  have hsource : String.ofList (lineChars [link, number]) =
      "public string A => \"http://a\"; public int B \x7b get; set; \x7d" := by
    decide +kernel
  have hoffered : String.ofList
      ([' '].intercalate ([link, number].map (PropertyDeclaration.converted {}))) =
        "A: string; B: number;" := by
    decide +kernel
  have hkept : convertText {} "public string A => \"http://a\"; public int B \x7b get; set; \x7d" =
      "A: string; public int B \x7b get; set; \x7d" := by
    decide +kernel
  rw [hsource, hoffered, hkept] at hconverted
  exact absurd hconverted (by decide)

end TypeScribe
