import TypeScribe.Proofs.Scan.LineEndings

/-!
# The parts of a property

A text that is read as a property falls into keywords, a word, perhaps a generic part, marks and
brackets, the name, and the body. Up to the body nothing in it can open or end a body, and behind the
generic part stand no angle brackets and, but for the name, no words.
-/

namespace TypeScribe.Scan

open Text TypeExpr

/-- The characters at which a body opens or ends. -/
def bodyMarks : List Char := [';', '\x7b', '\x7d', '=']

/-- The characters that may stand between a type name with its arguments and the property's name. -/
def isTypeEnd (c : Char) : Bool := isSpace c || c ∈ ['?', '[', ']', ',']

theorem isTypeEnd_of_isSpace {c : Char} (h : isSpace c = true) : isTypeEnd c = true := by
  rw [isTypeEnd, h, Bool.true_or]

theorem class_of_isSpace {c : Char} (h : isSpace c = true) : c ∉ '<' :: '>' :: bodyMarks := by
  have hvisible : ∀ mark ∈ '<' :: '>' :: bodyMarks, isSpace mark = false :=
    List.forall_iff_forall_mem.mp (by decide)
  intro hmem
  simp [hvisible c hmem] at h

theorem class_of_isAsciiWord {c : Char} (h : isAsciiWord c = true) :
    c ∉ '<' :: '>' :: bodyMarks := by
  have hmarks : ∀ mark ∈ '<' :: '>' :: bodyMarks, isAsciiWord mark = false :=
    List.forall_iff_forall_mem.mp (by decide)
  intro hmem
  simp [hmarks c hmem] at h

theorem class_of_isLoose {c : Char} (h : isLoose c = true) : c ∉ '<' :: '>' :: bodyMarks := by
  rcases Bool.or_eq_true_iff.mp h with hword | hspace
  · exact class_of_isAsciiWord hword
  · exact class_of_isSpace hspace

theorem class_of_isTypeEnd {c : Char} (h : isTypeEnd c = true) :
    isAsciiWord c = false ∧ c ∉ '<' :: '>' :: bodyMarks := by
  have hmarks : ∀ mark ∈ ['?', '[', ']', ','],
      isAsciiWord mark = false ∧ mark ∉ '<' :: '>' :: bodyMarks :=
    List.forall_iff_forall_mem.mp (by decide)
  rcases Bool.or_eq_true_iff.mp h with hspace | hmark
  · exact ⟨isAsciiWord_eq_false_of_isSpace hspace, class_of_isSpace hspace⟩
  · exact hmarks c (by simpa using hmark)

/-! ### The end of the type -/

/-- What ends a type, as far as it belongs to the type, and the white space behind it. -/
structure TypeEnd where
  gap : List Char
  mark : List Char
  brackets : List Char
  blanks : List Char
  rank : Nat
  isNullable : Bool
  spaces_gap : Spaces gap
  mark_fits : Mark mark isNullable
  brackets_fits : Brackets brackets rank
  spaces_blanks : Spaces blanks

/-- The part that belongs to the type. -/
def TypeEnd.trail (typeEnd : TypeEnd) : List Char :=
  typeEnd.gap ++ (typeEnd.mark ++ typeEnd.brackets)

def TypeEnd.chars (typeEnd : TypeEnd) : List Char := typeEnd.trail ++ typeEnd.blanks

theorem isTypeEnd_of_mem_mark {mark : List Char} {isNullable : Bool} (h : Mark mark isNullable) :
    ∀ c ∈ mark, isTypeEnd c = true := by
  cases h with
  | absent => simp
  | present htrail =>
      refine List.forall_mem_cons.mpr ⟨by decide, fun c hc => isTypeEnd_of_isSpace (htrail c hc)⟩

theorem isTypeEnd_of_mem_brackets {brackets : List Char} {rank : Nat}
    (h : Brackets brackets rank) : ∀ c ∈ brackets, isTypeEnd c = true := by
  induction h with
  | nil => simp
  | cons hinside htrail _ ih =>
      intro c hc
      simp only [List.cons_append, List.mem_cons, List.mem_append] at hc
      rcases hc with rfl | hc | rfl | hc | hc
      · decide
      · rcases hinside c hc with rfl | hspace
        · decide
        · exact isTypeEnd_of_isSpace hspace
      · decide
      · exact isTypeEnd_of_isSpace (htrail c hc)
      · exact ih c hc

theorem TypeEnd.isTypeEnd_of_mem (typeEnd : TypeEnd) : ∀ c ∈ typeEnd.chars, isTypeEnd c = true := by
  intro c hc
  simp only [TypeEnd.chars, TypeEnd.trail, List.mem_append] at hc
  rcases hc with (hc | hc | hc) | hc
  · exact isTypeEnd_of_isSpace (typeEnd.spaces_gap c hc)
  · exact isTypeEnd_of_mem_mark typeEnd.mark_fits c hc
  · exact isTypeEnd_of_mem_brackets typeEnd.brackets_fits c hc
  · exact isTypeEnd_of_isSpace (typeEnd.spaces_blanks c hc)

theorem exists_brackets_of_skipBrackets (text : List Char) :
    ∃ brackets rank, text = brackets ++ skipBrackets text ∧ Brackets brackets rank := by
  induction hlength : text.length using Nat.strongRecOn generalizing text with
  | ind length ih =>
      subst hlength
      rw [skipBrackets.eq_def]
      split
      · next inside =>
          split
          · next after hcommas =>
              have hinside : inside = inside.takeWhile (· == ',') ++ ']' :: after := by
                rw [← hcommas, List.takeWhile_append_dropWhile]
              have hshorter : after.length < ('[' :: inside).length := by
                rw [hinside]
                simp only [List.length_cons, List.length_append]
                omega
              obtain ⟨brackets, rank, hafter, hbrackets⟩ := ih after.length hshorter after rfl
              have hcomma : ∀ c ∈ inside.takeWhile (· == ','), c = ',' ∨ isSpace c = true :=
                fun c hc => .inl (by simpa using List.mem_takeWhile_imp hc)
              refine ⟨_, _, ?_, .cons hcomma spaces_nil hbrackets⟩
              calc '[' :: inside
                  = '[' :: (inside.takeWhile (· == ',') ++
                      ']' :: (brackets ++ skipBrackets after)) := by rw [← hafter, ← hinside]
                _ = _ := by simp
          · exact ⟨[], 0, rfl, .nil⟩
      · exact ⟨[], 0, rfl, .nil⟩

theorem exists_mark_of_readText? (text : List Char) :
    ∃ mark isNullable, text = mark ++ (readText? "?" text).getD text ∧ Mark mark isNullable := by
  cases hread : readText? "?" text with
  | none => exact ⟨[], false, rfl, .absent⟩
  | some rest => exact ⟨['?'], true, eq_append_of_readText? hread, .present spaces_nil⟩

theorem exists_blanks_of_readSpaces? {text rest : List Char} (h : readSpaces? text = some rest) :
    ∃ blanks, text = blanks ++ rest ∧ Spaces blanks ∧ blanks ≠ [] := by
  cases text with
  | nil => simp [readSpaces?] at h
  | cons c text =>
      rw [readSpaces?] at h
      split at h
      · next hspace =>
          obtain rfl := Option.some.inj h
          refine ⟨c :: text.takeWhile isSpace, ?_,
            List.forall_mem_cons.mpr ⟨hspace, takeWhile_spaces text⟩, List.cons_ne_nil _ _⟩
          rw [List.cons_append, skipSpaces, List.takeWhile_append_dropWhile]
      · simp at h

/-- Between the type and the name white space has to stand. -/
theorem exists_of_readTypeEnd? {text after rest : List Char}
    (h : readTypeEnd? text = some (after, rest)) :
    ∃ typeEnd : TypeEnd, text = typeEnd.trail ++ after ∧ after = typeEnd.blanks ++ rest ∧
      typeEnd.chars ≠ [] := by
  have hsplit : text = text.takeWhile isSpace ++ skipSpaces text :=
    List.takeWhile_append_dropWhile.symm
  unfold readTypeEnd? at h
  dsimp only at h
  split at h
  · split at h
    · next hspace =>
        obtain ⟨rfl, rfl⟩ := by simpa using h
        refine ⟨⟨text.takeWhile isSpace, [], [], [], 0, false, takeWhile_spaces text, .absent, .nil,
          spaces_nil⟩, by simpa [TypeEnd.trail] using hsplit, rfl, fun hnil => ?_⟩
        cases text with
        | nil => simp at hspace
        | cons c text => simp [TypeEnd.chars, TypeEnd.trail, show isSpace c = true from hspace] at hnil
    · simp at h
  · obtain ⟨last, hlast, heq⟩ := Option.map_eq_some_iff.mp h
    obtain ⟨rfl, rfl⟩ := by simpa using heq
    obtain ⟨mark, isNullable, hmarked, hmark⟩ := exists_mark_of_readText? (skipSpaces text)
    generalize (readText? "?" (skipSpaces text)).getD (skipSpaces text) = marked at hmarked hlast
    obtain ⟨brackets, rank, hbrackets, hfits⟩ := exists_brackets_of_skipBrackets marked
    generalize skipBrackets marked = after at hbrackets hlast
    obtain ⟨blanks, rfl, hblanks, hne⟩ := exists_blanks_of_readSpaces? hlast
    refine ⟨⟨text.takeWhile isSpace, mark, brackets, blanks, rank, isNullable, takeWhile_spaces text,
      hmark, hfits, hblanks⟩, ?_, rfl, by simp [TypeEnd.chars, hne]⟩
    rw [TypeEnd.trail, List.append_assoc, List.append_assoc, ← hbrackets, ← hmarked, ← hsplit]

/-! ### The whole property -/

/-- The generic part of a type, in the widest sense: whatever stands between the first `<` and the
last `>`. -/
structure GenericPart where
  gap : List Char
  inside : List Char
  spaces_gap : Spaces gap
  inside_fits : ∀ c ∈ inside, c ∉ bodyMarks

def GenericPart.chars (generic : GenericPart) : List Char :=
  generic.gap ++ '<' :: (generic.inside ++ ['>'])

/-- A property from its type on. -/
structure PropertyParts where
  word : List Char
  generic : Option GenericPart
  typeEnd : TypeEnd
  name : List Char
  gap : List Char
  body : List Char
  isWord_word : IsWord word
  isWord_name : IsWord name
  spaces_gap : Spaces gap
  typeEnd_ne : typeEnd.chars ≠ []

namespace PropertyParts

variable (parts : PropertyParts)

def genericChars : List Char := (parts.generic.map GenericPart.chars).getD []

def type : List Char := parts.word ++ (parts.genericChars ++ parts.typeEnd.trail)

/-- What stands behind the generic part and before the body. -/
def close : List Char := parts.typeEnd.chars ++ (parts.name ++ parts.gap)

/-- What stands before the body. -/
def head : List Char := parts.word ++ (parts.genericChars ++ parts.close)

theorem not_mem_of_mem_close : ∀ c ∈ parts.close, c ∉ '<' :: '>' :: bodyMarks := by
  intro c hc
  simp only [close, List.mem_append] at hc
  rcases hc with hc | hc | hc
  · exact (class_of_isTypeEnd (parts.typeEnd.isTypeEnd_of_mem c hc)).2
  · exact class_of_isAsciiWord (parts.isWord_name.2 c hc)
  · exact class_of_isSpace (parts.spaces_gap c hc)

theorem not_mem_bodyMarks : ∀ c ∈ parts.head, c ∉ bodyMarks := by
  have hmarks : ∀ {c : Char}, c ∉ '<' :: '>' :: bodyMarks → c ∉ bodyMarks := fun h hc =>
    h (List.mem_cons_of_mem _ (List.mem_cons_of_mem _ hc))
  intro c hc
  simp only [head, List.mem_append] at hc
  rcases hc with hc | hc | hc
  · exact hmarks (class_of_isAsciiWord (parts.isWord_word.2 c hc))
  · cases hgeneric : parts.generic with
    | none => simp [genericChars, hgeneric] at hc
    | some generic =>
        simp only [genericChars, hgeneric, Option.map_some, Option.getD_some, GenericPart.chars,
          List.mem_append, List.mem_cons, List.not_mem_nil, or_false] at hc
        rcases hc with hc | rfl | hc | rfl
        · exact hmarks (class_of_isSpace (generic.spaces_gap c hc))
        · decide
        · exact generic.inside_fits c hc
        · decide
  · exact hmarks (parts.not_mem_of_mem_close c hc)

end PropertyParts

theorem exists_inside_of_mem_afterGeneric {text rest : List Char} (h : rest ∈ afterGeneric text) :
    ∃ inside, text = inside ++ '>' :: rest ∧ ∀ c ∈ inside, c ∉ bodyMarks := by
  induction text with
  | nil => simp [afterGeneric] at h
  | cons c text ih =>
      have hcons : c ∉ bodyMarks → rest ∈ afterGeneric text →
          ∃ inside, c :: text = inside ++ '>' :: rest ∧ ∀ d ∈ inside, d ∉ bodyMarks := by
        intro hc hrest
        obtain ⟨inside, rfl, hinside⟩ := ih hrest
        exact ⟨c :: inside, rfl, List.forall_mem_cons.mpr ⟨hc, hinside⟩⟩
      rw [afterGeneric] at h
      split at h
      · next hangle =>
          rcases List.mem_cons.mp h with rfl | h
          · exact ⟨[], by rw [hangle]; rfl, by simp⟩
          · exact hcons (by rw [hangle]; decide) h
      · split at h
        · simp at h
        · next hother =>
            refine hcons (fun hc => hother ?_) h
            simp only [bodyMarks, List.mem_cons, List.not_mem_nil, or_false] at hc ⊢
            tauto

theorem exists_generic_of_mem_afterTypeName {text rest : List Char} (h : rest ∈ afterTypeName text) :
    ∃ word, ∃ generic : Option GenericPart,
      text = word ++ ((generic.map GenericPart.chars).getD [] ++ rest) ∧ IsWord word := by
  unfold afterTypeName at h
  split at h
  · simp at h
  · next word behind hread =>
      have htext := eq_append_of_readWord? hread
      have hword := isWord_of_readWord? hread
      split at h
      · next angles hangles =>
          obtain ⟨inside, hinside, hfits⟩ := exists_inside_of_mem_afterGeneric h
          refine ⟨word, some ⟨behind.takeWhile isSpace, inside, takeWhile_spaces _, hfits⟩, ?_, hword⟩
          have hbehind : behind = behind.takeWhile isSpace ++ '<' :: (inside ++ '>' :: rest) := by
            rw [← hinside, ← hangles, skipSpaces, List.takeWhile_append_dropWhile]
          simpa [GenericPart.chars, ← hbehind] using htext
      · obtain rfl := List.mem_singleton.mp h
        exact ⟨word, none, htext, hword⟩

/-- Behind the type name and its arguments the property goes on with the same text, however they are
read. -/
structure PropertyParts.ReadFrom (parts : PropertyParts) (text : List Char)
    (property : PropertyText) : Prop where
  text_eq : text = parts.head ++ parts.body
  type_eq : property.type = parts.type
  name_eq : property.name = parts.name
  readBody? : readBody? parts.body = some property.rest
  /-- Where the type ends is decided by what stands behind its arguments. -/
  readTypeEnd? : readTypeEnd? (parts.close ++ parts.body) =
    some (parts.typeEnd.blanks ++ (parts.name ++ (parts.gap ++ parts.body)),
      parts.name ++ (parts.gap ++ parts.body))

theorem exists_parts_of_readTypedProperty? {text : List Char} {property : PropertyText}
    (h : readTypedProperty? text = some property) :
    ∃ parts : PropertyParts, parts.ReadFrom text property := by
  obtain ⟨behind, hmem, h⟩ := List.exists_of_findSome?_eq_some h
  obtain ⟨⟨after, rest⟩, hend, h⟩ := Option.bind_eq_some_iff.mp h
  obtain ⟨⟨name, last⟩, hname, h⟩ := Option.bind_eq_some_iff.mp h
  obtain rfl := Option.some.inj h
  obtain ⟨⟨name', gapped⟩, hword, hname⟩ := Option.bind_eq_some_iff.mp hname
  obtain ⟨last', hbody, heq⟩ := Option.bind_eq_some_iff.mp hname
  obtain ⟨rfl, rfl⟩ := by simpa using heq
  obtain ⟨typeEnd, rfl, rfl, hne⟩ := exists_of_readTypeEnd? hend
  obtain rfl := eq_append_of_readWord? hword
  have hgap : gapped = gapped.takeWhile isSpace ++ skipSpaces gapped :=
    List.takeWhile_append_dropWhile.symm
  obtain ⟨word, generic, htext, hisWord⟩ := exists_generic_of_mem_afterTypeName hmem
  let parts : PropertyParts :=
    ⟨word, generic, typeEnd, name', gapped.takeWhile isSpace, skipSpaces gapped, hisWord,
      isWord_of_readWord? hword, takeWhile_spaces _, hne⟩
  have hclose : parts.close ++ parts.body =
      typeEnd.trail ++ (typeEnd.blanks ++ (name' ++ gapped)) := by
    simp only [PropertyParts.close, TypeEnd.chars, List.append_assoc, parts]
    rw [← hgap]
  refine ⟨parts, ?_, ?_, rfl, hbody, ?_⟩
  · rw [PropertyParts.head, List.append_assoc, List.append_assoc, hclose]
    exact htext
  · have hsplit : text = parts.type ++ (typeEnd.blanks ++ (name' ++ gapped)) := by
      rw [htext]
      simp [PropertyParts.type, PropertyParts.genericChars, parts]
    simp only [hsplit, take_sub_length]
  · rw [hclose]
    have hgap' : parts.gap ++ parts.body = gapped := hgap.symm
    rw [hgap']
    exact hend

/-! ### In front of the type -/

/-- What taking off a keyword leaves true holds of each text behind keywords. -/
theorem forall_mem_afterKeywords {words : List String} {p : List Char → Prop}
    (hkeyword : ∀ text rest, p text → readKeyword? words text = some rest → p rest)
    {text : List Char} (h : p text) : ∀ rest ∈ afterKeywords words text, p rest := by
  intro rest hrest
  induction hlength : text.length using Nat.strongRecOn generalizing text with
  | ind length ih =>
      subst hlength
      cases hread : readKeyword? words text with
      | none =>
          rw [afterKeywords_of_none hread, List.mem_singleton] at hrest
          exact hrest ▸ h
      | some after =>
          rw [afterKeywords_of_some hread, List.mem_append, List.mem_singleton] at hrest
          rcases hrest with hrest | rfl
          · exact ih _ (length_lt_of_readKeyword? hread) (hkeyword _ _ h hread) hrest rfl
          · exact h

theorem exists_front_of_mem_afterKeywords {words : List String} {text rest : List Char}
    (h : rest ∈ afterKeywords words text) :
    ∃ front, text = front ++ rest ∧ ∀ c ∈ front, isLoose c = true := by
  refine forall_mem_afterKeywords (p := fun rest => ∃ front, text = front ++ rest ∧
    ∀ c ∈ front, isLoose c = true) ?_ ⟨[], rfl, by simp⟩ rest h
  rintro _ after ⟨front, htext, hfront⟩ hread
  obtain ⟨keyword, rfl, hloose⟩ := exists_of_readKeyword? hread
  refine ⟨front ++ keyword, by rw [htext, List.append_assoc], fun c hc => ?_⟩
  exact (List.mem_append.mp hc).elim (hfront c) (hloose c)

/-- In front of the type stand keywords. -/
theorem exists_parts_of_readProperty? {text : List Char} {property : PropertyText}
    (h : readProperty? text = some property) :
    ∃ lead rest, ∃ parts : PropertyParts, text = lead ++ rest ∧
      (∀ c ∈ lead, isLoose c = true) ∧ parts.ReadFrom rest property := by
  obtain ⟨access, haccess, hmembers⟩ := List.exists_of_findSome?_eq_some h
  obtain ⟨member, hmember, htyped⟩ := List.exists_of_findSome?_eq_some hmembers
  obtain ⟨front, rfl, hfront⟩ := exists_front_of_mem_afterKeywords haccess
  obtain ⟨more, rfl, hmore⟩ := exists_front_of_mem_afterKeywords hmember
  obtain ⟨parts, hparts⟩ := exists_parts_of_readTypedProperty? htyped
  refine ⟨front ++ more, member, parts, (List.append_assoc _ _ _).symm, fun c hc => ?_, hparts⟩
  exact (List.mem_append.mp hc).elim (hfront c) (hmore c)

/-- A hit takes a property that begins outside of line comments, and whose type is well-formed. -/
theorem exists_of_propertyPattern {config : Config} {window : Window} {hit : Hit}
    (h : propertyPattern config window = some hit) :
    ∃ property type, readProperty? window.ahead = some property ∧ window.inLineComment = false ∧
      Derives property.type type ∧ hit = ⟨window.ahead.length - property.rest.length,
        propertyDeclaration config property.name type⟩ := by
  obtain ⟨property, hproperty, h⟩ := Option.bind_eq_some_iff.mp h
  rw [judgeProperty] at h
  split at h
  · simp at h
  · next hcomment =>
      obtain ⟨type, htype, rfl⟩ := Option.map_eq_some_iff.mp h
      have hderives := parse_eq_ok_iff.mp (parse_eq_ok_of_toOption htype)
      rw [String.toList_ofList] at hderives
      exact ⟨property, type, hproperty, by simpa using hcomment, hderives, rfl⟩

/-! ### The end of a body -/

section End

variable {text rest : List Char}

/-- What is read ends with a semicolon or with a closing brace. -/
def EndsBody (text rest : List Char) : Prop :=
  ∃ front, ∃ c ∈ [';', '\x7d'], text = front ++ c :: rest

theorem EndsBody.append (h : EndsBody text rest) (front : List Char) :
    EndsBody (front ++ text) rest := by
  obtain ⟨more, c, hc, rfl⟩ := h
  exact ⟨front ++ more, c, hc, (List.append_assoc _ _ _).symm⟩

theorem endsBody_of_readStatement? (h : readStatement? text = some rest) : EndsBody text rest := by
  obtain ⟨free, htext, _⟩ := exists_of_readStatement? h
  exact ⟨free, ';', by simp, htext⟩

theorem endsBody_of_readInitializer? (h : readInitializer? text = some rest) :
    EndsBody text rest := by
  unfold readInitializer? at h
  split at h
  · next after hafter =>
      have htext : text = (text.takeWhile isBlank ++ ['=']) ++ after := by
        rw [List.append_assoc, List.singleton_append, ← hafter, skipBlanks,
          List.takeWhile_append_dropWhile]
      rw [htext]
      exact (endsBody_of_readStatement? h).append _
  · simp at h

theorem exists_append_of_passes {left right : List Char} (h : Passes left right) :
    ∃ front, left = front ++ right := by
  obtain ⟨front, htext, _⟩ := h
  exact ⟨front, htext⟩

theorem endsBody_of_readBody? (h : readBody? text = some rest) : EndsBody text rest := by
  unfold readBody? at h
  split at h
  · next text =>
      obtain ⟨getter, hgetter, h⟩ := Option.bind_eq_some_iff.mp h
      split at h
      · next after hafter =>
          obtain rfl := Option.some.inj h
          have hpasses := ((passes_skipSpaces text).trans (passes_of_readGetter? hgetter)).trans
            (passes_getD fun _ hset => passes_of_readSetter? hset)
          rw [hafter] at hpasses
          obtain ⟨front, rfl⟩ := exists_append_of_passes hpasses
          rw [← List.cons_append]
          apply EndsBody.append
          cases hinitializer : readInitializer? after with
          | none => exact ⟨[], '\x7d', by simp, rfl⟩
          | some rest => exact (endsBody_of_readInitializer? hinitializer).append ['\x7d']
      · simp at h
  · exact (endsBody_of_readStatement? h).append ['=', '>']
  · simp at h

/-- A property ends with its body. -/
theorem endsBody_of_readProperty? {property : PropertyText} (h : readProperty? text = some property) :
    EndsBody text property.rest := by
  obtain ⟨lead, rest, parts, rfl, -, hparts⟩ := exists_parts_of_readProperty? h
  rw [hparts.text_eq, ← List.append_assoc]
  exact (endsBody_of_readBody? hparts.readBody?).append _

end End

end TypeScribe.Scan
