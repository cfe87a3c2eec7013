import TypeScribe.Proofs.Scan.PropertyParts
import TypeScribe.Proofs.TypeExpr.Angles

/-!
# Within a malformed property

The search goes on one character behind the start of a property whose type is malformed, so each place
within that property may begin another. If it does, it ends with the same name and, unless a second
body opens within the first, with the same body. Then it has a generic part that runs to the same `>`:
either it is the same one, behind another name, or it lies within the first one.
-/

namespace TypeScribe.Scan

open Text TypeExpr

/-- A body opens at the front of the text. -/
def OpensBody (text : List Char) : Prop := text.head? = some '\x7b' ∨ ['=', '>'] <+: text

theorem opensBody_of_readBody? {body rest : List Char} (h : readBody? body = some rest) :
    OpensBody body := by
  unfold readBody? at h
  split at h
  · exact .inl rfl
  · exact .inr ⟨_, rfl⟩
  · simp at h

instance (text : List Char) : Decidable (OpensBody text) :=
  inferInstanceAs (Decidable (_ ∨ _))

/-- Among the first `length` places of the text there are no two at which a body opens. -/
def OpensOnce (length : Nat) (text : List Char) : Prop :=
  ∀ place < length, ∀ other < length,
    OpensBody (text.drop place) → OpensBody (text.drop other) → place = other

instance (length : Nat) (text : List Char) : Decidable (OpensOnce length text) :=
  inferInstanceAs (Decidable (∀ _ < length, _))

/-! ### Two readings of one text -/

/-- Where the front and the behind are of different classes, a text is split in one way. -/
theorem eq_of_boundary {p : Char → Bool} {left right left' right' : List Char}
    (hleft : left.getLast?.any p = false) (hright : ∀ c ∈ right, p c = true)
    (hleft' : left'.getLast?.any p = false) (hright' : ∀ c ∈ right', p c = true)
    (h : left ++ right = left' ++ right') : left = left' := by
  have hreverse := congrArg (fun text => text.reverse.dropWhile p) h
  simp only [List.reverse_append] at hreverse
  rw [dropWhile_append_of_boundary (by simpa using hright) (by simpa using hleft),
    dropWhile_append_of_boundary (by simpa using hright') (by simpa using hleft')] at hreverse
  exact List.reverse_injective hreverse

theorem getLast?_append_any {p : Char → Bool} {left right : List Char} (hne : right ≠ [])
    (h : ∀ c ∈ right, p c = false) : (left ++ right).getLast?.any p = false := by
  rw [List.getLast?_append_of_ne_nil _ hne, List.getLast?_eq_some_getLast hne]
  exact h _ (List.getLast_mem hne)

namespace PropertyParts

variable {parts parts' : PropertyParts}

/-- A type without a generic part is well-formed. -/
theorem exists_derives_of_generic_eq_none (h : parts.generic = none) :
    ∃ type, Derives parts.type type := by
  have hplain := Derives.plain spaces_nil parts.isWord_word.isName parts.typeEnd.spaces_gap
    parts.typeEnd.mark_fits parts.typeEnd.brackets_fits
  refine ⟨⟨String.ofList parts.word, [], parts.typeEnd.rank, parts.typeEnd.isNullable⟩, ?_⟩
  simpa [PropertyParts.type, genericChars, h, TypeEnd.trail] using hplain

theorem getLast?_name (parts : PropertyParts) (front : List Char) :
    (front ++ parts.name).getLast?.any isSpace = false := by
  refine getLast?_append_any parts.isWord_name.1 fun c hc => ?_
  rw [Bool.eq_false_iff]
  intro hspace
  have hword := parts.isWord_name.2 c hc
  simp [isAsciiWord_eq_false_of_isSpace hspace] at hword

theorem getLast?_typeEnd (parts : PropertyParts) (front : List Char) :
    (front ++ parts.typeEnd.chars).getLast?.any isAsciiWord = false :=
  getLast?_append_any parts.typeEnd_ne fun c hc =>
    (class_of_isTypeEnd (parts.typeEnd.isTypeEnd_of_mem c hc)).1

/-- Behind the generic part of a property stands one word only, its name. -/
theorem close_ne_append {front : List Char} (hword : ∃ c ∈ front, isAsciiWord c = true) :
    parts.close ≠ front ++ parts'.close := by
  intro h
  have hspaces : (parts.typeEnd.chars ++ parts.name) ++ parts.gap =
      ((front ++ parts'.typeEnd.chars) ++ parts'.name) ++ parts'.gap := by
    simpa [close] using h
  have hname := eq_of_boundary (parts.getLast?_name _) parts.spaces_gap (parts'.getLast?_name _)
    parts'.spaces_gap hspaces
  have hends := eq_of_boundary (parts.getLast?_typeEnd []) parts.isWord_name.2
    (parts'.getLast?_typeEnd front) parts'.isWord_name.2 hname
  obtain ⟨c, hc, hisWord⟩ := hword
  have hmem : c ∈ parts.typeEnd.chars := by
    rw [show parts.typeEnd.chars = front ++ parts'.typeEnd.chars from hends]
    exact List.mem_append_left _ hc
  simp [(class_of_isTypeEnd (parts.typeEnd.isTypeEnd_of_mem c hmem)).1] at hisWord

theorem not_mem_close {c : Char} (hc : c ∈ '<' :: '>' :: bodyMarks) : c ∉ parts.close :=
  fun hmem => parts.not_mem_of_mem_close c hmem hc

/-- What stands before the first `<` of a property. -/
def opening (parts : PropertyParts) (generic : GenericPart) : List Char :=
  parts.word ++ generic.gap

theorem head_eq_of_generic {generic : GenericPart} (h : parts.generic = some generic) :
    parts.head = (parts.opening generic ++ '<' :: generic.inside) ++ '>' :: parts.close := by
  simp [head, genericChars, h, GenericPart.chars, opening]

theorem type_eq_of_generic {generic : GenericPart} (h : parts.generic = some generic) :
    parts.type =
      parts.word ++ (generic.gap ++ '<' :: (generic.inside ++ '>' :: parts.typeEnd.trail)) := by
  simp [PropertyParts.type, genericChars, h, GenericPart.chars]

theorem not_mem_opening (parts : PropertyParts) (generic : GenericPart) :
    '<' ∉ parts.opening generic := by
  intro hmem
  rcases List.mem_append.mp hmem with hc | hc
  · exact class_of_isAsciiWord (parts.isWord_word.2 _ hc) (by simp)
  · exact class_of_isSpace (generic.spaces_gap _ hc) (by simp)

theorem not_mem_of_loose {text : List Char} (h : ∀ c ∈ text, isLoose c = true) {c : Char}
    (hc : c ∈ '<' :: '>' :: bodyMarks) : c ∉ text :=
  fun hmem => class_of_isLoose (h c hmem) hc

/-- Before the name of a property with a generic part no property without one begins. -/
theorem head_ne_of_generic_eq_none {front before lead' : List Char}
    (hlead' : ∀ c ∈ lead', isLoose c = true) (hgeneric' : parts'.generic = none) :
    front ++ '>' :: parts.close ≠ before ++ (lead' ++ parts'.head) := by
  intro h
  have hhead' : lead' ++ parts'.head = (lead' ++ parts'.word) ++ parts'.close := by
    simp [head, genericChars, hgeneric']
  have hloose : ∀ c ∈ lead' ++ parts'.word, isLoose c = true := fun c hc =>
    (List.mem_append.mp hc).elim (hlead' c) fun hc => isLoose_of_isAsciiWord (parts'.isWord_word.2 c hc)
  have hangle : '>' ∉ (lead' ++ parts'.word) ++ parts'.close :=
    List.not_mem_append (not_mem_of_loose hloose (by simp)) (not_mem_close (by simp))
  rw [hhead'] at h
  rcases List.append_eq_append_iff.mp h with ⟨more, -, hmore⟩ | ⟨more, -, hmore⟩
  · rcases List.cons_eq_append_iff.mp hmore with ⟨rfl, heq⟩ | ⟨between, rfl, heq⟩
    · exact hangle (by simp [heq])
    · rw [← List.append_assoc] at heq
      obtain ⟨c, hc⟩ := List.exists_mem_of_ne_nil _ parts'.isWord_word.1
      exact close_ne_append ⟨c, by simp [hc], parts'.isWord_word.2 c hc⟩ heq
  · exact hangle (by rw [hmore]; simp)

/-- Properties that end alike have types that end alike. -/
theorem trail_eq {text text' : List Char} {property property' : PropertyText}
    (hparts : parts.ReadFrom text property) (hparts' : parts'.ReadFrom text' property')
    (hclose : parts.close = parts'.close) (hbody : parts'.body = parts.body) :
    parts.typeEnd.trail = parts'.typeEnd.trail := by
  have hend := hparts.readTypeEnd?.symm.trans
    ((congrArg _ (by rw [hclose, hbody])).trans hparts'.readTypeEnd?)
  have hafter := (Prod.mk.inj (Option.some.inj hend)).1
  have hsplit : ∀ parts : PropertyParts, parts.close ++ parts.body =
      parts.typeEnd.trail ++ (parts.typeEnd.blanks ++ (parts.name ++ (parts.gap ++ parts.body))) := by
    intro parts
    simp [close, TypeEnd.chars]
  have hwhole : parts.close ++ parts.body = parts'.close ++ parts'.body := by rw [hclose, hbody]
  rw [hsplit parts, hsplit parts', hafter] at hwhole
  exact List.append_cancel_right hwhole

/-- No well-formed property begins within a malformed one and ends with the same body, if the angle
brackets of the malformed one pair up. -/
theorem not_derives_of_head_eq {lead before lead' : List Char} {text text' : List Char}
    {property property' : PropertyText} (hlead : ∀ c ∈ lead, isLoose c = true)
    (hlead' : ∀ c ∈ lead', isLoose c = true)
    (hparts : parts.ReadFrom text property) (hparts' : parts'.ReadFrom text' property')
    (hbody : parts'.body = parts.body)
    (hhead : lead ++ parts.head = before ++ (lead' ++ parts'.head))
    (hangles : AnglesClose property.type) (hrefused : ∀ type, ¬Derives property.type type) :
    ∀ type, ¬Derives property'.type type := by
  intro type hderives
  rw [hparts.type_eq] at hangles hrefused
  rw [hparts'.type_eq] at hderives
  cases hgeneric : parts.generic with
  | none =>
      obtain ⟨type', htype'⟩ := exists_derives_of_generic_eq_none hgeneric
      exact hrefused type' htype'
  | some generic =>
      rw [head_eq_of_generic hgeneric, ← List.append_assoc] at hhead
      cases hgeneric' : parts'.generic with
      | none => exact head_ne_of_generic_eq_none hlead' hgeneric' hhead
      | some generic' =>
          rw [head_eq_of_generic hgeneric', ← List.append_assoc lead', ← List.append_assoc before]
            at hhead
          obtain ⟨hopen, hclose⟩ := eq_of_last hhead (not_mem_close (by simp))
            (not_mem_close (by simp))
          have htrail := trail_eq hparts hparts' hclose hbody
          rw [type_eq_of_generic hgeneric] at hangles hrefused
          rw [type_eq_of_generic hgeneric'] at hderives
          obtain ⟨⟨inside, after, hinside, hnested, hafter⟩, hother⟩ :=
            exists_inside_of_derives spaces_nil parts'.isWord_word.isName generic'.spaces_gap hderives
          rw [← List.append_assoc, ← List.append_assoc lead', ← List.append_assoc before] at hopen
          have hfirst : '<' ∉ lead ++ parts.opening generic :=
            List.not_mem_append (not_mem_of_loose hlead (by simp)) (parts.not_mem_opening generic)
          rcases eq_or_exists_between hopen hfirst with ⟨-, heq⟩ | ⟨between, heq⟩
          · rw [← heq, ← htrail] at hother
            obtain ⟨type', htype'⟩ := hother _ _ parts.isWord_word.isName generic.spaces_gap
            exact hrefused type' htype'
          · rw [← htrail] at hinside
            refine @not_anglesClose _ _ _ between (parts.not_mem_opening generic) hnested hafter ?_
            rw [← hinside]
            simpa [heq, opening] using hangles

end PropertyParts

/-! ### Places within a refused property -/

section Places

variable {text : List Char} {property property' : PropertyText} {count : Nat}

/-- A property that begins within another has its body open before the other ends. -/
theorem length_lt_of_readProperty?_drop {lead' rest' : List Char} {parts' : PropertyParts} {c : Char}
    {before after : List Char} (htext : text = before ++ c :: after) (hc : c ∈ bodyMarks)
    (hcount : count ≤ before.length) (hlead' : ∀ c ∈ lead', isLoose c = true)
    (hdrop : text.drop count = (lead' ++ parts'.head) ++ rest') :
    after.length < rest'.length := by
  have hmarks : c ∉ lead' ++ parts'.head :=
    List.not_mem_append (PropertyParts.not_mem_of_loose hlead' (by simp [hc]))
      fun hmem => parts'.not_mem_bodyMarks c hmem hc
  rw [htext, List.drop_append_of_le_length hcount] at hdrop
  rcases List.append_eq_append_iff.mp hdrop with ⟨more, hfront, hmore⟩ | ⟨more, -, hmore⟩
  · cases more with
    | nil =>
        rw [List.nil_append] at hmore
        simp [← hmore]
    | cons d more =>
        obtain ⟨rfl, -⟩ := List.cons.inj hmore
        exact absurd (by rw [hfront]; simp) hmarks
  · rw [hmore, List.length_append, List.length_cons]
    omega

theorem opensBody_drop {front body rest : List Char} (htext : text = front ++ body)
    (h : readBody? body = some rest) : OpensBody (text.drop front.length) := by
  rw [htext, List.drop_left]
  exact opensBody_of_readBody? h

theorem le_of_readProperty?_drop (h : readProperty? text = some property)
    (h' : readProperty? (text.drop count) = some property')
    (hopens : OpensOnce (text.length - property.rest.length) text)
    (hangles : AnglesClose property.type) (hrefused : ∀ type, ¬Derives property.type type)
    {type : TypeExpr} (hderives : Derives property'.type type) :
    text.length - property.rest.length ≤ count := by
  by_contra hlt
  obtain ⟨lead, rest, parts, hrest, hlead, hparts⟩ := exists_parts_of_readProperty? h
  obtain ⟨lead', rest', parts', hdrop, hlead', hparts'⟩ := exists_parts_of_readProperty? h'
  rw [hparts.text_eq, ← List.append_assoc] at hrest
  rw [hparts'.text_eq, ← List.append_assoc] at hdrop
  have hdrop' : text = (text.take count ++ (lead' ++ parts'.head)) ++ parts'.body := by
    rw [List.append_assoc, ← hdrop, List.take_append_drop]
  obtain ⟨more, c, hc, hbody⟩ := endsBody_of_readBody? hparts.readBody?
  have hmark : c ∈ bodyMarks := by
    simp only [bodyMarks, List.mem_cons, List.not_mem_nil, or_false] at hc ⊢
    tauto
  have hend : text = (lead ++ parts.head ++ more) ++ c :: property.rest := by
    rw [hrest, hbody, List.append_assoc _ more]
  have hlength := congrArg List.length hend
  have hlengths := congrArg List.length hrest
  have hlengths' := congrArg List.length hdrop'
  have hbodies := congrArg List.length hbody
  simp only [List.length_append, List.length_cons] at hlength hlengths hlengths' hbodies
  have hbehind : property.rest.length < parts'.body.length := by
    refine length_lt_of_readProperty?_drop hend hmark ?_ hlead' hdrop
    simp only [List.length_append]
    omega
  have hplaces : (lead ++ parts.head).length =
      (text.take count ++ (lead' ++ parts'.head)).length := by
    refine hopens _ ?_ _ ?_ (opensBody_drop hrest hparts.readBody?)
      (opensBody_drop hdrop' hparts'.readBody?)
    · simp only [List.length_append]
      omega
    · simp only [List.length_append]
      omega
  obtain ⟨hhead, hsame⟩ := List.append_inj (hrest.symm.trans hdrop') hplaces
  exact PropertyParts.not_derives_of_head_eq hlead hlead' hparts hparts' hsame.symm hhead hangles
    hrefused type hderives

end Places

/-! ### What the recognizer reports -/

/-- **A malformed property is left alone as a whole** if the `>` that closes its generic part is the
last one of its type, and if no second body opens before its end: what is reported starts behind it. -/
theorem stop_le_start_of_refused {config : Config} {window : Window} {start : Nat}
    {property : PropertyText} {found : Match}
    (hfirst : firstFound findProperty 0 window.behind window.ahead = some (start, property))
    (hrefused : (TypeExpr.parse (String.ofList property.type)).toOption = none)
    (hangles : AnglesClose property.type)
    (hopens : OpensOnce ((window.advance start).ahead.length - property.rest.length)
      (window.advance start).ahead)
    (hfound : propertyRecognizer.recognize config window = some found) :
    start + ((window.advance start).ahead.length - property.rest.length) ≤ found.start := by
  obtain ⟨-, hhit, -⟩ := follows_propertyRecognizer.exists_of_some hfound
  obtain ⟨property', type, hfind, -, htype, -⟩ := exists_of_propertyPattern hhit
  obtain ⟨-, -, hread⟩ := le_of_firstFound hfirst
  rw [Nat.sub_zero] at hread
  have hle : start ≤ found.start := by
    by_contra hlt
    have hbefore : 0 + found.start < start := by omega
    have hnone := eq_none_of_firstFound hfirst hbefore
    exact absurd (hnone.symm.trans hfind) (by simp)
  obtain ⟨count, hcount⟩ := Nat.exists_eq_add_of_le hle
  have hfind' : readProperty? ((window.advance start).ahead.drop count) = some property' := by
    rw [hcount, Window.advance_add] at hfind
    exact hfind
  have hmalformed : ∀ type, ¬Derives property.type type := by
    intro type htype
    have hparse : TypeExpr.parse (String.ofList property.type) = .ok type :=
      parse_eq_ok_iff.mpr (by simpa using htype)
    simp [hparse, Except.toOption] at hrefused
  have hcount' := le_of_readProperty?_drop hread hfind' hopens hangles hmalformed htype
  change (window.advance start).ahead.length - property.rest.length ≤ count at hcount'
  omega

theorem stop_le_start_of_empty_argument :
    let window := Window.ofText
      "public Foo<int, > Bad \x7b get; \x7d\npublic int Good \x7b get; \x7d".toList
    firstFound findProperty 0 window.behind window.ahead =
        some (0, ⟨"Foo<int, > ".toList, "Bad".toList,
          "\npublic int Good \x7b get; \x7d".toList⟩) ∧
      propertyRecognizer.recognize {} window = some ⟨31, 24, "Good: number;".toList⟩ ∧
      30 ≤ 31 := by
  intro window
  have hfirst : firstFound findProperty 0 window.behind window.ahead =
      some (0, ⟨"Foo<int, > ".toList, "Bad".toList,
        "\npublic int Good \x7b get; \x7d".toList⟩) := by
    decide +kernel
  have hfound : propertyRecognizer.recognize {} window = some ⟨31, 24, "Good: number;".toList⟩ := by
    decide +kernel
  have hangles : AnglesClose "Foo<int, > ".toList :=
    ⟨"Foo".toList, "int, ".toList, [' '], by decide, by decide, by decide, by decide⟩
  exact ⟨hfirst, hfound,
    stop_le_start_of_refused hfirst (by decide +kernel) hangles (by decide +kernel) hfound⟩

/-- An angle bracket that is left open lets the rest of the type pass for a type of its own. -/
theorem exists_match_within_refused :
    ¬∀ (config : Config) (window : Window) (start : Nat) (property : PropertyText) (found : Match),
      firstFound findProperty 0 window.behind window.ahead = some (start, property) →
      (window.advance start).inLineComment = false →
      (TypeExpr.parse (String.ofList property.type)).toOption = none →
      propertyRecognizer.recognize config window = some found →
      start + ((window.advance start).ahead.length - property.rest.length) ≤ found.start := by
  intro hbeyond
  have hlater := hbeyond {} (.ofText "public List<List<int> Items \x7b get; \x7d".toList) 0
    ⟨"List<List<int> ".toList, "Items".toList, []⟩ ⟨12, 24, "Items: number[];".toList⟩
    (by decide +kernel) (by decide +kernel) (by decide +kernel) (by decide +kernel)
  exact absurd hlater (by decide +kernel)

end TypeScribe.Scan
