import TypeScribe.Proofs.Scan.PropertyParts
import TypeScribe.Proofs.TypeExpr.Angles

/-!
# Properties and the words they begin with

A property that begins with its type is still one, and still well-formed, with one more word character
in front: the word of the type grows by it, and taking the longer word for a keyword leads nowhere.
Behind keywords this fails, since a longer keyword is none.
-/

namespace TypeScribe.Scan

open Text TypeExpr

variable {text rest : List Char} {property : PropertyText} {c : Char} {words : List String}

/-! ### Texts that are no property behind any keywords -/

theorem eq_skipSpaces_of_readSpaces? (h : readSpaces? text = some rest) : rest = skipSpaces text := by
  cases text with
  | nil => simp [readSpaces?] at h
  | cons c text =>
      rw [readSpaces?] at h
      split at h
      · next hspace =>
          obtain rfl := Option.some.inj h
          exact (List.dropWhile_cons_of_pos hspace).symm
      · simp at h

theorem eq_skipSpaces_of_readKeyword? {word : List Char} (hword : IsWord word)
    (hrest : rest.head?.any isAsciiWord = false) {left : List Char}
    (h : readKeyword? words (word ++ rest) = some left) : left = skipSpaces rest := by
  rw [readKeyword?_append hword hrest] at h
  split at h
  · exact eq_skipSpaces_of_readSpaces? h
  · simp at h

/-- No type begins the text: there is no word, or it is the name of the property. -/
inductive Typeless : List Char → Prop where
  | noWord {text : List Char} (h : text.head?.any isAsciiWord = false) : Typeless text
  | name {name gap body rest : List Char} (hname : IsWord name) (hgap : Spaces gap)
      (hbody : readBody? body = some rest) : Typeless (name ++ (gap ++ body))

theorem skipSpaces_append_of_spaces {front : List Char} (hfront : Spaces front)
    (hrest : rest.head?.any isSpace = false) : skipSpaces (front ++ rest) = rest :=
  dropWhile_append_of_boundary hfront hrest

theorem head?_gap_body {gap body : List Char} (hgap : Spaces gap)
    (hbody : readBody? body = some rest) : (gap ++ body).head?.any isAsciiWord = false := by
  cases gap with
  | nil => exact (head?_body hbody).2
  | cons c gap => exact isAsciiWord_eq_false_of_isSpace (hgap c List.mem_cons_self)

theorem Typeless.readTypedProperty?_eq_none (h : Typeless text) : readTypedProperty? text = none := by
  cases h with
  | noWord h =>
      rw [readTypedProperty?, afterTypeName, readWord?_eq_none h]
      rfl
  | @name name gap body rest hname hgap hbody =>
      obtain ⟨hspace, hword⟩ := head?_body hbody
      obtain ⟨c, hc, more, rfl⟩ := exists_head?_of_readBody? hbody
      obtain ⟨_, _, _, hmark, hbracket, hangle⟩ := class_of_mem_openers hc
      have hskip := skipSpaces_append_of_spaces hgap hspace
      have hend : readTypeEnd? (gap ++ c :: more) = none := by
        rw [readTypeEnd?_of_skipSpaces 0 false hskip hword (by simpa using hmark)
          (by simpa using hbracket), readSpaces?_eq_none hspace, Option.map_none]
      have hafter : afterTypeName (name ++ (gap ++ c :: more)) = [gap ++ c :: more] := by
        rw [afterTypeName, readWord?_append hname (head?_gap_body hgap hbody)]
        simp only [hskip]
        split
        · next heq => exact absurd (List.cons.inj heq).1 hangle
        · rfl
      rw [readTypedProperty?, hafter]
      simp [hend]

theorem Typeless.of_readKeyword? (h : Typeless text) (hread : readKeyword? words text = some rest) :
    Typeless rest := by
  cases h with
  | noWord h => simp [readKeyword?_of_readWord?_eq_none (readWord?_eq_none h)] at hread
  | name hname hgap hbody =>
      obtain rfl := eq_skipSpaces_of_readKeyword? hname (head?_gap_body hgap hbody) hread
      rw [skipSpaces_append_of_spaces hgap (head?_body hbody).1]
      exact .noWord (head?_body hbody).2

theorem Typeless.findSome?_eq_none {α : Type} {read : List Char → Option α}
    (hread : ∀ text, Typeless text → read text = none) (h : Typeless text) (words : List String) :
    (afterKeywords words text).findSome? read = none := by
  rw [List.findSome?_eq_none_iff]
  intro rest hrest
  exact hread rest (forall_mem_afterKeywords (fun _ _ h hkeyword => h.of_readKeyword? hkeyword) h rest
    hrest)

/-! ### Where a property begins with its type -/

/-- What follows the word of a type is no word. -/
theorem PropertyParts.head?_behind_word (parts : PropertyParts) :
    (parts.genericChars ++ (parts.close ++ parts.body)).head?.any isAsciiWord = false := by
  cases hgeneric : parts.generic with
  | none =>
      obtain ⟨c, more, hends⟩ := List.exists_cons_of_ne_nil parts.typeEnd_ne
      have hc := parts.typeEnd.isTypeEnd_of_mem c (by simp [hends])
      simpa [genericChars, hgeneric, close, hends] using (class_of_isTypeEnd hc).1
  | some generic =>
      rw [genericChars, hgeneric, Option.map_some, Option.getD_some, GenericPart.chars]
      cases hgap : generic.gap with
      | nil => rfl
      | cons c gap =>
          exact isAsciiWord_eq_false_of_isSpace (generic.spaces_gap c (by simp [hgap]))

/-- Where the word of a type could be taken for a keyword, nothing but the name is left. -/
theorem typeless_of_readKeyword? (h : readTypedProperty? text = some property)
    (hread : readKeyword? words text = some rest) : Typeless rest := by
  obtain ⟨parts, hparts⟩ := exists_parts_of_readTypedProperty? h
  have htext : text = parts.word ++ (parts.genericChars ++ (parts.close ++ parts.body)) := by
    rw [hparts.text_eq, PropertyParts.head]
    simp
  rw [htext] at hread
  obtain rfl := eq_skipSpaces_of_readKeyword? parts.isWord_word parts.head?_behind_word hread
  cases hgeneric : parts.generic with
  | some generic =>
      have hskip : skipSpaces (parts.genericChars ++ (parts.close ++ parts.body)) =
          '<' :: (generic.inside ++ '>' :: (parts.close ++ parts.body)) := by
        rw [PropertyParts.genericChars, hgeneric, Option.map_some, Option.getD_some,
          GenericPart.chars, List.append_assoc, skipSpaces_append_of_spaces generic.spaces_gap rfl]
        simp
      rw [hskip]
      exact .noWord rfl
  | none =>
      let typeEnd := parts.typeEnd
      have hclose : parts.genericChars ++ (parts.close ++ parts.body) =
          typeEnd.gap ++ ((typeEnd.mark ++ typeEnd.brackets) ++
            (typeEnd.blanks ++ (parts.name ++ (parts.gap ++ parts.body)))) := by
        simp [PropertyParts.genericChars, hgeneric, PropertyParts.close, TypeEnd.chars, TypeEnd.trail,
          typeEnd]
      rw [hclose]
      rcases typeEnd.mark_fits.eq_nil_or_cons typeEnd.brackets_fits with hnil | ⟨c, hc, more, hcons⟩
      · rw [hnil, List.nil_append, ← List.append_assoc, skipSpaces_append_of_spaces
          (typeEnd.spaces_gap.append typeEnd.spaces_blanks) (parts.isWord_name.isSpace_head? _)]
        exact .name parts.isWord_name parts.spaces_gap hparts.readBody?
      · obtain ⟨hspace, _, hword, _⟩ := class_of_mem_marks hc
        rw [hcons, List.cons_append, skipSpaces_append_of_spaces typeEnd.spaces_gap
          (by exact hspace)]
        exact .noWord hword

/-- Where a property begins with its type, no keywords are looked for. -/
theorem readProperty?_of_readTypedProperty? (h : readTypedProperty? text = some property) :
    readProperty? text = some property := by
  have hmembers : ∀ text, Typeless text →
      (afterKeywords memberModifiers text).findSome? readTypedProperty? = none := fun _ htext =>
    htext.findSome?_eq_none (fun _ htext => htext.readTypedProperty?_eq_none) _
  rw [readProperty?, findSome?_afterKeywords_eq_self, findSome?_afterKeywords_eq_self, h]
  · intro rest hrest
    exact hmembers rest (typeless_of_readKeyword? h hrest)
  · intro rest hrest
    exact (typeless_of_readKeyword? h hrest).findSome?_eq_none hmembers _

theorem readProperty?_of_not_keyword (haccess : readKeyword? accessModifiers text = none)
    (hmember : readKeyword? memberModifiers text = none) :
    readProperty? text = readTypedProperty? text := by
  rw [readProperty?, findSome?_afterKeywords_of_none haccess,
    findSome?_afterKeywords_of_none hmember]

/-! ### A longer word -/

theorem afterTypeName_cons (hc : isAsciiWord c = true) (htext : text.head?.any isAsciiWord = true) :
    afterTypeName (c :: text) = afterTypeName text := by
  have hword : (text.takeWhile isAsciiWord).isEmpty = false := by
    cases text with
    | nil => simp at htext
    | cons d text =>
        rw [List.takeWhile_cons_of_pos (by simpa using htext)]
        rfl
  simp only [afterTypeName, readWord?, List.takeWhile_cons_of_pos hc, List.dropWhile_cons_of_pos hc,
    hword, List.isEmpty_cons, Bool.false_eq_true, if_false]

theorem suffix_of_mem_afterTypeName (h : rest ∈ afterTypeName text) : rest <:+ text := by
  obtain ⟨front, htext, _⟩ := passes_of_mem_afterTypeName h
  exact ⟨front, htext.symm⟩

theorem suffix_of_readTypeEnd? {after : List Char} (h : readTypeEnd? text = some (after, rest)) :
    after <:+ text := by
  obtain ⟨typeEnd, htext, _⟩ := exists_of_readTypeEnd? h
  exact ⟨typeEnd.trail, htext.symm⟩

theorem readTypedProperty?_cons (hc : isAsciiWord c = true)
    (h : readTypedProperty? text = some property) :
    readTypedProperty? (c :: text) = some { property with type := c :: property.type } := by
  have htext : text.head?.any isAsciiWord = true := by
    by_contra hword
    rw [readTypedProperty?, afterTypeName, readWord?_eq_none (Bool.eq_false_iff.mpr hword)] at h
    simp at h
  rw [readTypedProperty?, List.findSome?_eq_some_iff] at h ⊢
  obtain ⟨before, behind, later, hsplit, hread, hbefore⟩ := h
  refine ⟨before, behind, later, by rw [afterTypeName_cons hc htext, hsplit], ?_, fun other hother => ?_⟩
  · obtain ⟨⟨after, next⟩, hend, hread⟩ := Option.bind_eq_some_iff.mp hread
    obtain ⟨⟨name, last⟩, hname, hread⟩ := Option.bind_eq_some_iff.mp hread
    obtain rfl := Option.some.inj hread
    have hmem : behind ∈ afterTypeName text := by simp [hsplit]
    have hlength := ((suffix_of_readTypeEnd? hend).trans (suffix_of_mem_afterTypeName hmem)).length_le
    have hcons : (c :: text).length - after.length = (text.length - after.length) + 1 := by
      rw [List.length_cons]
      omega
    simp only [hend, hname, hcons, Option.bind_eq_bind, Option.bind_some, List.take_succ_cons]
    rfl
  · have hnone := hbefore other hother
    cases hend : readTypeEnd? other with
    | none => rfl
    | some ends =>
        cases hname : readNameAndBody? ends.2 with
        | none => simp [hname]
        | some name => simp [hend, hname] at hnone

theorem inLineComment_of_cons {behind : List Char} (hc : isAsciiWord c = true)
    (h : Window.inLineComment ⟨c :: behind, text⟩ = false) :
    Window.inLineComment ⟨behind, c :: text⟩ = false := by
  have hfeed : '\n' ∉ [c] := by
    intro hmem
    obtain rfl := List.mem_singleton.mp hmem
    exact absurd hc (by decide)
  rw [Bool.eq_false_iff] at h ⊢
  exact fun hcomment => h (@Window.inLineComment_append behind [c] text hfeed hcomment)

/-- A property that begins with its type is one also with one more word character in front. -/
theorem propertyPattern_cons {config : Config} {behind : List Char} {hit : Hit}
    (hc : isAsciiWord c = true) (haccess : readKeyword? accessModifiers text = none)
    (hmember : readKeyword? memberModifiers text = none)
    (h : propertyPattern config ⟨c :: behind, text⟩ = some hit) :
    propertyPattern config ⟨behind, c :: text⟩ ≠ none := by
  obtain ⟨property, type, hproperty, hcomment, hderives, -⟩ := exists_of_propertyPattern h
  rw [readProperty?_of_not_keyword haccess hmember] at hproperty
  have hhead : property.type.head?.any isSpace = false := by
    obtain ⟨parts, hparts⟩ := exists_parts_of_readTypedProperty? hproperty
    rw [hparts.type_eq]
    exact parts.isWord_word.isSpace_head? _
  obtain ⟨type', hderives'⟩ := hderives.exists_cons hhead (isNameChar_of_isAsciiWord hc)
  have hparse : TypeExpr.parse (String.ofList (c :: property.type)) = .ok type' :=
    parse_eq_ok_iff.mpr (by simpa using hderives')
  have hread := readProperty?_of_readTypedProperty? (readTypedProperty?_cons hc hproperty)
  rw [propertyPattern, acceptedHit_of_find hread, judgeProperty, inLineComment_of_cons hc hcomment,
    hparse]
  simp [Except.toOption]

end TypeScribe.Scan
