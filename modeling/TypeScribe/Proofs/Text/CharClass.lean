import Mathlib.Data.List.Infix
import TypeScribe.Text.CharClass

/-!
# Character classes and the fronts they bound

ASCII words consist of characters of a name, and no character of a name is white space. A front of
characters of one class that is followed by another class is the longest such front. Two characters
in a row stand within one piece of a text or meet where two pieces do. A text can be split in one way
only at the first, or at the last, of its characters that are the same.
-/

namespace TypeScribe.Text

/-- The code points of white space, one by one. -/
def spaceCodes : List Nat :=
  List.range' 0x9 5 ++ [0x20, 0x85, 0xA0, 0x1680] ++ List.range' 0x2000 11 ++
    [0x2028, 0x2029, 0x202F, 0x205F, 0x3000]

theorem toNat_mem_spaceCodes {c : Char} (h : isSpace c = true) : c.toNat ∈ spaceCodes := by
  simp only [isSpace, whiteSpace, InversionList.contains_cons, InversionList.contains_nil] at h
  simp only [spaceCodes, List.mem_append, List.mem_range'_1, List.mem_cons, List.not_mem_nil,
    or_false]
  generalize c.toNat = code at h ⊢
  simp at h
  omega

theorem isNameChar_eq_false_of_isSpace {c : Char} (h : isSpace c = true) :
    isNameChar c = false := by
  have hcodes : ∀ code ∈ spaceCodes, isNameChar (Char.ofNat code) = false := by decide +kernel
  have hc := hcodes c.toNat (toNat_mem_spaceCodes h)
  rwa [Char.ofNat_toNat] at hc

theorem toNat_lt_of_isAlphanum {c : Char} (h : c.isAlphanum = true) : c.toNat < 0x80 := by
  have hranges : ((decide (c.val ≥ 'A'.val ∧ c.val ≤ 'Z'.val) ||
      (decide (c.val ≥ 'a'.val) && decide (c.val ≤ 'z'.val))) ||
        (decide (c.val ≥ '0'.val) && decide (c.val ≤ '9'.val))) = true := h
  simp only [Bool.or_eq_true, Bool.and_eq_true, decide_eq_true_eq, UInt32.le_iff_toNat_le]
    at hranges
  have hval : c.toNat = c.val.toNat := rfl
  simp at hranges
  omega

theorem toNat_lt_of_isAsciiWord {c : Char} (h : isAsciiWord c = true) : c.toNat < 0x80 := by
  rcases Bool.or_eq_true_iff.mp h with hletter | hunderscore
  · exact toNat_lt_of_isAlphanum hletter
  · obtain rfl : c = '_' := by simpa using hunderscore
    decide

theorem isNameChar_of_isAsciiWord {c : Char} (h : isAsciiWord c = true) : isNameChar c = true := by
  rcases Bool.or_eq_true_iff.mp h with hletter | hunderscore
  · simp [isNameChar, isAlphanumeric, toNat_lt_of_isAlphanum hletter, hletter]
  · simp [isNameChar, hunderscore]

theorem isAsciiWord_eq_false_of_isSpace {c : Char} (h : isSpace c = true) :
    isAsciiWord c = false := by
  rw [Bool.eq_false_iff]
  intro hword
  have hname := isNameChar_of_isAsciiWord hword
  simp [isNameChar_eq_false_of_isSpace h] at hname

theorem isLineBreak_eq_false_of_isNameChar {c : Char} (h : isNameChar c = true) :
    isLineBreak c = false := by
  rw [Bool.eq_false_iff]
  intro hbreak
  have hspace := isNameChar_eq_false_of_isSpace (isSpace_of_isLineBreak hbreak)
  simp [h] at hspace

theorem isSpace_space : isSpace ' ' = true := by
  decide

theorem isLineBreak_eq_false_of_isBlank {c : Char} (h : isBlank c = true) :
    isLineBreak c = false := by
  rcases (by simpa [isBlank] using h : c = ' ' ∨ c = '\t') with rfl | rfl <;> decide

section Boundary

variable {p : Char → Bool} {front rest : List Char} (hfront : ∀ c ∈ front, p c = true)
  (hrest : rest.head?.any p = false)

include hrest

theorem takeWhile_eq_nil_of_boundary : rest.takeWhile p = [] := by
  cases rest with
  | nil => rfl
  | cons c rest => exact List.takeWhile_cons_of_neg (by simpa using hrest)

theorem dropWhile_eq_self_of_boundary : rest.dropWhile p = rest := by
  cases rest with
  | nil => rfl
  | cons c rest => exact List.dropWhile_cons_of_neg (by simpa using hrest)

include hfront

theorem takeWhile_append_of_boundary : (front ++ rest).takeWhile p = front := by
  rw [List.takeWhile_append_of_pos hfront, takeWhile_eq_nil_of_boundary hrest, List.append_nil]

theorem dropWhile_append_of_boundary : (front ++ rest).dropWhile p = rest := by
  rw [List.dropWhile_append_of_pos hfront, dropWhile_eq_self_of_boundary hrest]

end Boundary

theorem take_sub_length (front rest : List Char) :
    (front ++ rest).take ((front ++ rest).length - rest.length) = front := by
  rw [List.length_append, Nat.add_sub_cancel, List.take_left]

theorem forall_mem_reverse_ne {c : Char} {text : List Char} (h : c ∉ text) :
    ∀ d ∈ text.reverse, (d != c) = true := by
  intro d hd
  rw [bne_iff_ne]
  rintro rfl
  exact h (List.mem_reverse.mp hd)

section Pairs

variable {first second : Char} {left right : List Char}

theorem pair_infix_append_iff : [first, second] <:+: left ++ right ↔
    [first, second] <:+: left ∨ [first, second] <:+: right ∨
      (left.getLast? = some first ∧ right.head? = some second) := by
  rw [List.infix_append_iff]
  constructor
  · rintro (h | h | ⟨front, back, hpair, hfront, hback⟩)
    · exact .inl h
    · exact .inr (.inl h)
    · rcases front with _ | ⟨c, _ | ⟨d, front⟩⟩
      · exact .inr (.inl (hpair ▸ hback.isInfix))
      · obtain ⟨rfl, rfl⟩ := by simpa using hpair
        obtain ⟨before, rfl⟩ := hfront
        obtain ⟨behind, rfl⟩ := hback
        exact .inr (.inr ⟨List.getLast?_concat, rfl⟩)
      · obtain ⟨rfl, rfl, rfl, rfl⟩ := by simpa using hpair
        exact .inl hfront.isInfix
  · rintro (h | h | ⟨hlast, hhead⟩)
    · exact .inl h
    · exact .inr (.inl h)
    · obtain ⟨before, rfl⟩ := List.getLast?_eq_some_iff.mp hlast
      obtain ⟨behind, rfl⟩ := List.head?_eq_some_iff.mp hhead
      exact .inr (.inr ⟨[first], [second], rfl, List.suffix_append _ _, ⟨behind, rfl⟩⟩)

theorem pair_infix_append_right_iff (h : first ∉ left) :
    [first, second] <:+: left ++ right ↔ [first, second] <:+: right := by
  have hleft : ¬[first, second] <:+: left := fun hpair => h (hpair.subset List.mem_cons_self)
  have hseam : left.getLast? ≠ some first := fun hlast => h (List.mem_of_getLast? hlast)
  rw [pair_infix_append_iff, or_iff_right hleft, or_iff_left fun hpair => hseam hpair.1]

theorem pair_infix_append_left_iff (h : second ∉ right) :
    [first, second] <:+: left ++ right ↔ [first, second] <:+: left := by
  have hright : ¬[first, second] <:+: right := fun hpair => h (hpair.subset (by simp))
  have hseam : right.head? ≠ some second := fun hhead => h (List.mem_of_mem_head? hhead)
  rw [pair_infix_append_iff, or_iff_right hright, or_iff_left fun hpair => hseam hpair.2]

end Pairs

section Split

variable {left right left' right' : List Char} {c : Char}
  (h : left ++ c :: right = left' ++ c :: right')

include h

/-- A character that stands first at one place stands there or further on at any other place. -/
theorem eq_or_exists_between (hleft : c ∉ left) :
    (left = left' ∧ right = right') ∨ ∃ between, right = between ++ c :: right' := by
  rcases List.append_eq_append_iff.mp h with ⟨more, rfl, hmore⟩ | ⟨more, rfl, hmore⟩
  · rcases List.cons_eq_append_iff.mp hmore with ⟨rfl, heq⟩ | ⟨between, rfl, heq⟩
    · exact .inl ⟨by simp, (List.cons.inj heq).2.symm⟩
    · exact .inr ⟨between, heq⟩
  · rcases List.cons_eq_append_iff.mp hmore with ⟨rfl, heq⟩ | ⟨between, rfl, heq⟩
    · exact .inl ⟨by simp, (List.cons.inj heq).2⟩
    · simp at hleft

theorem eq_of_first (hleft : c ∉ left) (hleft' : c ∉ left') : left = left' ∧ right = right' := by
  rcases eq_or_exists_between h hleft with heq | ⟨between, rfl⟩
  · exact heq
  · have hsplit : left' ++ c :: right' = (left ++ c :: between) ++ c :: right' := by simp [← h]
    have hmem : c ∈ left' := by
      rw [List.append_cancel_right hsplit]
      simp
    exact absurd hmem hleft'

theorem eq_of_last (hright : c ∉ right) (hright' : c ∉ right') :
    left = left' ∧ right = right' := by
  have hreverse : right.reverse ++ c :: left.reverse = right'.reverse ++ c :: left'.reverse := by
    simpa using congrArg List.reverse h
  obtain ⟨hright, hleft⟩ := eq_of_first hreverse (by simpa using hright) (by simpa using hright')
  exact ⟨List.reverse_injective hleft, List.reverse_injective hright⟩

end Split

section Intercalate

variable {p : Char → Prop} {separator : List Char} {texts : List (List Char)}

theorem forall_mem_intercalate (hseparator : ∀ c ∈ separator, p c)
    (h : ∀ text ∈ texts, ∀ c ∈ text, p c) : ∀ c ∈ separator.intercalate texts, p c := by
  induction texts with
  | nil => exact List.forall_mem_nil p
  | cons text texts ih =>
      obtain ⟨hhead, htail⟩ := List.forall_mem_cons.mp h
      cases texts with
      | nil =>
          rw [List.intercalate_singleton]
          exact hhead
      | cons other texts =>
          rw [List.intercalate_cons_cons, List.forall_mem_append, List.forall_mem_append]
          exact ⟨⟨hhead, hseparator⟩, ih htail⟩

theorem exists_intercalate_cons (separator text : List Char) (texts : List (List Char)) :
    ∃ rest, separator.intercalate (text :: texts) = text ++ rest := by
  cases texts with
  | nil => exact ⟨[], by simp⟩
  | cons other texts =>
      exact ⟨separator ++ separator.intercalate (other :: texts), by
        rw [List.intercalate_cons_cons, List.append_assoc]⟩

theorem exists_intercalate_append (separator text : List Char) (before later : List (List Char)) :
    ∃ after, separator.intercalate (before ++ text :: later) =
      (before.flatMap (· ++ separator)) ++ (text ++ after) := by
  induction before with
  | nil => exact exists_intercalate_cons separator text later
  | cons first before ih =>
      obtain ⟨after, hafter⟩ := ih
      refine ⟨after, ?_⟩
      rw [List.cons_append, List.intercalate_cons_of_ne_nil (by simp), hafter, List.flatMap_cons,
        List.append_assoc, List.append_assoc, List.append_assoc]

end Intercalate

end TypeScribe.Text
