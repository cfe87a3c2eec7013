import TypeScribe.Text.CharClass

/-!
Taking text off either end, fixed prefixes and suffixes and surrounding white space, and looking for
pairs of characters inside.
-/

namespace TypeScribe.Text

theorem isPrefixOf?_eq_some_iff {affix text rest : List Char} :
    affix.isPrefixOf? text = some rest ↔ text = affix ++ rest := by
  induction affix generalizing text with
  | nil => exact Option.some_inj
  | cons c affix ih =>
      cases text with
      | nil =>
          change none = some rest ↔ _
          simp
      | cons d text =>
          change (if c == d then affix.isPrefixOf? text else none) = some rest ↔ _
          by_cases hcd : c = d
          · simp [hcd, ih]
          · simp [hcd, Ne.symm hcd]

theorem isSuffixOf?_eq_some_iff {affix text rest : List Char} :
    affix.isSuffixOf? text = some rest ↔ text = rest ++ affix := by
  change (affix.reverse.isPrefixOf? text.reverse).map List.reverse = some rest ↔ _
  simp only [Option.map_eq_some_iff, isPrefixOf?_eq_some_iff]
  constructor
  · rintro ⟨front, hfront, rfl⟩
    simpa using congrArg List.reverse hfront
  · rintro rfl
    exact ⟨rest.reverse, by simp, by simp⟩

def trimSpaces (text : List Char) : List Char :=
  ((text.dropWhile isSpace).reverse.dropWhile isSpace).reverse

/-- Whether `second` follows `first` immediately somewhere in the text. -/
def hasPair (first second : Char) : List Char → Bool
  | [] => false
  | c :: rest => (c == first && rest.head? == some second) || hasPair first second rest

theorem hasPair_eq_true_iff {first second : Char} {text : List Char} :
    hasPair first second text = true ↔ [first, second] <:+: text := by
  induction text with
  | nil => simp [hasPair]
  | cons c rest ih =>
      have hpair : [first, second] <+: c :: rest ↔ c = first ∧ rest.head? = some second := by
        cases rest with
        | nil => simp
        | cons d rest => simp [List.cons_prefix_cons, eq_comm]
      rw [List.infix_cons_iff, hasPair, Bool.or_eq_true, ih, hpair]
      simp

end TypeScribe.Text
