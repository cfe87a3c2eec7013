import Mathlib.Data.List.TakeWhile
import TypeScribe.Proofs.Text.CharClass
import TypeScribe.Text.Affix

/-!
# Surrounding white space

What is left of a text without the white space at its ends is the one piece of it that has nothing but
white space around it and none at its own ends.
-/

namespace TypeScribe.Text

/-- `core` is the text without the white space at its ends. -/
structure TrimsTo (text core : List Char) : Prop where
  surrounded : ∃ front back, text = front ++ (core ++ back) ∧ (∀ c ∈ front, isSpace c = true) ∧
    ∀ c ∈ back, isSpace c = true
  head_visible : core.head?.any isSpace = false
  last_visible : core.getLast?.any isSpace = false

section Trimmed

variable {text core : List Char}

theorem head?_dropWhile_isSpace (text : List Char) :
    (text.dropWhile isSpace).head?.any isSpace = false := by
  have hhead := List.head?_dropWhile_not isSpace text
  cases h : (text.dropWhile isSpace).head? with
  | none => rfl
  | some c => simpa [h] using hhead

theorem trimSpaces_prefix_dropWhile (text : List Char) :
    trimSpaces text <+: text.dropWhile isSpace := by
  have hsuffix := List.dropWhile_suffix (l := (text.dropWhile isSpace).reverse) isSpace
  rwa [← List.reverse_prefix, List.reverse_reverse] at hsuffix

/-- A text that begins visibly begins like any text that it continues. -/
theorem head?_any_of_isPrefix {p : Char → Bool} (h : core <+: text)
    (hhead : text.head?.any p = false) : core.head?.any p = false := by
  obtain ⟨rest, rfl⟩ := h
  cases core with
  | nil => rfl
  | cons c core => exact hhead

theorem trimsTo_trimSpaces (text : List Char) : TrimsTo text (trimSpaces text) := by
  let bare := text.dropWhile isSpace
  have hbare : bare = trimSpaces text ++ (bare.reverse.takeWhile isSpace).reverse := by
    rw [trimSpaces, ← List.reverse_append, List.takeWhile_append_dropWhile, List.reverse_reverse]
  refine ⟨⟨text.takeWhile isSpace, (bare.reverse.takeWhile isSpace).reverse, ?_, ?_, ?_⟩, ?_, ?_⟩
  · rw [← hbare, List.takeWhile_append_dropWhile]
  · exact fun c hc => List.mem_takeWhile_imp hc
  · exact fun c hc => List.mem_takeWhile_imp (List.mem_reverse.mp hc)
  · exact head?_any_of_isPrefix (trimSpaces_prefix_dropWhile text) (head?_dropWhile_isSpace text)
  · rw [trimSpaces, List.getLast?_reverse]
    exact head?_dropWhile_isSpace _

theorem TrimsTo.eq_trimSpaces (h : TrimsTo text core) : core = trimSpaces text := by
  obtain ⟨⟨front, back, rfl, hfront, hback⟩, hhead, hlast⟩ := h
  have hback' : ∀ c ∈ back.reverse, isSpace c = true := fun c hc => hback c (List.mem_reverse.mp hc)
  cases core with
  | nil =>
      have hspaces : (front ++ back).dropWhile isSpace = [] :=
        List.dropWhile_eq_nil_iff.mpr (List.forall_mem_append.mpr ⟨hfront, hback⟩)
      rw [trimSpaces, List.nil_append, hspaces]
      rfl
  | cons c core =>
      have hbehind : (front ++ (c :: core ++ back)).dropWhile isSpace = c :: core ++ back :=
        dropWhile_append_of_boundary hfront hhead
      have hbefore : (back.reverse ++ (c :: core).reverse).dropWhile isSpace =
          (c :: core).reverse := by
        apply dropWhile_append_of_boundary hback'
        rwa [List.head?_reverse]
      rw [trimSpaces, hbehind, List.reverse_append, hbefore, List.reverse_reverse]

theorem trimsTo_iff : TrimsTo text core ↔ core = trimSpaces text := by
  constructor
  · exact TrimsTo.eq_trimSpaces
  · rintro rfl
    exact trimsTo_trimSpaces text

theorem isInfix_trimSpaces (text : List Char) : trimSpaces text <:+: text :=
  (trimSpaces_prefix_dropWhile text).isInfix.trans (List.dropWhile_suffix isSpace).isInfix

/-- A text that begins visibly is without white space at its ends just if it ends visibly. -/
theorem trimSpaces_eq_self_iff (hhead : text.head?.any isSpace = false) :
    trimSpaces text = text ↔ text.getLast?.any isSpace = false := by
  constructor
  · intro h
    rw [← h]
    exact (trimsTo_trimSpaces text).last_visible
  · intro hlast
    have hself : TrimsTo text text := ⟨⟨[], [], by simp⟩, hhead, hlast⟩
    exact hself.eq_trimSpaces.symm

theorem trimSpaces_eq_self_of_visible (h : ∀ c ∈ text, isSpace c = false) :
    trimSpaces text = text := by
  have hend : ∀ c? : Option Char, (∀ c ∈ c?, c ∈ text) → c?.any isSpace = false := by
    intro c? hmem
    cases c? with
    | none => rfl
    | some c => exact h c (hmem c rfl)
  have hhead := hend text.head? fun _ => List.mem_of_mem_head?
  exact (trimSpaces_eq_self_iff hhead).mpr (hend text.getLast? fun _ => List.mem_of_getLast?)

end Trimmed

end TypeScribe.Text
