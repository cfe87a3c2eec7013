import Mathlib.Data.List.Basic
import TypeScribe.Text.Affix

/-!
# Line endings

A text may end its lines with `\r\n` throughout, or have no `\r` at all. Both pass to pieces of the
text, unless it is cut between the two characters of one line ending, and back from pieces to the
whole. Where no line ends there is nothing to tell the two apart.
-/

namespace TypeScribe.Text

/-- Every line feed follows a carriage return. -/
def UsesCrlf (text : List Char) : Prop :=
  ∀ front rest, text = front ++ '\n' :: rest → front.getLast? = some '\r'

theorem usesCrlf_iff {text : List Char} : UsesCrlf text ↔
    ∀ count < text.length, text[count]? = some '\n' →
      (text.take count).getLast? = some '\r' := by
  constructor
  · intro h count _ hfeed
    obtain ⟨_, hfeed⟩ := List.getElem?_eq_some_iff.mp hfeed
    apply h (text.take count) (text.drop (count + 1))
    rw [← hfeed, List.getElem_cons_drop, List.take_append_drop]
  · rintro h front rest rfl
    have hlast := h front.length (by simp) (by simp)
    rwa [List.take_left] at hlast

instance (text : List Char) : Decidable (UsesCrlf text) :=
  decidable_of_iff ((List.range text.length).all fun count =>
      text[count]? != some '\n' || (text.take count).getLast? == some '\r') (by
    rw [usesCrlf_iff, List.all_eq_true]
    simp [imp_iff_not_or])

inductive LineEnding where
  | lf
  | crlf

namespace LineEnding

def chars : LineEnding → List Char
  | lf => ['\n']
  | crlf => ['\r', '\n']

/-- No line of the text ends otherwise. Where `\n` is the line ending there is no `\r` at all, not even
within a line. -/
def Throughout : LineEnding → List Char → Prop
  | lf, text => '\r' ∉ text
  | crlf, text => UsesCrlf text

theorem exists_head?_append (ending : LineEnding) (rest : List Char) :
    ∃ c, (ending.chars ++ rest).head? = some c ∧ isLineBreak c = true := by
  cases ending with
  | lf => exact ⟨'\n', rfl, by decide⟩
  | crlf => exact ⟨'\r', rfl, by decide⟩

end LineEnding

/-- The text lies within one line. -/
def Unbroken (text : List Char) : Prop := ∀ c ∈ text, isLineBreak c = false

instance (text : List Char) : Decidable (Unbroken text) :=
  decidable_of_iff (text.all (!isLineBreak ·) = true) (by simp [Unbroken])

section Pieces

variable {left right text : List Char} {ending : LineEnding}

/-! ### Cuts -/

theorem UsesCrlf.append (hleft : UsesCrlf left) (hright : UsesCrlf right) :
    UsesCrlf (left ++ right) := by
  intro front rest heq
  rcases List.append_eq_append_iff.mp heq with ⟨between, rfl, hfeed⟩ | ⟨between, hfeed, hrest⟩
  · have hlast := hright between rest hfeed
    rw [List.getLast?_append, hlast, Option.some_or]
  · rcases List.cons_eq_append_iff.mp hrest with ⟨rfl, hmore⟩ | ⟨more, rfl, rfl⟩
    · exact absurd (hright [] rest hmore) (by simp)
    · exact hleft front more hfeed

theorem UsesCrlf.of_append_left (h : UsesCrlf (left ++ right)) : UsesCrlf left := by
  rintro front rest rfl
  exact h front (rest ++ right) (List.append_assoc _ _ _)

theorem UsesCrlf.of_append_right (h : UsesCrlf (left ++ right))
    (hcut : left.getLast? = some '\r' → right.head? ≠ some '\n') : UsesCrlf right := by
  rintro front rest rfl
  have hlast := h (left ++ front) rest (List.append_assoc _ _ _).symm
  cases front with
  | nil =>
      rw [List.append_nil] at hlast
      exact absurd rfl (hcut hlast)
  | cons c front => rwa [List.getLast?_append_cons] at hlast

theorem LineEnding.Throughout.append (hleft : ending.Throughout left)
    (hright : ending.Throughout right) : ending.Throughout (left ++ right) := by
  cases ending with
  | lf => exact List.not_mem_append hleft hright
  | crlf => exact UsesCrlf.append hleft hright

theorem LineEnding.Throughout.of_append_left (h : ending.Throughout (left ++ right)) :
    ending.Throughout left := by
  cases ending with
  | lf => exact fun hmem => h (List.mem_append_left right hmem)
  | crlf => exact UsesCrlf.of_append_left h

/-- Behind a cut that is not within a line ending all line endings are whole. -/
theorem LineEnding.Throughout.of_append_right (h : ending.Throughout (left ++ right))
    (hcut : left.getLast? = some '\r' → right.head? ≠ some '\n') : ending.Throughout right := by
  cases ending with
  | lf => exact fun hmem => h (List.mem_append_right left hmem)
  | crlf => exact UsesCrlf.of_append_right h hcut

theorem LineEnding.throughout_chars (ending : LineEnding) : ending.Throughout ending.chars := by
  cases ending with
  | lf => exact (by decide : '\r' ∉ ['\n'])
  | crlf =>
      intro front rest heq
      rcases List.cons_eq_append_iff.mp heq with ⟨rfl, hfeed⟩ | ⟨front, rfl, hfeed⟩
      · exact absurd hfeed (by simp)
      · rcases List.cons_eq_append_iff.mp hfeed with ⟨rfl, _⟩ | ⟨front, rfl, hnil⟩
        · rfl
        · exact absurd hnil (by simp)

/-- If a line of the text ends at all, the two characters of `\r\n` tell how. -/
theorem LineEnding.Throughout.hasPair_iff (h : ending.Throughout text) (hfeed : '\n' ∈ text) :
    hasPair '\r' '\n' text = true ↔ ending = .crlf := by
  rw [hasPair_eq_true_iff]
  cases ending with
  | lf =>
      refine ⟨fun hpair => ?_, fun heq => absurd heq (by simp)⟩
      exact absurd (hpair.subset List.mem_cons_self) h
  | crlf =>
      refine ⟨fun _ => rfl, fun _ => ?_⟩
      obtain ⟨front, rest, rfl⟩ := List.append_of_mem hfeed
      obtain ⟨front', rfl⟩ := List.getLast?_eq_some_iff.mp (h front rest rfl)
      exact ⟨front', rest, by simp⟩

/-! ### Within one line -/

theorem Unbroken.append (hleft : Unbroken left) (hright : Unbroken right) :
    Unbroken (left ++ right) := by
  intro c hc
  rcases List.mem_append.mp hc with hc | hc
  · exact hleft c hc
  · exact hright c hc

theorem Unbroken.of_subset (h : Unbroken text) (hsubset : left ⊆ text) : Unbroken left :=
  fun c hc => h c (hsubset hc)

theorem Unbroken.not_mem_feed (h : Unbroken text) : '\n' ∉ text :=
  fun hmem => absurd (h '\n' hmem) (by decide)

theorem Unbroken.throughout (h : Unbroken text) (ending : LineEnding) : ending.Throughout text := by
  cases ending with
  | lf => exact fun hmem => absurd (h '\r' hmem) (by decide)
  | crlf =>
      rintro front rest rfl
      exact absurd (by simp) h.not_mem_feed

end Pieces

end TypeScribe.Text
