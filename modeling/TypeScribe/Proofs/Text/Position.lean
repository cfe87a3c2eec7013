import Mathlib.Order.Interval.Set.Defs
import Mathlib.Order.Monotone.Basic
import TypeScribe.Scan.Window

/-!
# Byte positions

Statements about a source text name places in it by byte positions counted from its start. A position
is a boundary when no character of the text lies across it. At a boundary the text falls into two
parts, and a window whose cursor stands there holds exactly these.
-/

namespace TypeScribe

namespace Text

/-- The characters that end within the first `count` bytes. -/
def takeBytes : Nat → List Char → List Char
  | _, [] => []
  | count, c :: rest =>
      if count < c.utf8Size then [] else c :: takeBytes (count - c.utf8Size) rest

/-- The characters after those that end within the first `count` bytes. -/
def dropBytes : Nat → List Char → List Char
  | _, [] => []
  | count, c :: rest =>
      if count < c.utf8Size then c :: rest else dropBytes (count - c.utf8Size) rest

/-- The text between two byte positions. -/
def slice (start stop : Nat) (text : List Char) : List Char :=
  takeBytes (stop - start) (dropBytes start text)

/-- No character of the text lies across the byte `position`, which is not behind its end. -/
def IsBoundary (text : List Char) (position : Nat) : Prop :=
  ∃ front, front <+: text ∧ byteLength front = position

@[simp]
theorem takeBytes_append (front rest : List Char) :
    takeBytes (byteLength front) (front ++ rest) = front := by
  induction front with
  | nil =>
      cases rest with
      | nil => rfl
      | cons c rest => simp [takeBytes, c.utf8Size_pos]
  | cons c front ih => simp [takeBytes, ih]

@[simp]
theorem dropBytes_append (front rest : List Char) :
    dropBytes (byteLength front) (front ++ rest) = rest := by
  induction front with
  | nil =>
      cases rest with
      | nil => rfl
      | cons c rest => simp [dropBytes, c.utf8Size_pos]
  | cons c front ih => simp [dropBytes, ih, Nat.not_lt.mpr (Nat.le_add_right _ _)]

@[simp]
theorem dropBytes_zero (text : List Char) : dropBytes 0 text = text :=
  dropBytes_append [] text

@[simp]
theorem takeBytes_append_dropBytes (count : Nat) (text : List Char) :
    takeBytes count text ++ dropBytes count text = text := by
  induction text generalizing count with
  | nil => rfl
  | cons c rest ih =>
      rw [takeBytes, dropBytes]
      split
      · rfl
      · rw [List.cons_append, ih]

theorem slice_append (front middle rest : List Char) :
    slice (byteLength front) (byteLength front + byteLength middle) (front ++ (middle ++ rest)) =
      middle := by
  rw [slice, dropBytes_append, Nat.add_sub_cancel_left, takeBytes_append]

theorem isBoundary_byteLength (front rest : List Char) :
    IsBoundary (front ++ rest) (byteLength front) :=
  ⟨front, List.prefix_append front rest, rfl⟩

theorem IsBoundary.exists_append {text : List Char} {position : Nat}
    (h : IsBoundary text position) :
    ∃ front rest, text = front ++ rest ∧ position = byteLength front := by
  obtain ⟨front, ⟨rest, htext⟩, hlength⟩ := h
  exact ⟨front, rest, htext.symm, hlength.symm⟩

theorem IsBoundary.le {text : List Char} {position : Nat} (h : IsBoundary text position) :
    position ≤ byteLength text := by
  obtain ⟨front, rest, rfl, rfl⟩ := h.exists_append
  simp

/-- Within a text more characters take more bytes. -/
theorem strictMonoOn_byteLength_take (text : List Char) :
    StrictMonoOn (fun count => byteLength (text.take count)) (Set.Iic text.length) := by
  intro count _ more hmore hlt
  have hsplit : text.take more = text.take count ++ (text.drop count).take (more - count) := by
    rw [← List.take_add, Nat.add_sub_cancel' hlt.le]
  have hbetween := length_le_byteLength ((text.drop count).take (more - count))
  simp only [List.length_take, List.length_drop, Set.mem_Iic] at hbetween hmore
  change byteLength (text.take count) < byteLength (text.take more)
  rw [hsplit, byteLength_append]
  omega

/-- Of two prefixes of a text the one with fewer bytes is a prefix of the other. -/
theorem exists_append_of_byteLength_le {front front' rest rest' : List Char}
    (htext : front ++ rest = front' ++ rest') (hle : byteLength front ≤ byteLength front') :
    ∃ between, front' = front ++ between ∧ rest = between ++ rest' := by
  rcases List.append_eq_append_iff.mp htext with ⟨between, hfront, hrest⟩ | ⟨between, hfront, hrest⟩
  · exact ⟨between, hfront, hrest⟩
  · have hnil : between = [] := by
      apply byteLength_eq_zero_iff.mp
      have hlength := congrArg byteLength hfront
      rw [byteLength_append] at hlength
      omega
    subst hnil
    exact ⟨[], by simpa using hfront.symm, by simpa using hrest.symm⟩

end Text

namespace Scan.Window

open Text

theorem atByte_go (behind text : List Char) (offset : Nat) :
    atByte.go behind text offset =
      ⟨(takeBytes offset text).reverse ++ behind, dropBytes offset text⟩ := by
  induction text generalizing behind offset with
  | nil => rfl
  | cons c rest ih =>
      rw [atByte.go, takeBytes, dropBytes]
      split
      · rfl
      · rw [ih]
        simp

theorem atByte_eq (text : List Char) (offset : Nat) :
    atByte text offset = ⟨(takeBytes offset text).reverse, dropBytes offset text⟩ := by
  rw [atByte, atByte_go, List.append_nil]

@[simp]
theorem source_atByte (text : List Char) (offset : Nat) : (atByte text offset).source = text := by
  rw [atByte_eq, source, List.reverse_reverse, takeBytes_append_dropBytes]

/-- At a boundary the window holds the two parts of the text. -/
theorem atByte_append (front rest : List Char) :
    atByte (front ++ rest) (byteLength front) = ⟨front.reverse, rest⟩ := by
  rw [atByte_eq, takeBytes_append, dropBytes_append]

/-- A window is determined by its text and the position of its cursor. -/
theorem atByte_cursor (window : Window) : atByte window.source window.cursor = window := by
  have hcursor : window.cursor = byteLength window.behind.reverse := by
    rw [byteLength_reverse, cursor]
  rw [source, hcursor, atByte_append, List.reverse_reverse]

theorem isBoundary_cursor (window : Window) : IsBoundary window.source window.cursor := by
  have h := isBoundary_byteLength window.behind.reverse window.ahead
  rwa [byteLength_reverse] at h

end Scan.Window

end TypeScribe
