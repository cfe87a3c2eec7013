import TypeScribe.Proofs.Text.Position

/-!
# Where a text stands

A piece that was cut out of a text stands there between what comes before it and what follows it, and
the bytes before it are its offset. A span holds a piece of a text if the piece stands at the span.
-/

namespace TypeScribe.Text

/-- The text stands in `whole` where it says, and `after` is what follows it there. -/
def Located.StandsIn (text : Located) (whole after : List Char) : Prop :=
  ∃ front, whole = front ++ (text.chars ++ after) ∧ text.offset = byteLength front

/-- The text at the span is `piece`. -/
def Span.Holds (span : Span) (whole piece : List Char) : Prop :=
  ∃ front after, whole = front ++ (piece ++ after) ∧ span = ⟨byteLength front, byteLength piece⟩

section StandsIn

variable {text : Located} {whole passed piece rest after : List Char} {offset : Nat} {span : Span}
  {c : Char}

theorem Located.standsIn_ofString (source : String) :
    (Located.ofString source).StandsIn source.toList [] :=
  ⟨[], by simp [Located.ofString], rfl⟩

theorem Located.StandsIn.drop (h : StandsIn ⟨offset, passed ++ rest⟩ whole after) :
    StandsIn ⟨offset + byteLength passed, rest⟩ whole after := by
  obtain ⟨front, rfl, rfl⟩ := h
  exact ⟨front ++ passed, by simp, by simp⟩

theorem Located.StandsIn.drop_cons (h : StandsIn ⟨offset, c :: rest⟩ whole after) :
    StandsIn ⟨offset + c.utf8Size, rest⟩ whole after := by
  rw [← List.singleton_append] at h
  exact h.drop

theorem Located.StandsIn.skip (h : text.StandsIn whole after) (p : Char → Bool) :
    (text.skip p).StandsIn whole after := by
  apply Located.StandsIn.drop
  rwa [List.takeWhile_append_dropWhile]

theorem Located.StandsIn.holds_cons (h : StandsIn ⟨offset, c :: rest⟩ whole after) :
    Span.Holds ⟨offset, c.utf8Size⟩ whole [c] := by
  obtain ⟨front, rfl, rfl⟩ := h
  exact ⟨front, rest ++ after, rfl, rfl⟩

theorem Located.StandsIn.holds_headSpan (h : text.StandsIn whole after)
    (hchars : text.chars = c :: rest) : text.headSpan.Holds whole [c] := by
  have hcons : StandsIn ⟨text.offset, c :: rest⟩ whole after := hchars ▸ h
  rw [Located.headSpan, hchars]
  exact hcons.holds_cons

theorem Located.StandsIn.headSpan_eq (h : text.StandsIn whole []) (hchars : text.chars = []) :
    text.headSpan = ⟨byteLength whole, 0⟩ := by
  obtain ⟨front, rfl, hoffset⟩ := h
  rw [Located.headSpan, hchars, hoffset]
  simp

theorem Span.holds_zero_iff :
    Span.Holds ⟨0, byteLength piece⟩ whole piece ↔ piece <+: whole := by
  constructor
  · rintro ⟨front, after, rfl, hspan⟩
    obtain rfl := byteLength_eq_zero_iff.mp (Span.mk.inj hspan).1.symm
    exact ⟨after, rfl⟩
  · rintro ⟨after, rfl⟩
    exact ⟨[], after, rfl, rfl⟩

/-- A piece that begins behind `passed` stands in the rest. -/
theorem Span.holds_append_iff {length : Nat} :
    Span.Holds ⟨byteLength passed + offset, length⟩ (passed ++ rest) piece ↔
      Span.Holds ⟨offset, length⟩ rest piece := by
  constructor
  · rintro ⟨front, after, hwhole, hspan⟩
    obtain ⟨hoffset, hlength⟩ := Span.mk.inj hspan
    obtain ⟨between, rfl, rfl⟩ :=
      exists_append_of_byteLength_le hwhole (hoffset ▸ Nat.le_add_right _ _)
    rw [byteLength_append, Nat.add_left_cancel_iff] at hoffset
    exact ⟨between, after, rfl, by rw [hoffset, hlength]⟩
  · rintro ⟨front, after, rfl, hspan⟩
    obtain ⟨rfl, rfl⟩ := Span.mk.inj hspan
    exact ⟨passed ++ front, after, by simp, by rw [byteLength_append]⟩

/-- No piece begins within the first character. -/
theorem Span.Holds.of_lt_utf8Size (h : Span.Holds ⟨offset, byteLength piece⟩ (c :: rest) piece)
    (hlt : offset < c.utf8Size) : piece <+: c :: rest := by
  obtain ⟨front, after, hwhole, hspan⟩ := h
  cases front with
  | nil => exact ⟨after, hwhole.symm⟩
  | cons d front =>
      obtain ⟨rfl, -⟩ := List.cons.inj hwhole
      have hoffset := (Span.mk.inj hspan).1
      rw [byteLength_cons] at hoffset
      omega

theorem Span.Holds.isBoundary (h : span.Holds whole piece) :
    IsBoundary whole span.offset ∧ IsBoundary whole span.stop := by
  obtain ⟨front, after, rfl, rfl⟩ := h
  have hstop := isBoundary_byteLength (front ++ piece) after
  rw [List.append_assoc, byteLength_append] at hstop
  exact ⟨isBoundary_byteLength _ _, hstop⟩

theorem Span.Holds.slice_eq (h : span.Holds whole piece) :
    slice span.offset span.stop whole = piece ∧ span.length = byteLength piece := by
  obtain ⟨front, after, rfl, rfl⟩ := h
  exact ⟨slice_append front piece after, rfl⟩

end StandsIn

end TypeScribe.Text
