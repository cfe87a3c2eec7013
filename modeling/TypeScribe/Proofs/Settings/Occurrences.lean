import Mathlib.Data.List.Sort
import TypeScribe.Proofs.Text.Located
import TypeScribe.Settings.Validation

/-!
# Quoted occurrences

Occurrences of a text are found from the left, and none lies across one found before. That settles
which ones are found, however the search goes about it. Occurrences between double and between single
quotes never begin at the same place, so all of them together have an order in which the one at place
`count` is the one before which `count` others begin.
-/

namespace TypeScribe.Settings

open Text

/-- The positions of occurrences of `needle`: none of these lies across another, and each occurrence
is one of these or lies across one that begins before it. -/
structure FoundFromLeft (needle text : List Char) (offsets : List Nat) : Prop where
  holds : ∀ offset ∈ offsets, Span.Holds ⟨offset, byteLength needle⟩ text needle
  apart : offsets.Pairwise fun offset offset' => offset + byteLength needle ≤ offset'
  covers : ∀ offset, Span.Holds ⟨offset, byteLength needle⟩ text needle →
    ∃ found ∈ offsets, found ≤ offset ∧ offset < found + byteLength needle

section Occurrences

variable {needle text rest : List Char} {offsets : List Nat} {c : Char}

/-! ### The search -/

theorem occurrences_skip (needle : List Char) (skip offset : Nat) (text : List Char) :
    occurrences needle skip offset text =
      occurrences needle 0 (offset + byteLength (text.take skip)) (text.drop skip) := by
  induction text generalizing skip offset with
  | nil => simp [occurrences]
  | cons c rest ih =>
      cases skip with
      | zero => rfl
      | succ skip =>
          rw [occurrences, ih, List.take_succ_cons, List.drop_succ_cons, byteLength_cons,
            Nat.add_assoc]

theorem occurrences_append_self (hne : needle ≠ []) (offset : Nat) (rest : List Char) :
    occurrences needle 0 offset (needle ++ rest) =
      offset :: occurrences needle 0 (offset + byteLength needle) rest := by
  cases needle with
  | nil => exact absurd rfl hne
  | cons c needle =>
      have hprefix : (c :: needle).isPrefixOf (c :: (needle ++ rest)) = true :=
        List.isPrefixOf_iff_prefix.mpr (List.prefix_append (c :: needle) rest)
      rw [List.cons_append, occurrences, if_pos hprefix, occurrences_skip, List.length_cons,
        Nat.add_sub_cancel, List.take_left, List.drop_left, byteLength_cons, Nat.add_assoc]

theorem occurrences_cons (h : ¬needle <+: c :: rest) (offset : Nat) :
    occurrences needle 0 offset (c :: rest) =
      occurrences needle 0 (offset + c.utf8Size) rest := by
  rw [occurrences, if_neg (List.isPrefixOf_iff_prefix.not.mpr h)]

/-- Induction along the search: it goes on behind an occurrence, or by one character. -/
theorem occurrence_induction (hne : needle ≠ []) {motive : List Char → Prop} (nil : motive [])
    (found : ∀ rest, motive rest → motive (needle ++ rest))
    (skipped : ∀ c rest, ¬needle <+: c :: rest → motive rest → motive (c :: rest))
    (text : List Char) : motive text := by
  induction hlength : text.length using Nat.strongRecOn generalizing text with
  | ind length ih =>
      subst hlength
      by_cases hprefix : needle <+: text
      · obtain ⟨rest, rfl⟩ := hprefix
        have hpos := List.length_pos_iff.mpr hne
        exact found rest (ih rest.length (by rw [List.length_append]; omega) rest rfl)
      · cases text with
        | nil => exact nil
        | cons c rest =>
            exact skipped c rest hprefix (ih rest.length (Nat.lt_succ_self _) rest rfl)

theorem occurrences_eq_map (hne : needle ≠ []) (offset : Nat) (text : List Char) :
    occurrences needle 0 offset text =
      (occurrences needle 0 0 text).map fun position => offset + position := by
  induction text using occurrence_induction hne generalizing offset with
  | nil => rfl
  | found rest ih =>
      rw [occurrences_append_self hne, occurrences_append_self hne, ih, ih (0 + byteLength needle)]
      simp [Nat.add_assoc]
  | skipped c rest hprefix ih =>
      rw [occurrences_cons hprefix, occurrences_cons hprefix, ih, ih (0 + c.utf8Size)]
      simp [Nat.add_assoc]

theorem occurrences_append_of_not_mem {first : Char} {front : List Char} (h : first ∉ front)
    (offset : Nat) (rest : List Char) : occurrences (first :: needle) 0 offset (front ++ rest) =
      occurrences (first :: needle) 0 (offset + byteLength front) rest := by
  induction front generalizing offset with
  | nil => rfl
  | cons c front ih =>
      obtain ⟨hc, hfront⟩ := not_or.mp (List.mem_cons.not.mp h)
      have hprefix : ¬first :: needle <+: c :: (front ++ rest) :=
        fun hprefix => hc (List.cons_prefix_cons.mp hprefix).1
      rw [List.cons_append, occurrences_cons hprefix, ih hfront, byteLength_cons, Nat.add_assoc]

theorem prefix_append_cons_iff (h : c ∉ needle) {front : List Char} :
    needle <+: front ++ c :: rest ↔ needle <+: front := by
  constructor
  · intro hprefix
    have hfront : front ++ [c] <+: front ++ c :: rest := ⟨rest, by simp⟩
    rcases List.prefix_or_prefix_of_prefix hprefix hfront with hneedle | hneedle
    · rcases List.prefix_concat_iff.mp hneedle with rfl | hneedle
      · exact absurd (by simp) h
      · exact hneedle
    · exact absurd (hneedle.subset (by simp)) h
  · exact fun hprefix => hprefix.trans (List.prefix_append _ _)

/-- No occurrence lies across a character that `needle` lacks. -/
theorem occurrences_append_cons (hne : needle ≠ []) (h : c ∉ needle) (offset : Nat)
    (front rest : List Char) : occurrences needle 0 offset (front ++ c :: rest) =
      occurrences needle 0 offset front ++
        occurrences needle 0 (offset + byteLength front + c.utf8Size) rest := by
  induction front using occurrence_induction hne generalizing offset with
  | nil =>
      have hprefix : ¬needle <+: c :: rest := fun hprefix =>
        hne (List.prefix_nil.mp ((@prefix_append_cons_iff _ rest c h []).mp hprefix))
      exact occurrences_cons hprefix offset
  | found front ih =>
      rw [List.append_assoc, occurrences_append_self hne, occurrences_append_self hne, ih,
        byteLength_append, List.cons_append, Nat.add_assoc offset]
  | skipped d front hprefix ih =>
      have hlonger := (@prefix_append_cons_iff _ rest c h (d :: front)).not.mpr hprefix
      rw [List.cons_append] at hlonger ⊢
      rw [occurrences_cons hlonger, occurrences_cons hprefix, ih, byteLength_cons,
        Nat.add_assoc offset]

/-! ### What it finds -/

theorem byteLength_pos_of_ne_nil (hne : needle ≠ []) : 0 < byteLength needle :=
  Nat.pos_of_ne_zero (byteLength_eq_zero_iff.not.mpr hne)

theorem foundFromLeft_nil (hne : needle ≠ []) : FoundFromLeft needle [] [] where
  holds := List.forall_mem_nil _
  apart := List.Pairwise.nil
  covers := by
    rintro offset ⟨front, after, hnil, -⟩
    obtain ⟨-, hneedle⟩ := List.append_eq_nil_iff.mp hnil.symm
    exact absurd (List.append_eq_nil_iff.mp hneedle).1 hne

theorem FoundFromLeft.append_self (h : FoundFromLeft needle rest offsets) :
    FoundFromLeft needle (needle ++ rest)
      (0 :: offsets.map fun offset => byteLength needle + offset) where
  holds := by
    refine List.forall_mem_cons.mpr ⟨Span.holds_zero_iff.mpr (List.prefix_append _ _), ?_⟩
    rw [List.forall_mem_map]
    exact fun offset hoffset => Span.holds_append_iff.mpr (h.holds offset hoffset)
  apart := by
    refine List.pairwise_cons.mpr ⟨?_, ?_⟩
    · rw [List.forall_mem_map]
      intro offset _
      omega
    · rw [List.pairwise_map]
      refine h.apart.imp ?_
      intro offset offset' hapart
      omega
  covers := by
    intro offset hoffset
    by_cases hlt : offset < byteLength needle
    · exact ⟨0, List.mem_cons_self, Nat.zero_le _, by omega⟩
    · obtain ⟨behind, rfl⟩ := Nat.exists_eq_add_of_le (Nat.not_lt.mp hlt)
      obtain ⟨found, hmem, hle, hwithin⟩ := h.covers behind (Span.holds_append_iff.mp hoffset)
      exact ⟨_, List.mem_cons_of_mem _ (List.mem_map_of_mem hmem), by omega, by omega⟩

theorem FoundFromLeft.cons (h : FoundFromLeft needle rest offsets) (hstart : ¬needle <+: c :: rest) :
    FoundFromLeft needle (c :: rest) (offsets.map fun offset => c.utf8Size + offset) where
  holds := by
    rw [List.forall_mem_map]
    intro offset hoffset
    exact (@Span.holds_append_iff [c] needle rest offset _).mpr (h.holds offset hoffset)
  apart := by
    rw [List.pairwise_map]
    refine h.apart.imp ?_
    intro offset offset' hapart
    omega
  covers := by
    intro offset hoffset
    by_cases hlt : offset < c.utf8Size
    · exact absurd (hoffset.of_lt_utf8Size hlt) hstart
    · obtain ⟨behind, rfl⟩ := Nat.exists_eq_add_of_le (Nat.not_lt.mp hlt)
      have hbehind := (@Span.holds_append_iff [c] needle rest behind _).mp hoffset
      obtain ⟨found, hmem, hle, hwithin⟩ := h.covers behind hbehind
      exact ⟨_, List.mem_map_of_mem hmem, by omega, by omega⟩

theorem foundFromLeft_occurrences (hne : needle ≠ []) (text : List Char) :
    FoundFromLeft needle text (occurrences needle 0 0 text) := by
  induction text using occurrence_induction hne with
  | nil => exact foundFromLeft_nil hne
  | found rest ih =>
      rw [occurrences_append_self hne, occurrences_eq_map hne, Nat.zero_add]
      exact ih.append_self
  | skipped c rest hprefix ih =>
      rw [occurrences_cons hprefix, occurrences_eq_map hne, Nat.zero_add]
      exact ih.cons hprefix

theorem occurrences_eq_nil_iff (hne : needle ≠ []) {offset : Nat} :
    occurrences needle 0 offset text = [] ↔ ¬needle <:+: text := by
  rw [occurrences_eq_map hne, List.map_eq_nil_iff]
  have hfound := foundFromLeft_occurrences hne text
  constructor
  · rintro hnil ⟨front, after, rfl⟩
    obtain ⟨found, hmem, -⟩ :=
      hfound.covers (byteLength front) ⟨front, after, List.append_assoc _ _ _, rfl⟩
    rw [hnil] at hmem
    exact absurd hmem (List.not_mem_nil)
  · intro hinfix
    rw [List.eq_nil_iff_forall_not_mem]
    intro found hmem
    obtain ⟨front, after, rfl, -⟩ := hfound.holds found hmem
    exact hinfix ⟨front, after, List.append_assoc _ _ _⟩

theorem FoundFromLeft.lt_byteLength (h : FoundFromLeft needle text offsets) (hne : needle ≠ [])
    {offset : Nat} (hmem : offset ∈ offsets) : offset < byteLength text := by
  obtain ⟨front, after, rfl, hspan⟩ := h.holds offset hmem
  have hpos := byteLength_pos_of_ne_nil hne
  rw [(Span.mk.inj hspan).1, byteLength_append, byteLength_append]
  omega

theorem FoundFromLeft.increasing (h : FoundFromLeft needle text offsets) (hne : needle ≠ []) :
    offsets.Pairwise (· < ·) := by
  have hpos := byteLength_pos_of_ne_nil hne
  refine h.apart.imp ?_
  intro offset offset' hapart
  omega

theorem FoundFromLeft.add_le_of_lt (h : FoundFromLeft needle text offsets) {offset offset' : Nat}
    (hmem : offset ∈ offsets) (hmem' : offset' ∈ offsets) (hlt : offset < offset') :
    offset + byteLength needle ≤ offset' := by
  obtain ⟨place, hplace, rfl⟩ := List.mem_iff_getElem.mp hmem
  obtain ⟨place', hplace', rfl⟩ := List.mem_iff_getElem.mp hmem'
  have hapart := List.pairwise_iff_getElem.mp h.apart
  rcases Nat.lt_trichotomy place place' with hbefore | rfl | hbehind
  · exact hapart place place' hplace hplace' hbefore
  · exact absurd hlt (Nat.lt_irrefl _)
  · have := hapart place' place hplace' hplace hbehind
    omega

/-- Of two occurrences apart from each other, found or not, each lies across one that is found. -/
theorem FoundFromLeft.two_le_countP {offset offset' limit : Nat}
    (h : FoundFromLeft needle text offsets)
    (hholds : Span.Holds ⟨offset, byteLength needle⟩ text needle)
    (hholds' : Span.Holds ⟨offset', byteLength needle⟩ text needle)
    (hapart : offset + byteLength needle ≤ offset') (hlimit : offset' < limit) :
    2 ≤ offsets.countP (· < limit) := by
  obtain ⟨found, hmem, hle, hwithin⟩ := h.covers offset hholds
  obtain ⟨found', hmem', hle', hwithin'⟩ := h.covers offset' hholds'
  have hnodup : [found, found'].Nodup := by
    simp only [List.nodup_cons, List.mem_singleton, List.not_mem_nil, not_false_eq_true,
      List.nodup_nil, and_true]
    omega
  have hsubset : [found, found'] ⊆ offsets.filter (· < limit) := by
    simp only [List.cons_subset, List.mem_filter, decide_eq_true_eq, List.nil_subset, and_true]
    exact ⟨⟨hmem, by omega⟩, hmem', by omega⟩
  rw [List.countP_eq_length_filter]
  exact (List.subperm_of_subset hnodup hsubset).length_le

/-- The first occurrence that only one of two searches finds would lie across one that both find. -/
theorem FoundFromLeft.mem_of_mem {offsets' : List Nat} {offset : Nat}
    (h : FoundFromLeft needle text offsets) (h' : FoundFromLeft needle text offsets')
    (hearlier : ∀ earlier < offset, earlier ∈ offsets' → earlier ∈ offsets)
    (hmem : offset ∈ offsets) : offset ∈ offsets' := by
  obtain ⟨found, hfound, hle, hwithin⟩ := h'.covers offset (h.holds offset hmem)
  rcases hle.eq_or_lt with rfl | hlt
  · exact hfound
  · have hapart := h.add_le_of_lt (hearlier found hlt hfound) hmem hlt
    omega

theorem FoundFromLeft.mem_iff {offsets' : List Nat} (h : FoundFromLeft needle text offsets)
    (h' : FoundFromLeft needle text offsets') (offset : Nat) :
    offset ∈ offsets ↔ offset ∈ offsets' := by
  induction offset using Nat.strongRecOn with
  | ind offset ih =>
      exact ⟨h.mem_of_mem h' fun earlier hlt => (ih earlier hlt).mpr,
        h'.mem_of_mem h fun earlier hlt => (ih earlier hlt).mp⟩

/-- What is found from the left is settled by the text. -/
theorem foundFromLeft_iff (hne : needle ≠ []) :
    FoundFromLeft needle text offsets ↔ offsets = occurrences needle 0 0 text := by
  have hfound := foundFromLeft_occurrences hne text
  constructor
  · intro h
    exact (h.increasing hne).eq_of_mem_iff (hfound.increasing hne) (h.mem_iff hfound)
  · rintro rfl
    exact hfound

end Occurrences

/-! ### Places in an increasing list -/

section Increasing

variable {positions left right : List Nat}

/-- The place of a position in an increasing list is the number of positions before it. -/
theorem getElem?_eq_some_iff_of_increasing (h : positions.Pairwise (· < ·)) {count position : Nat} :
    positions[count]? = some position ↔
      position ∈ positions ∧ positions.countP (· < position) = count := by
  induction positions generalizing count with
  | nil => simp
  | cons first positions ih =>
      obtain ⟨hfirst, hrest⟩ := List.pairwise_cons.mp h
      rw [List.mem_cons]
      by_cases hposition : position = first
      · subst hposition
        have hnone : positions.countP (· < position) = 0 := by
          rw [List.countP_eq_zero]
          intro later hlater
          simpa using (hfirst later hlater).le
        have hnotMem : position ∉ positions := fun hmem => Nat.lt_irrefl _ (hfirst position hmem)
        have hcount : (position :: positions).countP (· < position) = 0 := by
          rw [List.countP_cons_of_neg (by simp), hnone]
        cases count with
        | zero => simp [hcount]
        | succ count => simp [ih hrest, hnotMem, hcount]
      · rw [or_iff_right hposition]
        cases count with
        | zero =>
            have hne : some first ≠ some position := fun h => hposition (Option.some.inj h).symm
            rw [List.getElem?_cons_zero, iff_false_left hne]
            rintro ⟨hmem, hcount⟩
            have hlt := hfirst position hmem
            rw [List.countP_cons_of_pos (by simpa using hlt)] at hcount
            exact Nat.succ_ne_zero _ hcount
        | succ count =>
            rw [List.getElem?_cons_succ, ih hrest]
            refine and_congr_right fun hmem => ?_
            rw [List.countP_cons_of_pos (by simpa using hfirst position hmem)]
            exact Nat.succ_inj.symm

theorem pairwise_lt_merge (hleft : left.Pairwise (· < ·)) (hright : right.Pairwise (· < ·))
    (hdisjoint : ∀ position ∈ left, position ∉ right) : (left.merge right).Pairwise (· < ·) := by
  have hle : ∀ {list : List Nat}, list.Pairwise (· < ·) →
      list.Pairwise fun position position' => decide (position ≤ position') = true :=
    fun hlist => hlist.imp fun hlt => decide_eq_true hlt.le
  have hmerged := @List.pairwise_merge Nat (fun a b => decide (a ≤ b))
    (fun _ _ _ hab hbc => by simp only [decide_eq_true_eq] at *; omega)
    (fun a b => by simpa using Nat.le_total a b) left right (hle hleft) (hle hright)
  have hnodup : (left.merge right).Nodup := by
    rw [(List.merge_perm_append _).nodup_iff, List.nodup_append]
    refine ⟨hleft.imp Nat.ne_of_lt, hright.imp Nat.ne_of_lt, ?_⟩
    rintro position hmem _ hmem' rfl
    exact hdisjoint position hmem hmem'
  exact (hmerged.and hnodup).imp fun ⟨hle, hne⟩ =>
    Nat.lt_of_le_of_ne (by simpa using hle) hne

end Increasing

/-! ### Both kinds of quotes -/

/-- The positions of `value` between two quotes of this kind. -/
def quotedOffsets (content value : String) (quote : Char) : List Nat :=
  occurrences (quoted quote value) 0 0 content.toList

section Quoted

variable {content value : String} {quote : Char} {count : Nat} {span : Span}

theorem quoted_ne_nil (quote : Char) (value : String) : quoted quote value ≠ [] :=
  List.cons_ne_nil _ _

theorem byteLength_quoted (hquote : quote.utf8Size = 1) (value : String) :
    byteLength (quoted quote value) = byteLength value.toList + 2 := by
  rw [quoted, List.cons_append, byteLength_cons, byteLength_append, byteLength_cons, hquote,
    byteLength_nil]
  omega

theorem occurrences_quoted_append {front : List Char} (h : quote ∉ front) (offset : Nat)
    (rest : List Char) : occurrences (quoted quote value) 0 offset (front ++ rest) =
      occurrences (quoted quote value) 0 (offset + byteLength front) rest :=
  occurrences_append_of_not_mem h offset rest

theorem foundFromLeft_quotedOffsets (content value : String) (quote : Char) :
    FoundFromLeft (quoted quote value) content.toList (quotedOffsets content value quote) :=
  foundFromLeft_occurrences (quoted_ne_nil quote value) _

theorem increasing_quotedOffsets (content value : String) (quote : Char) :
    (quotedOffsets content value quote).Pairwise (· < ·) :=
  (foundFromLeft_quotedOffsets content value quote).increasing (quoted_ne_nil quote value)

/-- At a position at which a quoted text begins stands its quote. -/
theorem head?_dropBytes_of_mem {offset : Nat} (h : offset ∈ quotedOffsets content value quote) :
    (dropBytes offset content.toList).head? = some quote := by
  obtain ⟨front, after, hwhole, hspan⟩ :=
    (foundFromLeft_quotedOffsets content value quote).holds offset h
  rw [(Span.mk.inj hspan).1, hwhole, dropBytes_append]
  rfl

/-- The positions of both kinds, in the order of the text. -/
def bothOffsets (content value : String) : List Nat :=
  (quotedOffsets content value '"').merge (quotedOffsets content value '\'')

theorem increasing_bothOffsets (content value : String) :
    (bothOffsets content value).Pairwise (· < ·) := by
  refine pairwise_lt_merge (increasing_quotedOffsets _ _ _) (increasing_quotedOffsets _ _ _) ?_
  intro offset hdouble hsingle
  have hquotes := (head?_dropBytes_of_mem hdouble).symm.trans (head?_dropBytes_of_mem hsingle)
  exact absurd hquotes (by decide)

theorem perm_bothOffsets (content value : String) : (bothOffsets content value).Perm
    (quotedOffsets content value '"' ++ quotedOffsets content value '\'') :=
  List.merge_perm_append _

theorem quotedSpans_eq_map (content value : String) : quotedSpans content value =
    (bothOffsets content value).map fun offset => ⟨offset, byteLength value.toList + 2⟩ := rfl

theorem getElem?_quotedSpans_eq_none_iff : (quotedSpans content value)[count]? = none ↔
    (quotedOffsets content value '"').length + (quotedOffsets content value '\'').length ≤
      count := by
  rw [List.getElem?_eq_none_iff, quotedSpans_eq_map, List.length_map,
    (perm_bothOffsets content value).length_eq, List.length_append]

/-- A quoted occurrence stands at the place that counts the ones before it. -/
theorem getElem?_quotedSpans_eq_some_iff : (quotedSpans content value)[count]? = some span ↔
    span.length = byteLength value.toList + 2 ∧
      (span.offset ∈ quotedOffsets content value '"' ∨
        span.offset ∈ quotedOffsets content value '\'') ∧
      (quotedOffsets content value '"').countP (· < span.offset) +
        (quotedOffsets content value '\'').countP (· < span.offset) = count := by
  have hplace : (bothOffsets content value)[count]? = some span.offset ↔
      (span.offset ∈ quotedOffsets content value '"' ∨
        span.offset ∈ quotedOffsets content value '\'') ∧
      (quotedOffsets content value '"').countP (· < span.offset) +
        (quotedOffsets content value '\'').countP (· < span.offset) = count := by
    rw [getElem?_eq_some_iff_of_increasing (increasing_bothOffsets content value),
      (perm_bothOffsets content value).mem_iff, (perm_bothOffsets content value).countP_eq,
      List.mem_append, List.countP_append]
  rw [quotedSpans_eq_map, List.getElem?_map, Option.map_eq_some_iff, ← hplace]
  constructor
  · rintro ⟨offset, hoffset, rfl⟩
    exact ⟨rfl, hoffset⟩
  · rintro ⟨hlength, hoffset⟩
    exact ⟨span.offset, hoffset, by rw [← hlength]⟩

end Quoted

end TypeScribe.Settings
