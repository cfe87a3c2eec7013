import Mathlib.Data.List.Forall2
import TypeScribe.Proofs.Scan.Steadiness

/-!
# A run as a scan

Recognizers that report the first hit of a pattern can be followed from character to character: if one
of the patterns hits at the cursor, the first of the list that does so is applied, and if none does,
the character stays and the cursor moves on by one. So what a run makes of a text is found by looking
at the cursor only.
-/

namespace TypeScribe

open Scan

/-- What the first pattern that hits at the cursor makes of the text there. -/
def hitAt? (patterns : List (Config → Window → Option Hit)) (config : Config) (window : Window) :
    Option Hit :=
  patterns.findSome? fun pattern => pattern config window

/-- The match as it is seen from a cursor `count` characters before. -/
def Scan.Match.later (count : Nat) (found : Match) : Match :=
  ⟨count + found.start, found.length, found.replacement⟩

section AtCursor

variable {recognizer : Recognizer} {pattern : Config → Window → Option Hit} {config : Config}
  {window : Window} (hfollows : recognizer.Follows pattern)

include hfollows

theorem Scan.Recognizer.Follows.start_pos_of_none {found : Match}
    (hnone : pattern config window = none)
    (h : recognizer.recognize config window = some found) : 0 < found.start := by
  obtain ⟨_, hhit, _⟩ := hfollows.exists_of_some h
  rw [Nat.pos_iff_ne_zero]
  intro hzero
  rw [hzero, Window.advance_zero, hnone] at hhit
  simp at hhit

theorem Scan.Recognizer.Follows.applicable?_of_hit {hit : Hit} (hpos : 0 < hit.length)
    (hhit : pattern config window = some hit) :
    applicable? config window recognizer = some (hit.matchAt 0) := by
  rw [applicable?_eq_some_iff]
  exact ⟨hfollows.recognize_of_hit (Nat.zero_le _) hhit (by simp), hpos⟩

theorem Scan.Recognizer.Follows.applicable?_advance (hnone : pattern config window = none)
    (hahead : 0 < window.ahead.length) :
    applicable? config window recognizer =
      (applicable? config (window.advance 1) recognizer).map (Match.later 1) := by
  rw [applicable?, applicable?]
  cases h : recognizer.recognize config window with
  | none =>
      rw [hfollows.recognize_advance_of_none h hahead]
      rfl
  | some found =>
      have hstart := hfollows.start_pos_of_none hnone h
      have hlater : Match.later 1 ⟨found.start - 1, found.length, found.replacement⟩ = found := by
        rw [Match.later, Nat.add_sub_cancel' hstart]
      rw [hfollows.recognize_advance_of_some h hstart]
      by_cases hpos : 0 < found.length
      · simp [Option.filter, hpos, hlater]
      · simp [Option.filter, hpos]

end AtCursor

section Run

variable {recognizers : List Recognizer} {patterns : List (Config → Window → Option Hit)}
  {config : Config} {window : Window}
  (hfollows : List.Forall₂ Recognizer.Follows recognizers patterns)

include hfollows

theorem nextMatch?_of_hitAt? {hit : Hit} (hpos : 0 < hit.length)
    (h : hitAt? patterns config window = some hit) :
    ∃ name, nextMatch? config window recognizers = some (name, hit.matchAt 0) := by
  induction hfollows with
  | nil => simp [hitAt?] at h
  | @cons recognizer pattern recognizers patterns hhead _ ih =>
      rw [hitAt?, List.findSome?_cons] at h
      cases hpattern : pattern config window with
      | some hit' =>
          rw [hpattern] at h
          obtain rfl := Option.some.inj h
          refine ⟨recognizer.name, ?_⟩
          rw [nextMatch?, hhead.applicable?_of_hit hpos hpattern]
          cases nextMatch? config window recognizers with
          | none => rfl
          | some other => simp [Hit.matchAt]
      | none =>
          rw [hpattern] at h
          obtain ⟨name, hname⟩ := ih h
          refine ⟨name, ?_⟩
          rw [nextMatch?, hname]
          cases happlicable : applicable? config window recognizer with
          | none => rfl
          | some found =>
              have hstart := hhead.start_pos_of_none hpattern
                (applicable?_eq_some_iff.mp happlicable).1
              simp [Hit.matchAt, hstart]

theorem nextMatch?_of_hitAt?_eq_none (hahead : 0 < window.ahead.length)
    (h : hitAt? patterns config window = none) :
    nextMatch? config window recognizers =
      (nextMatch? config (window.advance 1) recognizers).map fun (name, found) =>
        (name, found.later 1) := by
  induction hfollows with
  | nil => rfl
  | @cons recognizer pattern recognizers patterns hhead _ ih =>
      rw [hitAt?, List.findSome?_eq_none_iff] at h
      have hnone := h pattern List.mem_cons_self
      have hrest : hitAt? patterns config window = none := by
        rw [hitAt?, List.findSome?_eq_none_iff]
        exact fun other hother => h other (List.mem_cons_of_mem pattern hother)
      rw [nextMatch?, nextMatch?, hhead.applicable?_advance hnone hahead, ih hrest]
      cases applicable? config (window.advance 1) recognizer with
      | none => cases nextMatch? config (window.advance 1) recognizers <;> rfl
      | some found =>
          cases nextMatch? config (window.advance 1) recognizers with
          | none => rfl
          | some other =>
              by_cases hlt : other.2.start < found.start
              · simp [Match.later, hlt]
              · simp [Match.later, hlt]

/-- **A hit at the cursor is applied**, and the run goes on behind it. -/
theorem output_convertWindow_of_hitAt? {hit : Hit} (hpos : 0 < hit.length)
    (h : hitAt? patterns config window = some hit) :
    (convertWindow recognizers config window).output =
      hit.replacement ++ (convertWindow recognizers config (window.advance hit.length)).output := by
  obtain ⟨name, hnext⟩ := nextMatch?_of_hitAt? hfollows hpos h
  rw [output_convertWindow_of_some hnext]
  simp [Hit.matchAt, Match.stop]

/-- **A character at which nothing hits stays**, and the run goes on behind it. -/
theorem output_convertWindow_of_hitAt?_eq_none {behind rest : List Char} {c : Char}
    (h : hitAt? patterns config ⟨behind, c :: rest⟩ = none) :
    (convertWindow recognizers config ⟨behind, c :: rest⟩).output =
      c :: (convertWindow recognizers config ⟨c :: behind, rest⟩).output := by
  have hahead : 0 < (Window.mk behind (c :: rest)).ahead.length := Nat.succ_pos rest.length
  have hnext := nextMatch?_of_hitAt?_eq_none hfollows hahead h
  rw [Window.advance_succ_cons, Window.advance_zero] at hnext
  cases hlater : nextMatch? config ⟨c :: behind, rest⟩ recognizers with
  | none =>
      rw [hlater, Option.map_none] at hnext
      rw [output_convertWindow_of_none hnext, output_convertWindow_of_none hlater]
  | some next =>
      obtain ⟨name, found⟩ := next
      rw [hlater, Option.map_some] at hnext
      have hstop : Window.advance (found.later 1).stop ⟨behind, c :: rest⟩ =
          Window.advance found.stop ⟨c :: behind, rest⟩ := by
        have hlength : (found.later 1).stop = found.stop + 1 := by
          simp only [Match.stop, Match.later]
          omega
        rw [hlength, Window.advance_succ_cons]
      rw [output_convertWindow_of_some hnext, output_convertWindow_of_some hlater, hstop]
      simp [Match.later, Nat.add_comm 1]

/-- Characters at none of which anything hits stay. -/
theorem output_convertWindow_append {front : List Char} (behind rest : List Char)
    (h : ∀ passed c more, front = passed ++ c :: more →
      hitAt? patterns config ⟨passed.reverse ++ behind, c :: (more ++ rest)⟩ = none) :
    (convertWindow recognizers config ⟨behind, front ++ rest⟩).output =
      front ++ (convertWindow recognizers config ⟨front.reverse ++ behind, rest⟩).output := by
  induction front generalizing behind with
  | nil => rfl
  | cons c front ih =>
      have hhead : hitAt? patterns config ⟨behind, c :: (front ++ rest)⟩ = none := h [] c front rfl
      rw [List.cons_append, output_convertWindow_of_hitAt?_eq_none hfollows hhead, ih]
      · simp
      · rintro passed d more rfl
        have hlater := h (c :: passed) d more rfl
        simpa using hlater

omit hfollows in
/-- At the end of the text a run ends. -/
theorem output_convertWindow_nil (behind : List Char) :
    (convertWindow recognizers config ⟨behind, []⟩).output = [] := by
  rw [output_convertWindow_of_none]
  rw [Option.eq_none_iff_forall_ne_some]
  rintro ⟨name, found⟩ hsome
  have hlt := length_advance_lt hsome
  exact absurd hlt (Nat.not_lt_zero _)

end Run

end TypeScribe
