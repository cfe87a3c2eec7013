import TypeScribe.Config
import TypeScribe.Scan.Window

/-!
# Recognizers

A recognizer looks ahead from a cursor for one construct and proposes a replacement; what it reports
lies in the text ahead. It searches for the first place at or after the cursor where the construct
stands. Some constructs are only candidates at first: one that is refused is passed over, and the
search goes on with the character behind its start.
-/

namespace TypeScribe.Scan

open Text

/-- What stands at the cursor: how many characters belong to it and what replaces them. -/
structure Hit where
  length : Nat
  replacement : List Char
  deriving DecidableEq

/-- A stretch of the text ahead, counted in characters, and its replacement. -/
structure Match where
  start : Nat
  length : Nat
  replacement : List Char
  deriving DecidableEq

def Match.stop (found : Match) : Nat := found.start + found.length

def Match.span (found : Match) (window : Window) : Span :=
  ⟨byteLength (window.ahead.take found.start),
    byteLength ((window.ahead.drop found.start).take found.length)⟩

def Hit.matchAt (start : Nat) (hit : Hit) : Match := ⟨start, hit.length, hit.replacement⟩

structure Recognizer where
  name : String
  recognize : Config → Window → Option Match
  stop_le : ∀ {config : Config} {window : Window} {found : Match},
    recognize config window = some found → found.stop ≤ window.ahead.length

/-- The first place on the text `ahead` where `find` finds something, and what it finds. Places are
counted from a point that lies `skipped` characters before that text. -/
def firstFound {α : Type} (find : Window → Option α) (skipped : Nat) (behind : List Char) :
    List Char → Option (Nat × α)
  | [] => (find ⟨behind, []⟩).map fun found => (skipped, found)
  | c :: rest =>
      match find ⟨behind, c :: rest⟩ with
      | some found => some (skipped, found)
      | none => firstFound find (skipped + 1) (c :: behind) rest

theorem le_of_firstFound {α : Type} {find : Window → Option α} {skipped place : Nat}
    {behind ahead : List Char} {found : α}
    (h : firstFound find skipped behind ahead = some (place, found)) :
    skipped ≤ place ∧ place ≤ skipped + ahead.length ∧
      find (Window.advance (place - skipped) ⟨behind, ahead⟩) = some found := by
  induction ahead generalizing skipped behind with
  | nil =>
      obtain ⟨found', hfound, heq⟩ := Option.map_eq_some_iff.mp h
      obtain ⟨rfl, rfl⟩ := by simpa using heq
      simpa using hfound
  | cons c rest ih =>
      rw [firstFound] at h
      split at h
      · next found' hfound =>
          obtain ⟨rfl, rfl⟩ := by simpa using h
          simpa using hfound
      · obtain ⟨hle, hplace, hfind⟩ := ih h
        obtain ⟨more, rfl⟩ := Nat.exists_eq_add_of_le hle
        refine ⟨by omega, by simp only [List.length_cons]; omega, ?_⟩
        rw [show skipped + 1 + more - skipped = more + 1 by omega, Window.advance_succ_cons]
        rwa [Nat.add_sub_cancel_left] at hfind

/-- The match that `judge` makes of the first candidate it does not refuse. -/
def firstAccepted {α : Type} (find : Window → Option α) (judge : Window → α → Option Hit)
    (skipped : Nat) (window : Window) : Option Match :=
  match firstFound find 0 window.behind window.ahead with
  | none => none
  | some (start, candidate) =>
      let there := window.advance start
      match judge there candidate with
      | some hit => some (hit.matchAt (skipped + start))
      | none =>
          match _h : there.ahead with
          | [] => none
          | c :: rest => firstAccepted find judge (skipped + start + 1) ⟨c :: there.behind, rest⟩
termination_by window.ahead.length
decreasing_by
  have hlength := congrArg List.length _h
  simp only [Window.advance, List.length_drop, List.length_cons, there] at hlength ⊢
  omega

theorem stop_le_of_firstAccepted {α : Type} {find : Window → Option α}
    {judge : Window → α → Option Hit}
    (hjudge : ∀ {window candidate hit}, judge window candidate = some hit →
      hit.length ≤ window.ahead.length)
    {skipped : Nat} {window : Window} {found : Match}
    (h : firstAccepted find judge skipped window = some found) :
    found.stop ≤ skipped + window.ahead.length := by
  induction hlength : window.ahead.length using Nat.strongRecOn generalizing skipped window with
  | ind length ih =>
      subst hlength
      rw [firstAccepted] at h
      split at h
      · simp at h
      · next start candidate hcandidate =>
          obtain ⟨_, hstart, _⟩ := le_of_firstFound hcandidate
          dsimp only at h
          split at h
          · next hit hhit =>
              obtain rfl := Option.some.inj h
              have hfits := hjudge hhit
              simp only [Window.advance, List.length_drop] at hfits
              simp only [Hit.matchAt, Match.stop]
              omega
          · split at h
            · simp at h
            · next c rest hahead =>
                have hrest := congrArg List.length hahead
                simp only [Window.advance, List.length_drop, List.length_cons] at hrest
                have := ih rest.length (by omega) h rfl
                omega

namespace Recognizer

def ofPattern (name : String) (pattern : Config → Window → Option Hit)
    (hpattern : ∀ {config window hit}, pattern config window = some hit →
      hit.length ≤ window.ahead.length) : Recognizer where
  name := name
  recognize := fun config window =>
    (firstFound (pattern config) 0 window.behind window.ahead).map fun (start, hit) =>
      hit.matchAt start
  stop_le := fun {config window found} h => by
    obtain ⟨⟨start, hit⟩, hfound, rfl⟩ := Option.map_eq_some_iff.mp h
    obtain ⟨_, hstart, hhit⟩ := le_of_firstFound hfound
    have hlength := hpattern hhit
    simp only [Window.advance, List.length_drop] at hlength
    simp only [Hit.matchAt, Match.stop]
    omega

def ofCandidates {α : Type} (name : String) (find : Window → Option α)
    (judge : Config → Window → α → Option Hit)
    (hjudge : ∀ {config window candidate hit}, judge config window candidate = some hit →
      hit.length ≤ window.ahead.length) : Recognizer where
  name := name
  recognize := fun config window => firstAccepted find (judge config) 0 window
  stop_le := fun h => by simpa using stop_le_of_firstAccepted hjudge h

def literalPattern (needle replacement : List Char) (window : Window) : Option Hit :=
  if needle.isPrefixOf window.ahead then some ⟨needle.length, replacement⟩ else none

theorem length_le_of_literalPattern {needle replacement : List Char} {window : Window} {hit : Hit}
    (h : literalPattern needle replacement window = some hit) :
    hit.length ≤ window.ahead.length := by
  rw [literalPattern] at h
  split at h
  · next hprefix =>
      obtain rfl := Option.some.inj h
      exact (List.isPrefixOf_iff_prefix.mp hprefix).length_le
  · simp at h

def literal (name needle replacement : String) : Recognizer :=
  ofPattern name (fun _ => literalPattern needle.toList replacement.toList)
    length_le_of_literalPattern

end Recognizer

end TypeScribe.Scan
