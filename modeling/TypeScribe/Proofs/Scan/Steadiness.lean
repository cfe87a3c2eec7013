import TypeScribe.Proofs.Conversion.Splice
import TypeScribe.Proofs.Scan.Clearance

/-!
# Recognizers and the position of the cursor

Each of the four recognizers reports the first place from the cursor on at which its construct
stands, and what it reports there does not depend on where the cursor was. So a cursor that moves on,
but not beyond the reported start, sees the same edit; and where nothing is reported, nothing is
reported further on. For the recognizers that pass over refused candidates this says that the search
behind a refused one misses nothing and finds nothing new.
-/

namespace TypeScribe

open Text

namespace Scan

/-! ### The first place -/

section FirstFound

variable {α : Type} {find : Window → Option α} {skipped : Nat} {behind ahead : List Char}

theorem firstFound_eq_none_iff :
    firstFound find skipped behind ahead = none ↔
      ∀ count ≤ ahead.length, find (Window.advance count ⟨behind, ahead⟩) = none := by
  induction ahead generalizing skipped behind with
  | nil =>
      rw [firstFound, Option.map_eq_none_iff]
      constructor
      · intro h count hcount
        obtain rfl := Nat.le_zero.mp hcount
        exact h
      · exact fun h => h 0 le_rfl
  | cons c rest ih =>
      rw [firstFound]
      constructor
      · intro h count hcount
        split at h
        · simp at h
        · next hhead =>
            cases count with
            | zero => exact hhead
            | succ count =>
                rw [Window.advance_succ_cons]
                exact ih.mp h count (Nat.le_of_succ_le_succ hcount)
      · intro h
        have hhead : find ⟨behind, c :: rest⟩ = none := h 0 (Nat.zero_le _)
        rw [hhead]
        refine ih.mpr fun count hcount => ?_
        rw [← Window.advance_succ_cons]
        exact h (count + 1) (Nat.succ_le_succ hcount)

/-- Places where nothing is found can be passed over. -/
theorem firstFound_advance {count : Nat} (hcount : count ≤ ahead.length)
    (hnone : ∀ fewer < count, find (Window.advance fewer ⟨behind, ahead⟩) = none) :
    firstFound find skipped behind ahead =
      firstFound find (skipped + count) (Window.advance count ⟨behind, ahead⟩).behind
        (Window.advance count ⟨behind, ahead⟩).ahead := by
  induction count generalizing skipped behind ahead with
  | zero => rfl
  | succ count ih =>
      cases ahead with
      | nil => simp at hcount
      | cons c rest =>
          have hhead : find ⟨behind, c :: rest⟩ = none := hnone 0 (Nat.succ_pos count)
          rw [firstFound, hhead, Window.advance_succ_cons, Nat.add_comm count 1, ← Nat.add_assoc]
          refine ih (Nat.le_of_succ_le_succ hcount) fun fewer hfewer => ?_
          rw [← Window.advance_succ_cons]
          exact hnone (fewer + 1) (Nat.succ_lt_succ hfewer)

theorem firstFound_of_found {found : α} (h : find ⟨behind, ahead⟩ = some found) :
    firstFound find skipped behind ahead = some (skipped, found) := by
  cases ahead with
  | nil => rw [firstFound, h, Option.map_some]
  | cons c rest => rw [firstFound, h]

theorem firstFound_of_found_advance {count : Nat} {found : α} (hcount : count ≤ ahead.length)
    (hfound : find (Window.advance count ⟨behind, ahead⟩) = some found)
    (hnone : ∀ fewer < count, find (Window.advance fewer ⟨behind, ahead⟩) = none) :
    firstFound find skipped behind ahead = some (skipped + count, found) := by
  rw [firstFound_advance hcount hnone]
  exact firstFound_of_found hfound

/-- At the places before the first one nothing is found. -/
theorem eq_none_of_firstFound {place count : Nat} {found : α}
    (h : firstFound find skipped behind ahead = some (place, found))
    (hcount : skipped + count < place) :
    find (Window.advance count ⟨behind, ahead⟩) = none := by
  induction ahead generalizing skipped behind count with
  | nil =>
      obtain ⟨_, _, heq⟩ := Option.map_eq_some_iff.mp h
      obtain ⟨rfl, _⟩ := by simpa using heq
      omega
  | cons c rest ih =>
      rw [firstFound] at h
      split at h
      · obtain ⟨rfl, _⟩ := by simpa using h
        omega
      · next hhead =>
          cases count with
          | zero => exact hhead
          | succ count =>
              rw [Window.advance_succ_cons]
              exact ih h (by omega)

end FirstFound

/-! ### Searching on behind refused candidates -/

/-- A hit is a candidate that is not refused. -/
def acceptedHit {α : Type} (find : Window → Option α) (judge : Window → α → Option Hit)
    (window : Window) : Option Hit :=
  (find window).bind (judge window)

theorem Window.advance_succ_of_ahead {window : Window} {count : Nat} {c : Char} {rest : List Char}
    (h : (window.advance count).ahead = c :: rest) :
    window.advance (count + 1) = ⟨c :: (window.advance count).behind, rest⟩ := by
  rw [Window.advance_add]
  change Window.advance 1 ⟨(window.advance count).behind, (window.advance count).ahead⟩ = _
  rw [h, Window.advance_succ_cons, Window.advance_zero]

section Candidates

variable {α : Type} {find : Window → Option α} {judge : Window → α → Option Hit} {window : Window}

theorem acceptedHit_of_find {candidate : α} (h : find window = some candidate) :
    acceptedHit find judge window = judge window candidate := by
  rw [acceptedHit, h, Option.bind_some]

theorem acceptedHit_of_find_eq_none (h : find window = none) :
    acceptedHit find judge window = none := by
  rw [acceptedHit, h, Option.bind_none]

/-- The first candidate is the first place that can hold a hit. -/
theorem acceptedHit_of_firstFound {start : Nat} {candidate : α}
    (h : firstFound find 0 window.behind window.ahead = some (start, candidate)) :
    start ≤ window.ahead.length ∧
      acceptedHit find judge (window.advance start) = judge (window.advance start) candidate ∧
      ∀ fewer < start, acceptedHit find judge (window.advance fewer) = none := by
  obtain ⟨_, hstart, hfind⟩ := le_of_firstFound h
  rw [Nat.zero_add] at hstart
  refine ⟨hstart, acceptedHit_of_find hfind, fun fewer hfewer => ?_⟩
  apply acceptedHit_of_find_eq_none
  exact eq_none_of_firstFound h ((Nat.zero_add fewer).symm ▸ hfewer)

/-- The search that goes on one character behind the start of a refused candidate finds the first
place where a candidate stands that is not refused. -/
theorem firstAccepted_eq_firstFound (find : Window → Option α) (judge : Window → α → Option Hit)
    (skipped : Nat) (window : Window) :
    firstAccepted find judge skipped window =
      (firstFound (acceptedHit find judge) skipped window.behind window.ahead).map
        fun (start, hit) => hit.matchAt start := by
  induction hlength : window.ahead.length using Nat.strongRecOn generalizing skipped window with
  | ind length ih =>
      subst hlength
      rw [firstAccepted]
      split
      · next hnone =>
          have hall := firstFound_eq_none_iff.mp hnone
          rw [firstFound_eq_none_iff.mpr, Option.map_none]
          exact fun count hcount => acceptedHit_of_find_eq_none (hall count hcount)
      · next start candidate hcandidate =>
          obtain ⟨hstart, hthere, hbefore⟩ := @acceptedHit_of_firstFound _ _ judge _ _ _ hcandidate
          dsimp only
          split
          · next hit hhit =>
              rw [hhit] at hthere
              rw [firstFound_of_found_advance hstart hthere hbefore, Option.map_some]
          · next hrefused =>
              rw [hrefused] at hthere
              have hpassed : ∀ fewer < start + 1,
                  acceptedHit find judge (window.advance fewer) = none := by
                intro fewer hfewer
                rcases Nat.lt_succ_iff_lt_or_eq.mp hfewer with hlt | rfl
                · exact hbefore fewer hlt
                · exact hthere
              have hrest := window.length_ahead_advance start
              split
              · next hend =>
                  rw [hend, List.length_nil] at hrest
                  rw [firstFound_eq_none_iff.mpr, Option.map_none]
                  exact fun count hcount => hpassed count (by omega)
              · next c rest hahead =>
                  rw [hahead, List.length_cons] at hrest
                  have hnotLast : start + 1 ≤ window.ahead.length := by omega
                  rw [firstFound_advance hnotLast hpassed]
                  change _ = (firstFound _ _ (window.advance (start + 1)).behind
                    (window.advance (start + 1)).ahead).map _
                  rw [Window.advance_succ_of_ahead hahead, ← Nat.add_assoc]
                  exact ih rest.length (by omega) _ ⟨_, rest⟩ rfl

end Candidates

/-! ### Moving the cursor -/

/-- The recognizer reports the first hit of `pattern`. -/
def Recognizer.Follows (recognizer : Recognizer) (pattern : Config → Window → Option Hit) : Prop :=
  ∀ config window, recognizer.recognize config window =
    (firstFound (pattern config) 0 window.behind window.ahead).map fun (start, hit) =>
      hit.matchAt start

theorem follows_ofPattern (name : String) (pattern : Config → Window → Option Hit)
    (hpattern : ∀ {config window hit}, pattern config window = some hit →
      hit.length ≤ window.ahead.length) :
    (Recognizer.ofPattern name pattern hpattern).Follows pattern :=
  fun _ _ => rfl

theorem follows_ofCandidates {α : Type} (name : String) (find : Window → Option α)
    (judge : Config → Window → α → Option Hit)
    (hjudge : ∀ {config window candidate hit}, judge config window candidate = some hit →
      hit.length ≤ window.ahead.length) :
    (Recognizer.ofCandidates name find judge hjudge).Follows fun config =>
      acceptedHit find (judge config) :=
  fun config window => firstAccepted_eq_firstFound find (judge config) 0 window

section Follows

variable {recognizer : Recognizer} {pattern : Config → Window → Option Hit} {config : Config}
  {window : Window} (hfollows : recognizer.Follows pattern)

include hfollows

theorem Recognizer.Follows.exists_of_some {found : Match}
    (h : recognizer.recognize config window = some found) :
    found.start ≤ window.ahead.length ∧
      pattern config (window.advance found.start) = some ⟨found.length, found.replacement⟩ ∧
      ∀ fewer < found.start, pattern config (window.advance fewer) = none := by
  rw [hfollows] at h
  obtain ⟨⟨start, hit⟩, hfirst, rfl⟩ := Option.map_eq_some_iff.mp h
  obtain ⟨_, hstart, hhit⟩ := le_of_firstFound hfirst
  rw [Nat.zero_add] at hstart
  refine ⟨hstart, hhit, fun fewer hfewer => ?_⟩
  exact eq_none_of_firstFound hfirst ((Nat.zero_add fewer).symm ▸ hfewer)

theorem Recognizer.Follows.recognize_of_hit {count : Nat} {hit : Hit}
    (hcount : count ≤ window.ahead.length) (hhit : pattern config (window.advance count) = some hit)
    (hnone : ∀ fewer < count, pattern config (window.advance fewer) = none) :
    recognizer.recognize config window = some (hit.matchAt count) := by
  rw [hfollows, firstFound_of_found_advance hcount hhit hnone, Option.map_some, Nat.zero_add]

theorem Recognizer.Follows.recognize_eq_none_iff :
    recognizer.recognize config window = none ↔
      ∀ count ≤ window.ahead.length, pattern config (window.advance count) = none := by
  rw [hfollows, Option.map_eq_none_iff]
  exact firstFound_eq_none_iff

theorem Recognizer.Follows.recognize_advance_of_some {found : Match} {count : Nat}
    (h : recognizer.recognize config window = some found) (hcount : count ≤ found.start) :
    recognizer.recognize config (window.advance count) =
      some ⟨found.start - count, found.length, found.replacement⟩ := by
  obtain ⟨hstart, hhit, hnone⟩ := hfollows.exists_of_some h
  have hhit' : pattern config ((window.advance count).advance (found.start - count)) =
      some ⟨found.length, found.replacement⟩ := by
    rw [← Window.advance_add, Nat.add_sub_cancel' hcount]
    exact hhit
  refine hfollows.recognize_of_hit ?_ hhit' fun fewer hfewer => ?_
  · rw [Window.length_ahead_advance]
    omega
  · rw [← Window.advance_add]
    exact hnone (count + fewer) (by omega)

theorem Recognizer.Follows.recognize_advance_of_none {count : Nat}
    (h : recognizer.recognize config window = none) (hcount : count ≤ window.ahead.length) :
    recognizer.recognize config (window.advance count) = none := by
  refine hfollows.recognize_eq_none_iff.mpr fun more hmore => ?_
  rw [Window.length_ahead_advance] at hmore
  rw [← Window.advance_add]
  exact hfollows.recognize_eq_none_iff.mp h (count + more) (by omega)

end Follows

/-- The boundaries from the cursor on are the places to which the cursor can be moved. -/
theorem Window.exists_advance_of_isBoundary {window : Window} {later : Nat}
    (h : IsBoundary window.source later) (hle : window.cursor ≤ later) :
    ∃ count ≤ window.ahead.length,
      atByte window.source later = window.advance count ∧
      later = window.cursor + byteLength (window.ahead.take count) := by
  obtain ⟨front, rest, htext, rfl⟩ := h.exists_append
  have hle' : byteLength window.behind.reverse ≤ byteLength front := by
    rwa [byteLength_reverse]
  obtain ⟨between, rfl, hahead⟩ := exists_append_of_byteLength_le htext hle'
  refine ⟨between.length, ?_, ?_, ?_⟩
  · rw [hahead, List.length_append]
    exact Nat.le_add_right _ _
  · rw [htext, atByte_append, advance, hahead, List.take_left, List.drop_left, List.reverse_append,
      List.reverse_reverse]
  · rw [hahead, List.take_left, byteLength_append, byteLength_reverse, cursor]

/-- Seen from a later cursor, the match is the same edit. -/
theorem edit_advance (name : String) {window : Window} {found : Match} {count : Nat}
    (hcount : count ≤ found.start) :
    Match.edit name (window.advance count)
        ⟨found.start - count, found.length, found.replacement⟩ =
      found.edit name window := by
  have hstart : count + (found.start - count) = found.start := Nat.add_sub_cancel' hcount
  have hstop : count + (found.start - count + found.length) = found.stop := by
    rw [← Nat.add_assoc, hstart, Match.stop]
  apply Edit.ext
  · rfl
  · rw [← Match.cursor_advance_start, ← Match.cursor_advance_start, ← Window.advance_add, hstart]
  · rw [← Match.cursor_advance_stop, ← Match.cursor_advance_stop, ← Window.advance_add]
    exact congrArg (fun stop => (window.advance stop).cursor) hstop
  · rfl

/-- What a recognizer reports at the byte `cursor` of the text takes something from the text behind
it, it is reported from every cursor up to its start, and if nothing is reported nothing is reported
from any later cursor. -/
structure Steady (recognizer : Recognizer) (config : Config) (text : List Char) (cursor : Nat) :
    Prop where
  bounds : ∀ edit, recognizer.editAt config text cursor = some edit →
    cursor ≤ edit.start ∧ edit.start < edit.stop ∧ edit.stop ≤ byteLength text
  isBoundary : ∀ edit, recognizer.editAt config text cursor = some edit →
    IsBoundary text edit.start ∧ IsBoundary text edit.stop
  same_later : ∀ edit, recognizer.editAt config text cursor = some edit →
    ∀ later, IsBoundary text later → cursor ≤ later → later ≤ edit.start →
      recognizer.editAt config text later = some edit
  /-- An edit that is reported from its own start does not start earlier. -/
  least : ∀ edit edit', recognizer.editAt config text cursor = some edit →
    IsBoundary text edit'.start → cursor ≤ edit'.start →
      recognizer.editAt config text edit'.start = some edit' → edit.start ≤ edit'.start
  none_later : recognizer.editAt config text cursor = none →
    ∀ later, IsBoundary text later → cursor ≤ later →
      recognizer.editAt config text later = none

theorem Recognizer.Follows.editAt_later {recognizer : Recognizer}
    {pattern : Config → Window → Option Hit} {config : Config} {window : Window}
    (hfollows : recognizer.Follows pattern) {edit : Edit}
    (h : recognizer.editAt config window.source window.cursor = some edit) {later : Nat}
    (hlater : IsBoundary window.source later) (hle : window.cursor ≤ later)
    (hstart : later ≤ edit.start) :
    recognizer.editAt config window.source later = some edit := by
  rw [recognizer.editAt_cursor config window] at h
  obtain ⟨found, hfound, rfl⟩ := Option.map_eq_some_iff.mp h
  obtain ⟨count, hcount, hwindow, rfl⟩ := Window.exists_advance_of_isBoundary hlater hle
  have hle' : count ≤ found.start := by
    have hmono := strictMonoOn_byteLength_take window.ahead
    rw [Match.start_edit] at hstart
    exact (hmono.le_iff_le hcount (Match.start_mem_Iic (recognizer.stop_le hfound))).mp
      (Nat.le_of_add_le_add_left hstart)
  rw [Recognizer.editAt, hwindow, hfollows.recognize_advance_of_some hfound hle', Option.map_some]
  exact congrArg some (edit_advance recognizer.name hle')

theorem Recognizer.Follows.steady {recognizer : Recognizer}
    {pattern : Config → Window → Option Hit} {config : Config}
    (hfollows : recognizer.Follows pattern)
    (hpos : ∀ window hit, pattern config window = some hit → 0 < hit.length) (window : Window) :
    Steady recognizer config window.source window.cursor := by
  have hedit := recognizer.editAt_cursor config window
  refine
    { bounds := fun edit h => ?_
      isBoundary := fun edit h => ?_
      same_later := fun edit h later hlater hle hstart =>
        hfollows.editAt_later h hlater hle hstart
      least := fun edit edit' h hboundary hle h' => ?_
      none_later := fun h later hlater hle => ?_ }
  · rw [hedit] at h
    obtain ⟨found, hfound, rfl⟩ := Option.map_eq_some_iff.mp h
    obtain ⟨_, hhit, _⟩ := hfollows.exists_of_some hfound
    refine ⟨Nat.le_add_right _ _, ?_, (isBoundary_stop_edit recognizer.name window found).le⟩
    exact (Match.start_edit_lt_stop_edit_iff (recognizer.stop_le hfound)).mpr (hpos _ _ hhit)
  · rw [hedit] at h
    obtain ⟨found, _, rfl⟩ := Option.map_eq_some_iff.mp h
    exact ⟨isBoundary_start_edit _ window found, isBoundary_stop_edit _ window found⟩
  · by_contra hearlier
    have hagain := hfollows.editAt_later h hboundary hle (Nat.le_of_not_le hearlier)
    obtain rfl := Option.some.inj (h'.symm.trans hagain)
    exact hearlier le_rfl
  · rw [hedit, Option.map_eq_none_iff] at h
    obtain ⟨count, hcount, hwindow, _⟩ := Window.exists_advance_of_isBoundary hlater hle
    rw [Recognizer.editAt, hwindow, hfollows.recognize_advance_of_none h hcount]
    rfl

/-- An edit is the hit of the pattern at its start. -/
theorem Recognizer.Follows.exists_eq_of_editAt {recognizer : Recognizer}
    {pattern : Config → Window → Option Hit} {config : Config} {text : List Char} {cursor : Nat}
    {edit : Edit} (hfollows : recognizer.Follows pattern)
    (h : recognizer.editAt config text cursor = some edit) :
    ∃ window hit, window.source = text ∧ pattern config window = some hit ∧
      edit = ⟨recognizer.name, window.cursor, (window.advance hit.length).cursor,
        hit.replacement⟩ := by
  obtain ⟨found, hfound, rfl⟩ := Option.map_eq_some_iff.mp h
  let window := Window.atByte text cursor
  obtain ⟨_, hhit, _⟩ := hfollows.exists_of_some hfound
  refine ⟨window.advance found.start, ⟨found.length, found.replacement⟩, ?_, hhit, ?_⟩
  · rw [Window.source_advance, Window.source_atByte]
  · rw [← Window.advance_add, Match.cursor_advance_start recognizer.name]
    exact Edit.ext rfl rfl (Match.cursor_advance_stop recognizer.name window found).symm rfl

theorem Recognizer.Follows.exists_of_editAt {recognizer : Recognizer}
    {pattern : Config → Window → Option Hit} {config : Config} {text : List Char} {cursor : Nat}
    {edit : Edit} (hfollows : recognizer.Follows pattern)
    (h : recognizer.editAt config text cursor = some edit) :
    ∃ window hit, window.source = text ∧ pattern config window = some hit ∧
      edit.recognizer = recognizer.name ∧ edit.start = window.cursor ∧
        edit.stop = (window.advance hit.length).cursor := by
  obtain ⟨window, hit, hsource, hhit, rfl⟩ := hfollows.exists_eq_of_editAt h
  exact ⟨window, hit, hsource, hhit, rfl, rfl, rfl⟩

/-- An edit is the hit at the first place from the cursor on that has one. -/
theorem Recognizer.Follows.editAt_eq_some_iff {recognizer : Recognizer}
    {pattern : Config → Window → Option Hit} {config : Config} {window : Window} {edit : Edit}
    (hfollows : recognizer.Follows pattern) :
    recognizer.editAt config window.source window.cursor = some edit ↔
      ∃ count ≤ window.ahead.length, ∃ hit, pattern config (window.advance count) = some hit ∧
        (∀ fewer < count, pattern config (window.advance fewer) = none) ∧
        edit = ⟨recognizer.name, (window.advance count).cursor,
          (window.advance (count + hit.length)).cursor, hit.replacement⟩ := by
  have hedit : ∀ found : Match, found.edit recognizer.name window =
      ⟨recognizer.name, (window.advance found.start).cursor, (window.advance found.stop).cursor,
        found.replacement⟩ := fun found =>
    Edit.ext rfl (Match.cursor_advance_start _ window found).symm
      (Match.cursor_advance_stop _ window found).symm rfl
  rw [recognizer.editAt_cursor, Option.map_eq_some_iff]
  constructor
  · rintro ⟨found, hfound, rfl⟩
    obtain ⟨hstart, hhit, hnone⟩ := hfollows.exists_of_some hfound
    exact ⟨found.start, hstart, _, hhit, hnone, hedit found⟩
  · rintro ⟨count, hcount, hit, hhit, hnone, rfl⟩
    exact ⟨hit.matchAt count, hfollows.recognize_of_hit hcount hhit hnone, hedit _⟩

/-! ### The four recognizers -/

def propertyPattern (config : Config) : Window → Option Hit :=
  acceptedHit findProperty (judgeProperty config)

def headerPattern (config : Config) : Window → Option Hit :=
  acceptedHit findHeader (judgeHeader config)

theorem follows_propertyRecognizer : propertyRecognizer.Follows propertyPattern :=
  follows_ofCandidates _ _ _ _

theorem follows_summaryRecognizer : summaryRecognizer.Follows fun _ => summaryPattern :=
  follows_ofPattern _ _ _

theorem follows_attributeRecognizer : attributeRecognizer.Follows fun _ => attributePattern :=
  follows_ofPattern _ _ _

theorem follows_headerRecognizer : headerRecognizer.Follows headerPattern :=
  follows_ofCandidates _ _ _ _

theorem length_pos_of_propertyPattern {config : Config} {window : Window} {hit : Hit}
    (h : propertyPattern config window = some hit) : 0 < hit.length := by
  obtain ⟨property, hproperty, h⟩ := Option.bind_eq_some_iff.mp h
  rw [judgeProperty] at h
  split at h
  · simp at h
  · obtain ⟨type, _, rfl⟩ := Option.map_eq_some_iff.mp h
    exact Nat.sub_pos_of_lt (length_lt_of_uncommented (uncommented_of_readProperty? hproperty))

theorem length_pos_of_summaryPattern {window : Window} {hit : Hit}
    (h : summaryPattern window = some hit) : 0 < hit.length := by
  obtain ⟨⟨lines, rest⟩, hsummary, h⟩ := Option.bind_eq_some_iff.mp h
  obtain rfl := Option.some.inj h
  exact Nat.sub_pos_of_lt (length_lt_of_readSummary? hsummary)

theorem length_pos_of_attributePattern {window : Window} {hit : Hit}
    (h : attributePattern window = some hit) : 0 < hit.length := by
  rw [attributePattern] at h
  split at h
  · obtain ⟨rest, hline, rfl⟩ := Option.map_eq_some_iff.mp h
    exact Nat.sub_pos_of_lt (length_lt_of_uncommented (uncommented_of_readAttributeLine? hline))
  · simp at h

theorem length_pos_of_headerPattern {config : Config} {window : Window} {hit : Hit}
    (h : headerPattern config window = some hit) : 0 < hit.length := by
  obtain ⟨header, hheader, h⟩ := Option.bind_eq_some_iff.mp h
  rw [findHeader] at hheader
  rw [judgeHeader] at h
  split at hheader
  · simp at hheader
  · split at h
    · simp at h
    · obtain rfl := Option.some.inj h
      exact Nat.sub_pos_of_lt (length_lt_of_uncommented (uncommented_of_readHeader? hheader))

theorem nodup_names_builtinRecognizers : (builtinRecognizers.map Recognizer.name).Nodup := by
  decide

/-- **The built-in recognizers are steady** at every boundary of every text, under all settings. -/
theorem steady_of_mem_builtinRecognizers {recognizer : Recognizer}
    (hmem : recognizer ∈ builtinRecognizers) (config : Config) (source : String) {cursor : Nat}
    (hcursor : IsBoundary source.toList cursor) :
    Steady recognizer config source.toList cursor := by
  obtain ⟨front, rest, htext, rfl⟩ := hcursor.exists_append
  have hsource : Window.source ⟨front.reverse, rest⟩ = source.toList := by
    rw [Window.source, List.reverse_reverse, htext]
  have hposition : Window.cursor ⟨front.reverse, rest⟩ = byteLength front := by
    rw [Window.cursor, byteLength_reverse]
  rw [← hsource, ← hposition]
  simp only [builtinRecognizers, List.mem_cons, List.not_mem_nil, or_false] at hmem
  rcases hmem with rfl | rfl | rfl | rfl
  · exact follows_propertyRecognizer.steady (fun _ _ => length_pos_of_propertyPattern) _
  · exact follows_summaryRecognizer.steady (fun _ _ => length_pos_of_summaryPattern) _
  · exact follows_attributeRecognizer.steady (fun _ _ => length_pos_of_attributePattern) _
  · exact follows_headerRecognizer.steady (fun _ _ => length_pos_of_headerPattern) _

theorem steady_propertyRecognizer_in_line_comment :
    propertyRecognizer ∈ builtinRecognizers ∧
      IsBoundary "//é int A => 1;\nint B => 2;".toList 4 ∧
      Steady propertyRecognizer {} "//é int A => 1;\nint B => 2;".toList 4 := by
  have hmem : propertyRecognizer ∈ builtinRecognizers := List.mem_cons_self
  have htext : "//é int A => 1;\nint B => 2;".toList =
      "//é".toList ++ " int A => 1;\nint B => 2;".toList := by decide
  have hplace : byteLength "//é".toList = 4 := by decide
  have hcursor : IsBoundary "//é int A => 1;\nint B => 2;".toList 4 := by
    rw [htext, ← hplace]
    exact isBoundary_byteLength _ _
  exact ⟨hmem, hcursor, steady_of_mem_builtinRecognizers hmem {} _ hcursor⟩

end Scan

end TypeScribe
