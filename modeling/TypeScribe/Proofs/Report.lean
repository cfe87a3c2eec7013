import TypeScribe.Proofs.Conversion.Splice
import TypeScribe.Report

/-!
# The summary of a conversion

A summary no longer knows the edits of the run, only how many each recognizer made and how many bytes
they took. It adds up: every edit is counted once, under its recognizer, and what the edits took and
put in makes up the difference between source and output. That no more is taken than the source has
rests on the edits standing one behind the other.
-/

namespace TypeScribe

open Text Scan

namespace Text

theorem byteLength_toList (text : String) : byteLength text.toList = text.utf8ByteSize := by
  have hofList : ∀ chars : List Char, byteLength chars = (String.ofList chars).utf8ByteSize := by
    intro chars
    induction chars with
    | nil => rfl
    | cons c chars ih =>
        rw [String.ofList_cons, String.utf8ByteSize_append, String.utf8ByteSize_singleton,
          byteLength_cons, ih]
  rw [hofList, String.ofList_toList]

end Text

/-! ### Counting names

The table is built from the last name to the first. It lists each name once, in order, so that a name
that belongs before an entry is none of the names behind it. -/

/-- The table has an entry for each name at most, sorted by name. -/
def SortedByName (counts : List (String × Nat)) : Prop :=
  counts.Pairwise fun entry entry' => entry.1 < entry'.1

section Counts

open Conversion

variable {counts : List (String × Nat)} {name : String}

theorem lookup_eq_none_of_lt (h : ∀ entry ∈ counts, name < entry.1) :
    counts.lookup name = none := by
  rw [List.lookup_eq_none_iff]
  intro entry hentry
  have hlt := h entry hentry
  simp only [bne_iff_ne]
  rintro rfl
  exact String.lt_irrefl _ hlt

theorem mem_fst_countOne {entry : String × Nat} (h : entry ∈ countOne name counts) :
    entry.1 = name ∨ entry.1 ∈ counts.map Prod.fst := by
  induction counts with
  | nil =>
      obtain rfl : entry = (name, 1) := by simpa [countOne] using h
      exact .inl rfl
  | cons first counts ih =>
      obtain ⟨other, count⟩ := first
      rw [countOne] at h
      rw [List.map_cons, List.mem_cons]
      split at h
      · rcases List.mem_cons.mp h with rfl | hmem
        · exact .inr (.inl rfl)
        · exact .inr (.inr (List.mem_map_of_mem hmem))
      · split at h
        · rcases List.mem_cons.mp h with rfl | hmem
          · exact .inl rfl
          · rw [← List.mem_cons, ← List.map_cons]
            exact .inr (List.mem_map_of_mem hmem)
        · rcases List.mem_cons.mp h with rfl | hmem
          · exact .inr (.inl rfl)
          · exact (ih hmem).imp id .inr

theorem sortedByName_countOne (h : SortedByName counts) : SortedByName (countOne name counts) := by
  induction counts with
  | nil => exact List.pairwise_singleton _ _
  | cons first counts ih =>
      obtain ⟨other, count⟩ := first
      obtain ⟨hfirst, hrest⟩ := List.pairwise_cons.mp h
      rw [countOne]
      split
      · exact List.pairwise_cons.mpr ⟨hfirst, hrest⟩
      · next hne =>
          split
          · next hlt =>
              refine List.pairwise_cons.mpr ⟨fun entry hentry => ?_, h⟩
              rcases List.mem_cons.mp hentry with rfl | hentry
              · exact hlt
              · exact String.lt_trans hlt (hfirst entry hentry)
          · next hle =>
              refine List.pairwise_cons.mpr ⟨fun entry hentry => ?_, ih hrest⟩
              rcases mem_fst_countOne hentry with hname | hmem
              · change other < entry.1
                rw [hname]
                exact Std.lt_of_le_of_ne (String.not_lt.mp hle) (Ne.symm hne)
              · obtain ⟨entry', hentry', hname⟩ := List.mem_map.mp hmem
                rw [← hname]
                exact hfirst entry' hentry'

theorem lookup_cons_of_ne {other : String} (h : other ≠ name) (count : Nat) :
    ((name, count) :: counts).lookup other = counts.lookup other := by
  rw [List.lookup_cons, beq_eq_false_iff_ne.mpr h]

theorem lookup_countOne (h : SortedByName counts) (other : String) :
    (countOne name counts).lookup other =
      if other = name then some ((counts.lookup name).getD 0 + 1) else counts.lookup other := by
  induction counts with
  | nil =>
      by_cases hother : other = name
      · rw [countOne, if_pos hother, hother, List.lookup_cons_self]
        rfl
      · rw [countOne, if_neg hother, lookup_cons_of_ne hother]
  | cons entry counts ih =>
      obtain ⟨first, count⟩ := entry
      obtain ⟨hfirst, hrest⟩ := List.pairwise_cons.mp h
      by_cases hname : name = first
      · subst hname
        by_cases hother : other = name
        · rw [countOne, if_pos rfl, if_pos hother, hother, List.lookup_cons_self,
            List.lookup_cons_self, Option.getD_some]
        · rw [countOne, if_pos rfl, if_neg hother, lookup_cons_of_ne hother,
            lookup_cons_of_ne hother]
      · rw [countOne, if_neg hname, lookup_cons_of_ne hname]
        by_cases hlt : name < first
        · have hnone : counts.lookup name = none :=
            lookup_eq_none_of_lt fun entry hentry => String.lt_trans hlt (hfirst entry hentry)
          by_cases hother : other = name
          · rw [if_pos hlt, if_pos hother, hother, List.lookup_cons_self, hnone, Option.getD_none]
          · rw [if_pos hlt, if_neg hother, lookup_cons_of_ne hother]
        · rw [if_neg hlt]
          by_cases hother : other = first
          · have hne : other ≠ name := fun h => hname (h.symm.trans hother)
            rw [hother, List.lookup_cons_self, List.lookup_cons_self, if_neg (hother ▸ hne)]
          · rw [lookup_cons_of_ne hother, lookup_cons_of_ne hother, ih hrest]

theorem total_countOne (name : String) (counts : List (String × Nat)) :
    (countOne name counts).foldr (fun (_, count) total => count + total) 0 =
      counts.foldr (fun (_, count) total => count + total) 0 + 1 := by
  induction counts with
  | nil => rfl
  | cons first counts ih =>
      obtain ⟨other, count⟩ := first
      rw [countOne]
      split
      · simp only [List.foldr_cons]
        omega
      · split
        · simp only [List.foldr_cons]
          omega
        · simp only [List.foldr_cons, ih]
          omega

end Counts

section Names

open Conversion

variable (names : List String)

theorem sortedByName_foldr_countOne : SortedByName (names.foldr countOne []) := by
  induction names with
  | nil => exact List.Pairwise.nil
  | cons name names ih => exact sortedByName_countOne ih

theorem lookup_foldr_countOne (name : String) : (names.foldr countOne []).lookup name =
    if name ∈ names then some (names.count name) else none := by
  induction names with
  | nil => rfl
  | cons first names ih =>
      rw [List.foldr_cons, lookup_countOne (sortedByName_foldr_countOne names)]
      by_cases hname : name = first
      · subst hname
        by_cases hmem : name ∈ names
        · simp [ih, hmem]
        · simp [ih, hmem, List.count_eq_zero_of_not_mem hmem]
      · have hcount : (first :: names).count name = names.count name :=
          List.count_cons_of_ne (Ne.symm hname)
        rw [if_neg hname, ih, hcount]
        simp [hname]

theorem lookup_foldr_countOne_eq_some_iff {name : String} {count : Nat} :
    (names.foldr countOne []).lookup name = some count ↔
      name ∈ names ∧ count = names.count name := by
  rw [lookup_foldr_countOne]
  split
  · next hmem => simp [hmem, eq_comm]
  · next hmem => simp [hmem]

theorem total_foldr_countOne :
    (names.foldr countOne []).foldr (fun (_, count) total => count + total) 0 = names.length := by
  induction names with
  | nil => rfl
  | cons name names ih => rw [List.foldr_cons, total_countOne, ih, List.length_cons]

theorem foldr_countOne_eq_nil_iff : names.foldr countOne [] = [] ↔ names = [] := by
  constructor
  · intro h
    have hlength := total_foldr_countOne names
    rw [h] at hlength
    exact List.length_eq_zero_iff.mp hlength.symm
  · rintro rfl
    rfl

end Names

/-! ### What the edits take and put in -/

/-- How many bytes of the source the edit takes. -/
def Edit.length (edit : Edit) : Nat := edit.stop - edit.start

theorem map_editsFrom {α : Type} {view : Edit → α} (view' : Step → α)
    (h : ∀ (step : Step) (start : Nat), view ⟨step.recognizer, start,
      start + byteLength step.taken, step.replacement⟩ = view' step)
    (offset : Nat) (steps : List Step) :
    (Conversion.editsFrom offset steps).map view = steps.map view' := by
  induction steps generalizing offset with
  | nil => rfl
  | cons step steps ih => rw [Conversion.editsFrom, List.map_cons, List.map_cons, h, ih]

namespace Conversion

variable (conversion : Conversion)

/-- The bytes that the replacements have together. -/
def putBytes : Nat :=
  (conversion.edits.map fun edit => byteLength edit.replacement).foldr (· + ·) 0

theorem counts_eq_foldr :
    conversion.counts = (conversion.edits.map Edit.recognizer).foldr countOne [] := by
  rw [edits, map_editsFrom Step.recognizer fun _ _ => rfl, List.foldr_map, counts]

theorem takenBytes_eq_foldr :
    conversion.takenBytes = (conversion.edits.map Edit.length).foldr (· + ·) 0 := by
  have hlength : ∀ (step : Step) (start : Nat),
      Edit.length ⟨step.recognizer, start, start + byteLength step.taken, step.replacement⟩ =
        byteLength step.taken := fun _ _ => Nat.add_sub_cancel_left _ _
  rw [edits, map_editsFrom _ hlength, List.foldr_map, takenBytes]

theorem putBytes_eq_foldr : conversion.putBytes =
    conversion.steps.foldr (fun step bytes => byteLength step.replacement + bytes) 0 := by
  rw [putBytes, edits, map_editsFrom (fun step => byteLength step.replacement) fun _ _ => rfl,
    List.foldr_map]

/-- What stays has the same bytes on both sides. -/
theorem byteLength_output_add_takenBytes : byteLength conversion.output + conversion.takenBytes =
    byteLength conversion.source + conversion.putBytes := by
  rw [putBytes_eq_foldr, output, source, takenBytes]
  induction conversion.steps with
  | nil => rfl
  | cons step steps ih =>
      simp only [List.flatMap_cons, List.append_assoc, byteLength_append, List.foldr_cons] at ih ⊢
      omega

theorem output_eq_source_of_edits_eq_nil (h : conversion.edits = []) :
    conversion.output = conversion.source := by
  rw [output, source]
  cases hsteps : conversion.steps with
  | nil => rfl
  | cons step steps => simp [edits, hsteps, editsFrom] at h

end Conversion

/-- Edits that are in order take something each, and no more than lies before the limit. -/
theorem InOrder.length_le_and_add_le {limit cursor : Nat} {edits : List Edit}
    (h : InOrder limit cursor edits) :
    edits.length ≤ (edits.map Edit.length).foldr (· + ·) 0 ∧
      cursor + (edits.map Edit.length).foldr (· + ·) 0 ≤ limit := by
  induction edits generalizing cursor with
  | nil => exact ⟨le_rfl, h⟩
  | cons edit edits ih =>
      obtain ⟨hstart, hstop, hrest⟩ := h
      obtain ⟨hlength, hlimit⟩ := ih hrest
      simp only [List.map_cons, List.foldr_cons, List.length_cons, Edit.length] at hlength hlimit ⊢
      omega

theorem source_convertWindow (recognizers : List Recognizer) (config : Config) (window : Window) :
    (convertWindow recognizers config window).source = window.ahead := by
  induction window using convertWindow.induct recognizers config with
  | case1 window hnone =>
      rw [convertWindow_of_none hnone]
      rfl
  | case2 window name found hsome ih =>
      have hsplit : (convertWindow recognizers config window).source =
          window.ahead.take found.start ++ (window.ahead.drop found.start).take found.length ++
            (convertWindow recognizers config (window.advance found.stop)).source := by
        rw [convertWindow_of_some hsome]
        simp [Conversion.source, Match.step]
      rw [hsplit, ih, ← List.take_add]
      exact List.take_append_drop _ _

section ConvertWith

variable (config : Config) (source : String)

theorem source_convertWith :
    (convertWith builtinRecognizers config source).source = source.toList :=
  source_convertWindow builtinRecognizers config (.ofText source.toList)

theorem utf8ByteSize_output_add_takenBytes :
    (String.ofList (convertWith builtinRecognizers config source).output).utf8ByteSize +
        (convertWith builtinRecognizers config source).takenBytes =
      source.utf8ByteSize + (convertWith builtinRecognizers config source).putBytes := by
  rw [← byteLength_toList, String.toList_ofList, Conversion.byteLength_output_add_takenBytes,
    source_convertWith, byteLength_toList]

theorem length_edits_le_and_takenBytes_le :
    (convertWith builtinRecognizers config source).edits.length ≤
        (convertWith builtinRecognizers config source).takenBytes ∧
      (convertWith builtinRecognizers config source).takenBytes ≤ source.utf8ByteSize := by
  have hinOrder : InOrder (byteLength source.toList) 0
      (convertWith builtinRecognizers config source).edits :=
    inOrder_runEdits builtinRecognizers config (.ofText source.toList)
  obtain ⟨hlength, hlimit⟩ := hinOrder.length_le_and_add_le
  rw [Nat.zero_add, byteLength_toList] at hlimit
  rw [Conversion.takenBytes_eq_foldr]
  exact ⟨hlength, hlimit⟩

end ConvertWith

/-! ### The summary -/

namespace Report

/-- The summary tells of the source and of the edits that the run made in it. -/
structure Summary.AddsUp (summary : Summary) (input source : String) (edits : List Edit) : Prop where
  sorted : SortedByName summary.counts
  lookup_counts : ∀ name count, summary.counts.lookup name = some count ↔
    (∃ edit ∈ edits, edit.recognizer = name) ∧ count = (edits.map Edit.recognizer).count name
  counts_pos : ∀ name count, summary.counts.lookup name = some count → 0 < count
  total_eq : summary.total = edits.length
  sourceBytes_eq : summary.sourceBytes = source.utf8ByteSize
  takenBytes_eq : summary.takenBytes = (edits.map Edit.length).foldr (· + ·) 0
  total_le : summary.total ≤ summary.takenBytes
  takenBytes_le : summary.takenBytes ≤ summary.sourceBytes
  output_eq : summary.output.utf8ByteSize = summary.sourceBytes - summary.takenBytes +
    (edits.map fun edit => byteLength edit.replacement).foldr (· + ·) 0
  lines_eq_iff : summary.lines = [.warning ("nothing to convert in " ++ input)] ↔ edits = []
  output_of_nil : edits = [] → summary.output = source

theorem Summary.lines_eq_warning_iff (summary : Summary) :
    summary.lines = [.warning ("nothing to convert in " ++ summary.input)] ↔
      summary.counts = [] := by
  rw [Summary.lines]
  by_cases hcounts : summary.counts = []
  · simp [hcounts]
  · simp [hcounts]

/-- **The summary of a conversion adds up**, whatever the source and the settings. -/
theorem addsUp_ofSource (config : Config) (input source : String) :
    (Summary.ofSource config input source).AddsUp input source
      (convertWith builtinRecognizers config source).edits := by
  let summary := Summary.ofSource config input source
  let conversion := convertWith builtinRecognizers config source
  let names := conversion.edits.map Edit.recognizer
  have hcounts : summary.counts = names.foldr Conversion.countOne [] := conversion.counts_eq_foldr
  have htotal : summary.total = conversion.edits.length := by
    rw [Summary.total, hcounts, total_foldr_countOne, List.length_map]
  have hbytes : summary.sourceBytes = source.utf8ByteSize := byteLength_toList source
  obtain ⟨hlength, hlimit⟩ := length_edits_le_and_takenBytes_le config source
  have hsize : summary.output.utf8ByteSize + summary.takenBytes =
      source.utf8ByteSize + conversion.putBytes := utf8ByteSize_output_add_takenBytes config source
  refine
    { sorted := hcounts ▸ sortedByName_foldr_countOne names
      lookup_counts := fun name count => ?_
      counts_pos := fun name count hcount => ?_
      total_eq := htotal
      sourceBytes_eq := hbytes
      takenBytes_eq := conversion.takenBytes_eq_foldr
      total_le := htotal ▸ hlength
      takenBytes_le := hbytes ▸ hlimit
      output_eq := ?_
      lines_eq_iff := ?_
      output_of_nil := fun hnil => ?_ }
  · rw [hcounts, lookup_foldr_countOne_eq_some_iff, List.mem_map]
  · rw [hcounts, lookup_foldr_countOne_eq_some_iff] at hcount
    obtain ⟨hmem, rfl⟩ := hcount
    exact List.count_pos_iff.mpr hmem
  · change summary.output.utf8ByteSize = summary.sourceBytes - summary.takenBytes +
      conversion.putBytes
    change summary.takenBytes ≤ _ at hlimit
    omega
  · have hwarning := summary.lines_eq_warning_iff
    rwa [hcounts, foldr_countOne_eq_nil_iff, List.map_eq_nil_iff] at hwarning
  · have hkept :=
      (conversion.output_eq_source_of_edits_eq_nil hnil).trans (source_convertWith config source)
    exact (congrArg String.ofList hkept).trans String.ofList_toList

end Report

end TypeScribe
