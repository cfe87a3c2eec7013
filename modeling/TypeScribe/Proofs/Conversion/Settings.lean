import Mathlib.Data.List.Forall2
import Mathlib.Data.List.Nodup
import TypeScribe.Proofs.Scan.Steadiness

/-!
# Settings and recognition

Settings spell names. What is recognized, and where, does not depend on them: two runs over one source
under different settings make the same steps, each of the same recognizer on the same text, and keep
the same text between them. What is put in differs only where a name is spelled, so for properties and
headers, but not for summaries and attributes.
-/

namespace TypeScribe

open Text Scan

/-- The two steps take the same text at the same place. -/
structure Step.Agrees (step step' : Step) : Prop where
  recognizer_eq : step.recognizer = step'.recognizer
  before_eq : step.before = step'.before
  taken_eq : step.taken = step'.taken
  replacement_eq : step.recognizer ∈ ["doc-summary", "attribute"] →
    step.replacement = step'.replacement

/-- The two conversions recognize the same, and keep the same text. -/
structure SameRecognition (conversion conversion' : Conversion) : Prop where
  agrees : List.Forall₂ Step.Agrees conversion.steps conversion'.steps
  tail_eq : conversion.tail = conversion'.tail
  spans_eq : conversion.spans = conversion'.spans
  counts_eq : conversion.counts = conversion'.counts
  takenBytes_eq : conversion.takenBytes = conversion'.takenBytes
  /-- The outputs differ in nothing but the replacements. -/
  output_eq : conversion.steps.map Step.replacement = conversion'.steps.map Step.replacement →
    conversion.output = conversion'.output

/-! ### Steps that agree -/

section Agrees

variable {steps steps' : List Step} (h : List.Forall₂ Step.Agrees steps steps')

include h

theorem spansFrom_eq_of_agrees (offset : Nat) :
    Conversion.spansFrom offset steps = Conversion.spansFrom offset steps' := by
  induction h generalizing offset with
  | nil => rfl
  | cons hstep _ ih =>
      rw [Conversion.spansFrom, Conversion.spansFrom, hstep.recognizer_eq, hstep.before_eq,
        hstep.taken_eq, ih]

theorem map_eq_of_agrees {α : Type} {view : Step → α}
    (hview : ∀ step step', step.Agrees step' → view step = view step') :
    steps.map view = steps'.map view := by
  induction h with
  | nil => rfl
  | cons hstep _ ih => rw [List.map_cons, List.map_cons, hview _ _ hstep, ih]

theorem flatMap_eq_of_agrees
    (hreplacements : steps.map Step.replacement = steps'.map Step.replacement) :
    (steps.flatMap fun step => step.before ++ step.replacement) =
      steps'.flatMap fun step => step.before ++ step.replacement := by
  induction h with
  | nil => rfl
  | cons hstep _ ih =>
      obtain ⟨hhead, htail⟩ := List.cons.inj hreplacements
      rw [List.flatMap_cons, List.flatMap_cons, hstep.before_eq, hhead, ih htail]

end Agrees

theorem sameRecognition_of_agrees {conversion conversion' : Conversion}
    (hsteps : List.Forall₂ Step.Agrees conversion.steps conversion'.steps)
    (htail : conversion.tail = conversion'.tail) : SameRecognition conversion conversion' := by
  have hnames : conversion.steps.map Step.recognizer = conversion'.steps.map Step.recognizer :=
    map_eq_of_agrees hsteps fun _ _ hstep => hstep.recognizer_eq
  have htaken : conversion.steps.map Step.taken = conversion'.steps.map Step.taken :=
    map_eq_of_agrees hsteps fun _ _ hstep => hstep.taken_eq
  refine
    { agrees := hsteps
      tail_eq := htail
      spans_eq := spansFrom_eq_of_agrees hsteps 0
      counts_eq := ?_
      takenBytes_eq := ?_
      output_eq := fun hreplacements => ?_ }
  · have hcounts : ∀ steps : List Step,
        steps.foldr (fun step => Conversion.countOne step.recognizer) [] =
          (steps.map Step.recognizer).foldr Conversion.countOne [] := by
      intro steps
      rw [List.foldr_map]
    rw [Conversion.counts, Conversion.counts, hcounts, hcounts, hnames]
  · have hbytes : ∀ steps : List Step,
        steps.foldr (fun step bytes => byteLength step.taken + bytes) 0 =
          (steps.map Step.taken).foldr (fun taken bytes => byteLength taken + bytes) 0 := by
      intro steps
      rw [List.foldr_map]
    rw [Conversion.takenBytes, Conversion.takenBytes, hbytes, hbytes, htaken]
  · rw [Conversion.output, Conversion.output, flatMap_eq_of_agrees hsteps hreplacements, htail]

/-! ### What a recognizer reports under different settings -/

namespace Scan

/-- Where the match stands. -/
def Match.extent (found : Match) : Nat × Nat := (found.start, found.length)

/-- Where the recognizer reports a match does not depend on the settings. -/
def Recognizer.Settled (recognizer : Recognizer) : Prop :=
  ∀ config config' window, (recognizer.recognize config window).map Match.extent =
    (recognizer.recognize config' window).map Match.extent

theorem map_firstFound {α β : Type} (find : Window → Option α) (view : α → β) (skipped : Nat)
    (behind ahead : List Char) :
    (firstFound find skipped behind ahead).map (fun (place, found) => (place, view found)) =
      firstFound (fun window => (find window).map view) skipped behind ahead := by
  induction ahead generalizing skipped behind with
  | nil =>
      rw [firstFound, firstFound, Option.map_map, Option.map_map]
      rfl
  | cons c rest ih =>
      rw [firstFound, firstFound]
      cases find ⟨behind, c :: rest⟩ with
      | none => exact ih _ _
      | some found => rfl

theorem Recognizer.Follows.settled {recognizer : Recognizer}
    {pattern : Config → Window → Option Hit} (hfollows : recognizer.Follows pattern)
    (hpattern : ∀ config config' window,
      (pattern config window).map Hit.length = (pattern config' window).map Hit.length) :
    recognizer.Settled := by
  have hextent : ∀ config window, (recognizer.recognize config window).map Match.extent =
      firstFound (fun window => (pattern config window).map Hit.length) 0 window.behind
        window.ahead := by
    intro config window
    rw [hfollows, ← map_firstFound, Option.map_map]
    rfl
  intro config config' window
  rw [hextent, hextent]
  congr 1
  funext window
  exact hpattern config config' window

theorem map_length_propertyPattern (config config' : Config) (window : Window) :
    (propertyPattern config window).map Hit.length =
      (propertyPattern config' window).map Hit.length := by
  rw [propertyPattern, propertyPattern, acceptedHit, acceptedHit]
  cases findProperty window with
  | none => rfl
  | some property =>
      rw [Option.bind_some, Option.bind_some, judgeProperty, judgeProperty]
      cases window.inLineComment with
      | true => rfl
      | false =>
          simp only [Bool.false_eq_true, if_false, Option.map_map]
          rfl

theorem map_length_headerPattern (config config' : Config) (window : Window) :
    (headerPattern config window).map Hit.length =
      (headerPattern config' window).map Hit.length := by
  rw [headerPattern, headerPattern, acceptedHit, acceptedHit]
  cases findHeader window with
  | none => rfl
  | some header =>
      rw [Option.bind_some, Option.bind_some, judgeHeader, judgeHeader]
      cases window.inLineComment <;> rfl

theorem settled_of_mem_builtinRecognizers {recognizer : Recognizer}
    (hmem : recognizer ∈ builtinRecognizers) : recognizer.Settled := by
  simp only [builtinRecognizers, List.mem_cons, List.not_mem_nil, or_false] at hmem
  rcases hmem with rfl | rfl | rfl | rfl
  · exact follows_propertyRecognizer.settled map_length_propertyPattern
  · exact follows_summaryRecognizer.settled fun _ _ _ => rfl
  · exact follows_attributeRecognizer.settled fun _ _ _ => rfl
  · exact follows_headerRecognizer.settled map_length_headerPattern

end Scan

/-! ### One step under different settings -/

section Step

variable {recognizers : List Recognizer} {config config' : Config} {window : Window}

theorem Scan.Recognizer.Settled.map_applicable? {recognizer : Recognizer}
    (h : recognizer.Settled) :
    (applicable? config window recognizer).map Match.extent =
      (applicable? config' window recognizer).map Match.extent := by
  have hfilter : ∀ config, (applicable? config window recognizer).map Match.extent =
      ((recognizer.recognize config window).map Match.extent).filter fun extent =>
        0 < extent.2 := by
    intro config
    rw [applicable?, Option.filter_map]
    rfl
  rw [hfilter, hfilter, h config config' window]

theorem map_nextMatch? (h : ∀ recognizer ∈ recognizers, recognizer.Settled) :
    (nextMatch? config window recognizers).map (Prod.map id Match.extent) =
      (nextMatch? config' window recognizers).map (Prod.map id Match.extent) := by
  induction recognizers with
  | nil => rfl
  | cons recognizer recognizers ih =>
      have hhead : (applicable? config window recognizer).map Match.extent =
          (applicable? config' window recognizer).map Match.extent :=
        (h recognizer List.mem_cons_self).map_applicable?
      have hrest := ih fun other hother => h other (List.mem_cons_of_mem recognizer hother)
      rw [nextMatch?, nextMatch?]
      cases happlicable : applicable? config window recognizer with
      | none =>
          rw [happlicable, Option.map_none, eq_comm, Option.map_eq_none_iff] at hhead
          rw [hhead]
          exact hrest
      | some found =>
          rw [happlicable, Option.map_some, eq_comm, Option.map_eq_some_iff] at hhead
          obtain ⟨found', happlicable', hextent⟩ := hhead
          obtain ⟨hstart, -⟩ := Prod.mk.inj hextent
          rw [happlicable']
          cases hnext : nextMatch? config window recognizers with
          | none =>
              rw [hnext, Option.map_none, eq_comm, Option.map_eq_none_iff] at hrest
              rw [hrest]
              simp [hextent]
          | some other =>
              rw [hnext, Option.map_some, eq_comm, Option.map_eq_some_iff] at hrest
              obtain ⟨other', hnext', hother⟩ := hrest
              obtain ⟨hname, hextent'⟩ := Prod.mk.inj hother
              obtain ⟨hstart', -⟩ := Prod.mk.inj hextent'
              rw [hnext']
              dsimp only
              rw [hstart, hstart']
              split
              · exact congrArg some hother.symm
              · simp [hextent]

/-- A match that is applied under one of the settings is applied under the other as well, perhaps with
another replacement. -/
theorem exists_of_nextMatch?_of_settled (h : ∀ recognizer ∈ recognizers, recognizer.Settled)
    {name : String} {found : Match}
    (hnext : nextMatch? config window recognizers = some (name, found)) :
    ∃ found', nextMatch? config' window recognizers = some (name, found') ∧
      found'.start = found.start ∧ found'.length = found.length := by
  have hmap := @map_nextMatch? recognizers config config' window h
  rw [hnext, Option.map_some, eq_comm, Option.map_eq_some_iff] at hmap
  obtain ⟨⟨name', found'⟩, hnext', heq⟩ := hmap
  obtain ⟨rfl, hextent⟩ := Prod.mk.inj heq
  obtain ⟨hstart, hlength⟩ := Prod.mk.inj hextent
  exact ⟨found', hnext', hstart, hlength⟩

/-- The matches of summaries and attributes do not depend on the settings at all. -/
theorem applicable?_eq_of_plain {recognizer : Recognizer}
    (hmem : recognizer ∈ builtinRecognizers)
    (hplain : recognizer.name ∈ ["doc-summary", "attribute"]) :
    applicable? config window recognizer = applicable? config' window recognizer := by
  simp only [builtinRecognizers, List.mem_cons, List.not_mem_nil, or_false] at hmem
  rcases hmem with rfl | rfl | rfl | rfl
  · exact absurd hplain (by decide)
  · rfl
  · rfl
  · exact absurd hplain (by decide)

theorem agrees_of_nextMatch? {name : String} {found found' : Match}
    (h : nextMatch? config window builtinRecognizers = some (name, found))
    (h' : nextMatch? config' window builtinRecognizers = some (name, found'))
    (hstart : found'.start = found.start) (hlength : found'.length = found.length) :
    (found.step name window).Agrees (found'.step name window) := by
  refine ⟨rfl, ?_, ?_, fun hplain => ?_⟩
  · rw [Match.step, Match.step, hstart]
  · rw [Match.step, Match.step, hstart, hlength]
  · obtain ⟨recognizer, hmem, hname, happlicable⟩ := exists_of_nextMatch? h
    obtain ⟨recognizer', hmem', hname', happlicable'⟩ := exists_of_nextMatch? h'
    obtain rfl := List.inj_on_of_nodup_map nodup_names_builtinRecognizers hmem hmem'
      (hname.trans hname'.symm)
    have hsame := @applicable?_eq_of_plain config config' window _ hmem (hname ▸ hplain)
    rw [happlicable, happlicable'] at hsame
    exact congrArg Match.replacement (Option.some.inj hsame)

end Step

/-! ### Runs -/

theorem agrees_convertWindow (config config' : Config) (window : Window) :
    List.Forall₂ Step.Agrees (convertWindow builtinRecognizers config window).steps
        (convertWindow builtinRecognizers config' window).steps ∧
      (convertWindow builtinRecognizers config window).tail =
        (convertWindow builtinRecognizers config' window).tail := by
  have hsettled : ∀ recognizer ∈ builtinRecognizers, recognizer.Settled :=
    fun _ => settled_of_mem_builtinRecognizers
  induction window using convertWindow.induct builtinRecognizers config with
  | case1 window hnone =>
      have hmap := @map_nextMatch? _ config config' window hsettled
      rw [hnone, Option.map_none, eq_comm, Option.map_eq_none_iff] at hmap
      rw [convertWindow_of_none hnone, convertWindow_of_none hmap]
      exact ⟨.nil, rfl⟩
  | case2 window name found hsome ih =>
      obtain ⟨found', hsome', hstart, hlength⟩ :=
        @exists_of_nextMatch?_of_settled _ config config' window hsettled _ _ hsome
      have hstop : found'.stop = found.stop := by
        rw [Match.stop, Match.stop, hstart, hlength]
      rw [convertWindow_of_some hsome, convertWindow_of_some hsome', hstop]
      exact ⟨.cons (agrees_of_nextMatch? hsome hsome' hstart hlength) ih.1, ih.2⟩

/-- **Settings never change what is recognized**: under any two settings a source is cut in the same
way. -/
theorem sameRecognition_convertWith (config config' : Config) (source : String) :
    SameRecognition (convertWith builtinRecognizers config source)
      (convertWith builtinRecognizers config' source) := by
  obtain ⟨hsteps, htail⟩ := agrees_convertWindow config config' (.ofText source.toList)
  exact sameRecognition_of_agrees hsteps htail

end TypeScribe
