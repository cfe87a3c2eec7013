import TypeScribe.Proofs.Conversion.Edit
import TypeScribe.Proofs.Scan.Steadiness
import TypeScribe.Proofs.Settings.Postfixes
import TypeScribe.Proofs.TsType.Absence

/-!
# Settings that spell alike

Settings enter a conversion where a name is trimmed and where a property begins, and nowhere else. So
settings that trim every name in the same way and agree on how properties begin make the same of every
type and of every source, as any settings and their effective postfixes do.
-/

namespace TypeScribe

open Scan TypeExpr TsType

/-- Nothing that is made with the settings tells one from the other. -/
structure SameEffect (config config' : Config) : Prop where
  convertText_eq : ∀ source, convertText config source = convertText config' source
  trim_eq : ∀ name, config.trimmer.trim name = config'.trimmer.trim name
  propertyName_eq : ∀ name, propertyName config name = propertyName config' name
  emit_eq : ∀ type : TypeExpr, type.emit config.trimmer = type.emit config'.trimmer

/-- The settings agree on the spelling of every name. -/
structure SpellAlike (config config' : Config) : Prop where
  propertiesToCamelCase_eq : config.propertiesToCamelCase = config'.propertiesToCamelCase
  trimChars_eq : ∀ name, config.trimmer.trimChars name = config'.trimmer.trimChars name

/-! ### Types -/

section Types

variable {trimmer trimmer' : Trimmer} (h : ∀ name, trimmer.trim name = trimmer'.trim name)

include h

theorem typeName_eq_of_trim_eq (name : String) : typeName trimmer name = typeName trimmer' name := by
  rw [typeName, typeName, h name]

theorem ofTypeExpr_eq_of_trim_eq (type : TypeExpr) (marked : Bool) :
    ofTypeExpr trimmer marked type = ofTypeExpr trimmer' marked type := by
  induction type using TypeExpr.induction generalizing marked with
  | mk name arguments rank isNullable ih =>
      cases hcontainer : Container.ofName? name arguments.length with
      | some container =>
          have harity := Container.arity_of_ofName? hcontainer
          cases container with
          | sequence =>
              obtain ⟨element, rfl⟩ := List.length_eq_one_iff.mp harity
              rw [ofTypeExpr_sequence hcontainer, ofTypeExpr_sequence hcontainer,
                ih element (by simp)]
          | dictionary =>
              obtain ⟨key, value, rfl⟩ := List.length_eq_two.mp harity
              rw [ofTypeExpr_dictionary hcontainer, ofTypeExpr_dictionary hcontainer,
                ih key (by simp), ih value (by simp)]
          | nullable =>
              obtain ⟨inner, rfl⟩ := List.length_eq_one_iff.mp harity
              rw [ofTypeExpr_nullable hcontainer, ofTypeExpr_nullable hcontainer,
                ih inner (by simp)]
      | none =>
          have harguments : arguments.map (ofTypeExpr trimmer true) =
              arguments.map (ofTypeExpr trimmer' true) :=
            List.map_congr_left fun argument hmem => ih argument hmem true
          rw [ofTypeExpr_of_none hcontainer, ofTypeExpr_of_none hcontainer,
            typeName_eq_of_trim_eq h name, harguments]

theorem emit_eq_of_trim_eq (type : TypeExpr) : type.emit trimmer = type.emit trimmer' := by
  rw [emit, emit, ofTypeExpr_eq_of_trim_eq h]

end Types

/-! ### Runs -/

section Run

variable {recognizers : List Recognizer} {config config' : Config}

theorem nextMatch?_eq_of_recognize_eq {window : Window}
    (h : ∀ recognizer ∈ recognizers,
      recognizer.recognize config window = recognizer.recognize config' window) :
    nextMatch? config window recognizers = nextMatch? config' window recognizers := by
  induction recognizers with
  | nil => rfl
  | cons recognizer recognizers ih =>
      have hhead := h recognizer List.mem_cons_self
      have hrest := ih fun other hother => h other (List.mem_cons_of_mem recognizer hother)
      rw [nextMatch?, nextMatch?, applicable?, applicable?, hhead, hrest]

/-- Recognizers that report the same everywhere make the same run. -/
theorem convertWindow_eq_of_recognize_eq
    (h : ∀ recognizer ∈ recognizers, recognizer.recognize config = recognizer.recognize config')
    (window : Window) :
    convertWindow recognizers config window = convertWindow recognizers config' window := by
  have hnext : ∀ window, nextMatch? config window recognizers =
      nextMatch? config' window recognizers :=
    fun window => nextMatch?_eq_of_recognize_eq fun recognizer hmem =>
      congrFun (h recognizer hmem) window
  induction window using convertWindow.induct recognizers config with
  | case1 window hnone =>
      rw [convertWindow_of_none hnone, convertWindow_of_none ((hnext window).symm.trans hnone)]
  | case2 window name found hsome ih =>
      rw [convertWindow_of_some hsome, convertWindow_of_some ((hnext window).symm.trans hsome), ih]

end Run

/-- A recognizer of candidates reports what it makes of the first candidate it accepts. -/
theorem ofCandidates_recognize_eq {α : Type} {name : String} {find : Window → Option α}
    {judge : Config → Window → α → Option Hit}
    {hjudge : ∀ {config window candidate hit}, judge config window candidate = some hit →
      hit.length ≤ window.ahead.length} {config config' : Config} (h : judge config = judge config') :
    (Recognizer.ofCandidates name find judge hjudge).recognize config =
      (Recognizer.ofCandidates name find judge hjudge).recognize config' := by
  funext window
  exact congrArg (fun judge => firstAccepted find judge 0 window) h

/-! ### Properties and headers -/

namespace SpellAlike

variable {config config' : Config} (h : SpellAlike config config')

include h

theorem trim_eq (name : String) : config.trimmer.trim name = config'.trimmer.trim name := by
  rw [Trimmer.trim, Trimmer.trim, h.trimChars_eq]

theorem propertyName_eq (name : String) : propertyName config name = propertyName config' name := by
  rw [propertyName, propertyName, h.trim_eq, h.propertiesToCamelCase_eq]

theorem propertyDeclaration_eq (name : List Char) (type : TypeExpr) :
    propertyDeclaration config name type = propertyDeclaration config' name type := by
  rw [propertyDeclaration, propertyDeclaration, h.propertyName_eq, emit_eq_of_trim_eq h.trim_eq]

theorem judgeProperty_eq : judgeProperty config = judgeProperty config' := by
  funext window property
  simp only [judgeProperty, h.propertyDeclaration_eq]

theorem exportedHeader_eq (header : HeaderText) :
    exportedHeader config header = exportedHeader config' header := by
  unfold exportedHeader
  rw [h.trimChars_eq]

theorem judgeHeader_eq : judgeHeader config = judgeHeader config' := by
  funext window header
  simp only [judgeHeader, h.exportedHeader_eq]

theorem recognize_eq {recognizer : Recognizer} (hmem : recognizer ∈ builtinRecognizers) :
    recognizer.recognize config = recognizer.recognize config' := by
  simp only [builtinRecognizers, List.mem_cons, List.not_mem_nil, or_false] at hmem
  rcases hmem with rfl | rfl | rfl | rfl
  · exact ofCandidates_recognize_eq h.judgeProperty_eq
  · rfl
  · rfl
  · exact ofCandidates_recognize_eq h.judgeHeader_eq

/-- The whole record of a conversion is the same, step by step. -/
theorem convertWith_eq (source : String) :
    convertWith builtinRecognizers config source = convertWith builtinRecognizers config' source :=
  convertWindow_eq_of_recognize_eq (fun _ => h.recognize_eq) _

theorem sameEffect : SameEffect config config' where
  convertText_eq := fun source => by rw [convertText, convertText, h.convertWith_eq]
  trim_eq := h.trim_eq
  propertyName_eq := h.propertyName_eq
  emit_eq := emit_eq_of_trim_eq h.trim_eq

end SpellAlike

theorem spellAlike_effective (config : Config) : SpellAlike config config.effective :=
  ⟨rfl, fun name => (trimChars_effective name config).symm⟩

/-- **What validation rejects is without effect**: empty and repeated postfixes can be left out, and
settings without them are the settings that validation accepts. -/
theorem sameEffect_effective (config : Config) :
    SameEffect config config.effective ∧ ∀ source : Settings.Source,
      Settings.validate source config.effective = .ok config.effective ∧
        (Settings.validate source config = .ok config ↔ config.effective = config) :=
  ⟨(spellAlike_effective config).sameEffect, fun _ =>
    ⟨Settings.validate_eq_ok_iff.mpr config.effective_effective, Settings.validate_eq_ok_iff⟩⟩

end TypeScribe
