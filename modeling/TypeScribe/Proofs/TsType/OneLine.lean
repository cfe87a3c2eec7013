import TypeScribe.Proofs.Text.LineEnding
import TypeScribe.Proofs.TsType.Emission

/-!
# Emitted types stand on one line

No character of a name ends a line, and neither does what is written between names. So an emitted type
stands on one line, whatever line breaks there were in the type expression.
-/

namespace TypeScribe

open Text TypeExpr TsType

theorem TypeExpr.IsName.unbroken {name : List Char} (h : IsName name) : Unbroken name :=
  fun c hc => isLineBreak_eq_false_of_isNameChar (h.2 c hc)

theorem Text.Unbroken.trimChars {name : List Char} (h : Unbroken name) (trimmer : Trimmer) :
    Unbroken (trimmer.trimChars name) :=
  h.of_subset fun _ => mem_of_mem_trimChars

namespace TsType

variable {trimmer : Trimmer}

theorem unbroken_typeName {name : String} (h : Unbroken name.toList) :
    Unbroken (typeName trimmer name).toList := by
  rw [typeName]
  cases hprimitive : primitiveName? name with
  | some primitive => exact (isName_primitiveName? hprimitive).unbroken
  | none =>
      rw [Option.getD_none, Trimmer.trim, String.toList_ofList]
      exact h.trimChars trimmer

theorem unbroken_arrayChars {element : List Char} (h : Unbroken element) (rank : Nat) :
    Unbroken (arrayChars element rank) := by
  have hbrackets : Unbroken (List.replicate rank ['[', ']']).flatten := by
    intro c hc
    obtain ⟨pair, hpair, hc⟩ := List.mem_flatten.mp hc
    obtain rfl := List.eq_of_mem_replicate hpair
    exact (by decide : Unbroken ['[', ']']) c hc
  have hopen : Unbroken ['('] := by decide
  have hclose : Unbroken [')'] := by decide
  rw [arrayChars]
  split
  · exact ((hopen.append h).append hclose).append hbrackets
  · exact h.append hbrackets

theorem unbroken_decorate {type : TsType} (h : Unbroken type.chars) (rank : Nat)
    (mayBeAbsent : Bool) : Unbroken (decorate rank mayBeAbsent type).chars := by
  have harray : Unbroken (arrayOf rank type).chars := by
    rw [arrayOf]
    split
    · exact h
    · exact unbroken_arrayChars h rank
  cases mayBeAbsent with
  | true =>
      have habsent : Unbroken " | undefined".toList := by decide
      exact harray.append habsent
  | false => exact harray

theorem unbroken_intercalate {texts : List (List Char)} (h : ∀ text ∈ texts, Unbroken text) :
    Unbroken ([',', ' '].intercalate texts) := by
  have hcomma : Unbroken [',', ' '] := by decide
  exact forall_mem_intercalate hcomma h

theorem unbroken_chars_ofTypeExpr {type : TypeExpr} (h : AllNames Unbroken type) (marked : Bool) :
    Unbroken (ofTypeExpr trimmer marked type).chars := by
  induction h generalizing marked with
  | @intro name arguments rank isNullable hname _ ih =>
      cases hcontainer : Container.ofName? name arguments.length with
      | some container =>
          have harity := Container.arity_of_ofName? hcontainer
          cases container with
          | sequence =>
              obtain ⟨element, rfl⟩ := List.length_eq_one_iff.mp harity
              rw [ofTypeExpr_sequence hcontainer]
              apply unbroken_decorate
              exact unbroken_arrayChars (ih element (by simp) true) 1
          | dictionary =>
              obtain ⟨key, value, rfl⟩ := List.length_eq_two.mp harity
              have hopen : Unbroken "\x7b [key: ".toList := by decide
              have hcolon : Unbroken "]: ".toList := by decide
              have hclose : Unbroken " \x7d".toList := by decide
              have hkey := hopen.append (ih key (by simp) true)
              rw [ofTypeExpr_dictionary hcontainer]
              apply unbroken_decorate
              exact ((hkey.append hcolon).append (ih value (by simp) true)).append hclose
          | nullable =>
              obtain ⟨inner, rfl⟩ := List.length_eq_one_iff.mp harity
              rw [ofTypeExpr_nullable hcontainer]
              exact unbroken_decorate (ih inner (by simp) false) rank true
      | none =>
          have htype : Unbroken (typeName trimmer name).toList := unbroken_typeName hname
          rw [ofTypeExpr_of_none hcontainer]
          apply unbroken_decorate
          split
          · exact htype
          · have harguments : ∀ text ∈ charsList (arguments.map (ofTypeExpr trimmer true)),
                Unbroken text := by
              rw [charsList_eq_map, List.forall_mem_map, List.forall_mem_map]
              exact fun argument hmem => ih argument hmem true
            have hopen : Unbroken ['<'] := by decide
            have hclose : Unbroken ['>'] := by decide
            have hinside := hopen.append (unbroken_intercalate harguments)
            exact (htype.append hinside).append hclose

end TsType

theorem TypeExpr.unbroken_emit {type : TypeExpr} (h : AllNames IsName type) (trimmer : Trimmer) :
    Unbroken (type.emit trimmer).toList := by
  rw [emit, TsType.print, String.toList_ofList]
  exact unbroken_chars_ofTypeExpr (h.imp fun _ => IsName.unbroken) true

end TypeScribe
