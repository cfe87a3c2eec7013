import TypeScribe.Config
import TypeScribe.Text.Affix

/-!
Taking configured postfixes off a name. Among the postfixes that fit, the first of the list goes; an
empty postfix never fits, so each removal makes the name shorter.
-/

namespace TypeScribe

open Text

structure Trimmer where
  postfixes : List String
  /-- Whether removal goes on until no postfix fits. -/
  recursive : Bool

def Trimmer.identity : Trimmer := ⟨[], false⟩

def Config.trimmer (config : Config) : Trimmer :=
  ⟨config.trimPostfixes, config.recursiveTrimPostfixes⟩

/-- What remains of `name` before its postfix `fix`, if `fix` is one and is not empty. -/
def withoutPostfix? (name : List Char) (fix : String) : Option (List Char) :=
  if fix.isEmpty then none else fix.toList.isSuffixOf? name

def stripPostfix? (postfixes : List String) (name : List Char) : Option (List Char) :=
  postfixes.findSome? (withoutPostfix? name)

theorem withoutPostfix?_eq_some_iff {name rest : List Char} {fix : String} :
    withoutPostfix? name fix = some rest ↔ fix ≠ "" ∧ name = rest ++ fix.toList := by
  by_cases hempty : fix = ""
  · simp [withoutPostfix?, hempty]
  · rw [withoutPostfix?, if_neg (by simpa using hempty), Text.isSuffixOf?_eq_some_iff]
    exact (and_iff_right hempty).symm

theorem length_lt_of_stripPostfix? {postfixes : List String} {name rest : List Char}
    (h : stripPostfix? postfixes name = some rest) : rest.length < name.length := by
  obtain ⟨fix, _, hfix⟩ := List.exists_of_findSome?_eq_some h
  obtain ⟨hne, rfl⟩ := withoutPostfix?_eq_some_iff.mp hfix
  have hpos : 0 < fix.toList.length := by
    rw [List.length_pos_iff]
    simpa using hne
  simp only [List.length_append]
  omega

def stripPostfixes (postfixes : List String) (name : List Char) : List Char :=
  match _h : stripPostfix? postfixes name with
  | some rest => stripPostfixes postfixes rest
  | none => name
termination_by name.length
decreasing_by exact length_lt_of_stripPostfix? _h

theorem stripPostfixes_of_some {postfixes : List String} {name rest : List Char}
    (h : stripPostfix? postfixes name = some rest) :
    stripPostfixes postfixes name = stripPostfixes postfixes rest := by
  rw [stripPostfixes]
  split <;> simp_all

theorem stripPostfixes_of_none {postfixes : List String} {name : List Char}
    (h : stripPostfix? postfixes name = none) : stripPostfixes postfixes name = name := by
  rw [stripPostfixes]
  split <;> simp_all

namespace Trimmer

def trimChars (trimmer : Trimmer) (name : List Char) : List Char :=
  let name := trimSpaces name
  if trimmer.recursive then stripPostfixes trimmer.postfixes name
  else (stripPostfix? trimmer.postfixes name).getD name

/-- Removes surrounding white space, then postfixes. White space that a removal brings to the end
stays. -/
def trim (trimmer : Trimmer) (name : String) : String :=
  String.ofList (trimmer.trimChars name.toList)

end Trimmer

end TypeScribe
