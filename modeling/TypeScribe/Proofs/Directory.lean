import Mathlib.Tactic.ByContra
import Mathlib.Tactic.SplitIfs
import TypeScribe.Directory

/-!
# What a write changes

A write fills one place, and that place was no folder before. Which places are folders is therefore
the same after it, and so is the place that each path leads to.
-/

namespace TypeScribe

namespace Directory

variable {before after : Directory} {path : String} {content : ByteArray}

theorem follow_home_take {directory : Directory}
    (hproper : ∀ name ∈ directory.home, name ≠ "" ∧ name ≠ "." ∧ name ≠ "..") (names : List String)
    (count : Nat) (hcount : count ≤ directory.home.length) :
    directory.follow (List.replicate count "..") ((directory.home.take count).reverse ++ names) =
      directory.follow [] names := by
  induction count with
  | zero => simp
  | succ count ih =>
      have habove : isAbove (List.replicate (count + 1) "..") := by simp [isAbove]
      obtain ⟨hempty, hdot, hup⟩ := hproper directory.home[count] (List.getElem_mem _)
      have hchild : directory.child (List.replicate (count + 1) "..") directory.home[count] =
          List.replicate count ".." := by
        rw [child, if_pos ⟨habove, by simp, by simp⟩]
        simp
      rw [List.take_succ_eq_append_getElem hcount, List.reverse_append, List.reverse_singleton,
        List.singleton_append, List.cons_append, follow, find?, if_pos habove, if_pos rfl,
        if_neg (not_or.mpr ⟨hempty, hdot⟩), if_neg hup, hchild, ih (Nat.le_of_succ_le hcount)]

/-- From the root, the names of the folders on the way lead back down to the directory. -/
theorem follow_home {directory : Directory}
    (hproper : ∀ name ∈ directory.home, name ≠ "" ∧ name ≠ "." ∧ name ≠ "..")
    (names : List String) :
    directory.follow directory.root (directory.home.reverse ++ names) = directory.follow [] names := by
  have htake := follow_home_take hproper names directory.home.length (Nat.le_refl _)
  rwa [List.take_length, ← List.map_const'] at htake

example : (Directory.mk ["work", "tmp"] [(["src"], .folder)]).locate? "/tmp//work/./src/A.cs" =
    some ["src", "A.cs"] := by
  decide +kernel

/-- Between `before` and `after`, the file at `path` has got this content and nothing else has
changed. -/
structure OnlyChanges (before after : Directory) (path : String) (content : ByteArray) : Prop where
  state_self : after.state path = .file content
  /-- Every path leads where it led before. -/
  locate? : ∀ other, after.locate? other = before.locate? other
  /-- Every place that `path` does not lead to holds what it held. -/
  find? : ∀ place, before.locate? path ≠ some place → after.find? place = before.find? place

/-- Another way to the same place shows the new content, and a way to another place shows what it
showed before. -/
theorem OnlyChanges.state_eq (h : before.OnlyChanges after path content) (other : String) :
    after.state other =
      if before.locate? other = before.locate? path then .file content else before.state other := by
  split_ifs with hother
  · rw [← h.state_self, state, state, h.locate?, h.locate?, hother]
  · rw [state, state, h.locate?]
    cases hlocate : before.locate? other with
    | none => rfl
    | some place =>
        rw [Option.bind_some, Option.bind_some, h.find?]
        exact fun hpath => hother (hlocate.trans hpath.symm)

end Directory

end TypeScribe
