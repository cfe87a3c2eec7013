import TypeScribe.Directory

/-!
# Access to files

What a program can do with files. A program is written for any files: those of the real system, or those
that paths lead to from a directory given as data.
-/

namespace TypeScribe

structure Files (m : Type → Type) where
  /-- What stands at a path. -/
  state : String → m FileState
  /-- Writes a file over what was there, and says whether that succeeded. -/
  write : String → ByteArray → m Bool

/-- The files of the directory that the program runs in. -/
def Directory.files : Files (StateM Directory) where
  state path := do return (← get).state path
  write path content := do
    match (← get).write? path content with
    | none => return false
    | some directory =>
        set directory
        return true

/-- Files that are as `states` says and cannot be written. -/
def Files.readOnly (states : String → FileState) : Files Id where
  state path := states path
  write _ _ := false

end TypeScribe
