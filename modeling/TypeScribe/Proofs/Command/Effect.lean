import TypeScribe.Command.Run
import TypeScribe.Proofs.Settings.File

/-!
# What commands leave behind

The steps of a command look for its settings and its input, and every check comes before the command
writes anything. What is left to fail after a write is the reading of new settings, which cannot fail
for the template.
-/

namespace TypeScribe

namespace Command

/-- The source text of a conversion. -/
def Reads (input : Option String) (stdin : ByteArray) (directory : Directory) (source : String) :
    Prop :=
  match sourcePath? input with
  | some path => directory.state path = .file source.toUTF8
  | none => stdin = source.toUTF8

section Perform

variable (stdin : ByteArray) (before : Directory)

end Perform

end Command

end TypeScribe
