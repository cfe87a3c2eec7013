import TypeScribe.Command.Arguments

/-!
# The program

Carries out a command with the files of the real system, and shows the outcome.
-/

namespace TypeScribe

/-- What stands at `path` in the real file system. -/
def probe (path : String) : IO FileState := do
  match ← (IO.FS.readBinFile path).toBaseIO with
  | .ok content => return .file content
  | .error (.noFileOrDirectory ..) => return .missing
  | .error _ => return .occupied

def writeFile (path : String) (content : ByteArray) : IO Bool := do
  match ← (IO.FS.writeBinFile path content).toBaseIO with
  | .ok () => return true
  | .error _ => return false

def realFiles : Files IO := ⟨probe, writeFile⟩

def readInput : IO ByteArray := do
  (← IO.getStdin).readBinToEnd

def runCommand (command : Command) : IO Outcome := do
  return Outcome.ofResult (← (command.perform realFiles readInput).run)

end TypeScribe

open TypeScribe in
def main (arguments : List String) : IO UInt32 := do
  let outcome ←
    match Arguments.parse arguments with
    | .error stop => pure stop.outcome
    | .ok command => runCommand command
  (← IO.getStdout).putStr outcome.stdout
  (← IO.getStderr).putStr outcome.stderr
  return outcome.exit.toUInt32
