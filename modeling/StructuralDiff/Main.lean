import StructuralDiff.CommandLine.Run

/-!
# The program

Reads the files that the arguments name and the standard input when it is needed,
and prints the outcome of the run.
-/

namespace StructuralDiff

/-- The text in bytes, if they are UTF-8. -/
def decodeText (bytes : ByteArray) : Except FileFault String :=
  match String.fromUTF8? bytes with
  | some text => .ok text
  | none => .error .notText

/-- Read a file. -/
def readFileText (name : String) : IO (Except FileFault String) := do
  match ← (IO.FS.readBinFile name).toBaseIO with
  | .ok bytes => return decodeText bytes
  | .error (.noFileOrDirectory ..) => return .error .absent
  | .error (.inappropriateType ..) => return .error .directory
  | .error error => return .error (.other (toString error))

/-- Read a stream to its end. -/
partial def readAll (stream : IO.FS.Stream) (bytes : ByteArray) : IO ByteArray := do
  let more ← stream.read 65536
  if more.isEmpty then return bytes else readAll stream (bytes ++ more)

/-- What a run sees: the files that it names, and the standard input when it names no
candidate. -/
def observe (arguments : Arguments) : IO Surroundings := do
  let names := arguments.operands ++ arguments.values .config
  let files ← names.mapM fun name => return (name, ← readFileText name)
  let stdin ← IO.getStdin
  let input ←
    if arguments.candidate?.isSome || (← stdin.isTty) then pure none
    else pure (some (decodeText (← readAll stdin .empty)))
  return {
    file := fun name => ((files.find? (·.1 == name)).map Prod.snd).getD (.error .absent)
    input := input
    showsColor := ← (← IO.getStdout).isTty }

/-- What there is to see before the arguments are understood. -/
def Surroundings.nothing : Surroundings :=
  ⟨fun _ => .error .absent, none, false⟩

end StructuralDiff

open StructuralDiff in
/-- Run the program. -/
def main (tokens : List String) : IO UInt32 := do
  let surroundings ← match Arguments.read tokens with
    | .ok (.compare arguments) => observe arguments
    | _ => pure Surroundings.nothing
  let outcome := run tokens surroundings
  (← IO.getStdout).putStr outcome.output
  (← IO.getStderr).putStr outcome.errors
  return outcome.code.toUInt32
