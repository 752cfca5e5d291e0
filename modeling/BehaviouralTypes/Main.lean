import BehaviouralTypes.CommandLine.Run

/-!
# The command

Connects a run to the console and the file system.
-/

namespace BehaviouralTypes

/-- Everything that a stream still holds. -/
partial def drain (stream : IO.FS.Stream) (soFar : ByteArray) : IO ByteArray := do
  let chunk ← stream.read 65536
  if chunk.isEmpty then return soFar else drain stream (soFar ++ chunk)

/-- The refusal behind a failed operation. -/
def refusal : IO.Error → SystemError
  | .noFileOrDirectory _ code _ => ⟨code.toNat, "NotFound", "No such file or directory"⟩
  | .permissionDenied _ code _ => ⟨code.toNat, "PermissionDenied", "Permission denied"⟩
  | .inappropriateType _ code _ => ⟨code.toNat, "IsADirectory", "Is a directory"⟩
  | .otherError code details => ⟨code.toNat, "Other", details⟩
  | e => ⟨0, "Other", e.toString⟩

/-- The outcome of an operation, its failure included. -/
def attempt {α : Type} (operation : IO α) : IO (Except SystemError α) := do
  match ← operation.toBaseIO with
  | .ok value => return .ok value
  | .error e => return .error (refusal e)

/-- The console and the file system. -/
def console : Host IO where
  readInput := do
    let input ← IO.getStdin
    attempt (drain input ByteArray.empty)
  readFile path := attempt (IO.FS.readBinFile path)
  writeFile path text := attempt (IO.FS.writeFile path text)

/-- How the command is called. -/
def usage : String :=
  "Options: [-s|--stdin] [-o|--out FILE] [-e|--entry NAME] [--json] [--no-validate] " ++
    "[--remove-silent-entry] [-d|--debug] [FILE]"

end BehaviouralTypes

open BehaviouralTypes in
/-- Runs the command with the arguments of the process. -/
def main (arguments : List String) : IO UInt32 := do
  let filter ← match ← IO.getEnv "RUST_LOG" with
    | some specification =>
      let reading := LogFilter.ofSpecification specification
      reading.warnings.forM fun warning => IO.eprintln warning
      pure reading.filter
    | none => pure LogFilter.failures
  match Options.ofArguments? arguments with
  | none =>
    IO.eprintln usage
    return 2
  | some options =>
    let outcome ← options.run console
    (outcome.complaints filter).forM fun line => IO.eprintln line
    IO.print outcome.output
    return outcome.code
