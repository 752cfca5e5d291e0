import BehaviouralTypes.CommandLine.Logging
import BehaviouralTypes.CommandLine.Options
import BehaviouralTypes.CommandLine.Report
import BehaviouralTypes.Json.Program
import BehaviouralTypes.Program.Text
import BehaviouralTypes.Simplify.Run

/-!
# A run of the command

A run reads a text from the standard input or a file, simplifies it, and writes the result to the
standard output or a file. What it reads from and writes to is a `Host`, so the same run serves
the real console and a directory that is only a table. Nothing is written unless everything
before the writing has succeeded.
-/

namespace BehaviouralTypes

open Text (Quoting)

/-- Where a run finds its input and its files. -/
structure Host (m : Type → Type) where
  /-- Everything on the standard input. -/
  readInput : m (Except SystemError ByteArray)
  /-- The contents of a file. -/
  readFile : String → m (Except SystemError ByteArray)
  /-- Replaces the contents of a file. -/
  writeFile : String → String → m (Except SystemError Unit)

/-- What a run leaves on the console. -/
structure Outcome where
  /-- The text for the standard output. -/
  output : String
  /-- The events of the run, in order. -/
  log : List Event
  /-- The failure of the run, if it failed. -/
  failure? : Option Explanation
deriving DecidableEq

namespace Outcome

/-- A run that failed after these events. -/
def failed (log : List Event) (e : Explanation) : Outcome := ⟨"", log, some e⟩

/-- The exit code of the run. -/
def code (o : Outcome) : UInt32 := if o.failure?.isSome then 1 else 0

/-- The lines for the standard error: the events that are shown, and the failure. -/
def complaints (o : Outcome) (filter : LogFilter) : List String :=
  (o.log.filter filter.shows).map Event.shownLine ++ (o.failure?.map Explanation.report).toList

end Outcome

namespace Options

/-- The text in bytes that were read, or the failure of reading them. -/
def decode (attempt : String) : Except SystemError ByteArray → Except Explanation String
  | .error e => .error ⟨[attempt], .system e⟩
  | .ok bytes => match String.fromUTF8? bytes with
    | some text => .ok text
    | none => .error ⟨[attempt], .notUnicode⟩

/-- Reads the input text. -/
def input {m : Type → Type} [Monad m] (host : Host m) (o : Options) :
    m (Except Explanation String) :=
  if o.stdin then do
    return decode "Failed to read from stdin" (← host.readInput)
  else match o.file with
    | some path => do
      return decode ("Failed to read input file " ++ Quoting.verbatim.quote path)
        (← host.readFile path)
    | none => return .error ⟨[], .message "No file specified"⟩

/-- What a run makes of its input text: the text to be written. -/
def process (o : Options) (text : String) : Outcome :=
  match Program.ofText text with
  | .error e => .failed [] (e.explanation.during "Failed to parse input")
  | .ok p =>
    let report := p.simplify o.preferences
    match report.result with
    | .error violation =>
      .failed report.log ⟨["Failed to simplify program"], .message violation.message⟩
    | .ok q =>
      ⟨if o.json then q.jsonText else q.fileText,
        report.log ++ [.ended q.size p.size o.preferences.entry], none⟩

/-- Sends the output of a run that has succeeded so far where it belongs. -/
def deliver {m : Type → Type} [Monad m] (host : Host m) (o : Options) (outcome : Outcome) :
    m Outcome :=
  match outcome.failure?, o.out with
  | none, some path => do
    match ← host.writeFile path outcome.output with
    | .ok () => return { outcome with output := "" }
    | .error e =>
      return .failed outcome.log ⟨[s!"Failed to write output to {path}"], .system e⟩
  | _, _ => return outcome

/-- Runs the command. -/
def run {m : Type → Type} [Monad m] (host : Host m) (o : Options) : m Outcome := do
  match ← o.input host with
  | .error e => return .failed [] e
  | .ok text => o.deliver host (o.process text)

end Options

end BehaviouralTypes
