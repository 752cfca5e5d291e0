import BehaviouralTypes.Block.Tidy
import BehaviouralTypes.Program.Reach
import BehaviouralTypes.Program.Silence
import BehaviouralTypes.Program.Validity
import BehaviouralTypes.Simplify.Event
import BehaviouralTypes.Simplify.Preferences
import BehaviouralTypes.Text.Printer

/-!
# Passes over a program

A pass changes the program or looks at it, logs what it did, and may object to what it found.
Each of the three is a function of the program before the pass, so the program after a sequence
of passes can be spoken of without its log.
-/

namespace BehaviouralTypes

/-- Whether a function survives the removal of silent functions that spares one name. -/
def Func.outlivesSilence (silent : List Name) (spared : Option Name) (f : Func) : Bool :=
  f.name ∉ silent || spared = some f.name

/-- Whether a function survives the removal of unreachable functions. -/
def Func.isReached (reached : List Name) (f : Func) : Bool := f.name ∈ reached

namespace Program

/-- Removes the silent functions, except the spared one. -/
def removeSilent (spared : Option Name) (p : Program) : Program :=
  p.retain (Func.outlivesSilence p.silent spared)

/-- The names of the silent functions other than the spared one, in order. -/
def removableSilent (spared : Option Name) (p : Program) : List Name :=
  p.discarded (Func.outlivesSilence p.silent spared)

/-- Removes the functions that the entry does not lead to. Without an entry nothing is removed. -/
def removeUnreached (entry : Option Name) (p : Program) : Program :=
  match entry with
  | some entry => if p.defines entry then p.retain (Func.isReached (p.reachable entry)) else p
  | none => p

/-- Tidies every body with respect to the defined names. -/
def tidy (p : Program) : Program := p.mapBodies fun f => f.body.tidy p.names

/-- How many statements tidying drops. -/
def dropped (p : Program) : Nat :=
  (p.functions.map fun f => f.body.dropped p.names).foldr (· + ·) 0

/-- The report on the search for silent functions. -/
def silenceEvent (p : Program) : Event := .silentFound p.silent.length p.size p.silenceRounds

end Program

/-- A step of the simplification. -/
inductive Pass where
  /-- Removes the silent functions, except the spared one. -/
  | removeSilent (spared : Option Name)
  /-- Removes the functions that the entry does not lead to. -/
  | removeUnreached
  /-- Tidies every body. -/
  | tidy
  /-- Objects to an invalid program. -/
  | validate
  /-- Logs the program. -/
  | present
deriving DecidableEq, Repr

namespace Pass

/-- The name of the pass in the log. -/
def name : Pass → String
  | removeSilent _ => "remove_silent"
  | removeUnreached => "remove_unreached"
  | tidy => "cleanup"
  | validate => "validate"
  | present => "print_program"

/-- Whether the user wants the pass. -/
def isWanted (prefs : Preferences) : Pass → Bool
  | removeSilent _ | removeUnreached | tidy => true
  | validate => prefs.validate
  | present => prefs.debug

/-- The program after the pass. -/
def apply (entry : Option Name) (p : Program) : Pass → Program
  | removeSilent spared => p.removeSilent spared
  | removeUnreached => p.removeUnreached entry
  | tidy => p.tidy
  | validate | present => p

/-- What the pass logs. -/
def events (entry : Option Name) (p : Program) : Pass → List Event
  | removeSilent spared =>
    p.silenceEvent :: unlessEmpty .silentRemoved (p.removableSilent spared)
  | removeUnreached => match entry with
    | some entry =>
      if p.defines entry then
        unlessEmpty .unreachedRemoved (p.discarded (Func.isReached (p.reachable entry)))
      else [.entryRemoved entry]
    | none => []
  | tidy => [.tidied p.dropped]
  | validate => []
  | present => [.shown p.text]
where
  /-- The event about these names, if there are any. -/
  unlessEmpty (event : List Name → Event) (names : List Name) : List Event :=
    if names.isEmpty then [] else [event names]

/-- The objection of the pass. -/
def objection? (p : Program) : Pass → Option Violation
  | validate => p.violation?
  | removeSilent _ | removeUnreached | tidy | present => none

end Pass

end BehaviouralTypes
