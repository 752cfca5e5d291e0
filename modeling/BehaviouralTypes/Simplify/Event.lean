import BehaviouralTypes.Block.Basic

/-!
# Events of a simplification

What the simplification logs. An event knows its level, the part of the library that reports it
and its wording.
-/

namespace BehaviouralTypes

/-- How much an event matters, from the gravest level to the least. -/
inductive Level where
  /-- A failure. -/
  | error
  /-- Something suspicious. -/
  | warn
  /-- The outcome of the whole run. -/
  | info
  /-- The outcome of one step. -/
  | debug
  /-- The progress of the run. -/
  | trace
deriving DecidableEq, Repr

namespace Level

/-- The name of the level. -/
def name : Level → String
  | error => "error"
  | warn => "warn"
  | info => "info"
  | debug => "debug"
  | trace => "trace"

/-- The number of levels that are at least as grave. -/
def rank : Level → Nat
  | error => 1
  | warn => 2
  | info => 3
  | debug => 4
  | trace => 5

end Level

/-- One entry of the log. -/
inductive Event where
  /-- The named pass begins. -/
  | passBegun (pass : String)
  /-- The search for silent functions ended. -/
  | silentFound (silent total rounds : Nat)
  /-- These silent functions were removed. -/
  | silentRemoved (names : List Name)
  /-- The entry itself was removed, so nothing can be unreachable from it. -/
  | entryRemoved (entry : Name)
  /-- These unreachable functions were removed. -/
  | unreachedRemoved (names : List Name)
  /-- Tidying dropped this many statements. -/
  | tidied (dropped : Nat)
  /-- The program now has this text. -/
  | shown (text : String)
  /-- The simplification ended. -/
  | simplified (before after : Nat)
  /-- The run for that entry ended. -/
  | ended (kept total : Nat) (entry : Name)
deriving DecidableEq, Repr

namespace Event

/-- How much the event matters. -/
def level : Event → Level
  | passBegun _ => .trace
  | ended _ _ _ => .info
  | silentFound _ _ _ | silentRemoved _ | entryRemoved _ | unreachedRemoved _ | tidied _
  | shown _ | simplified _ _ => .debug

/-- The part of the library that reports the event. -/
def source : Event → String
  | passBegun _ => "migo::passes"
  | silentFound _ _ _ => "migo::passes::analysis::silent"
  | silentRemoved _ => "migo::passes::opt::silent"
  | entryRemoved _ | unreachedRemoved _ => "migo::passes::opt::unreached"
  | tidied _ => "migo::passes::opt::cleanup"
  | shown _ => "migo::passes::analysis::util"
  | simplified _ _ => "migo"
  | ended _ _ _ => "migo_simplify"

/-- The wording of the event. -/
def message : Event → String
  | passBegun pass => s!"Running pass {pass}"
  | silentFound silent total rounds =>
    s!"Found {silent} silent functions out of {total} in {rounds} rounds"
  | silentRemoved names => "Removed silent functions: " ++ ", ".intercalate names
  | entryRemoved entry => s!"Entry {entry} was removed, skipping reachability"
  | unreachedRemoved names => "Removed unreached functions: " ++ ", ".intercalate names
  | tidied dropped => s!"Cleanup removed {dropped} statements"
  | shown text => "Simplified program:\n" ++ text
  | simplified before after => s!"Simplified program from {before} to {after} functions"
  | ended kept total entry => s!"Kept {kept} of {total} functions with entry {entry}"

/-- Level and wording in one line. -/
def line (e : Event) : String := s!"{e.level.name}: {e.message}"

end Event

end BehaviouralTypes
