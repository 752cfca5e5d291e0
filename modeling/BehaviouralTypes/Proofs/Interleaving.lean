import BehaviouralTypes.Program.Basic
import Mathlib.Data.Multiset.AddSub

/-!
# Runs of a program

A program runs as a multiset of threads, and a thread is the block that it still has to run. Any
thread may move next, and its first statement says how. Only actions can be noticed: a trace is the
list of the actions that a finite run shows, in order. What a part of the threads can do, they can
do among others too (`Program.Run.frame`), so a run can be put together from what single threads do.
-/

namespace BehaviouralTypes

/-- The threads of a running program: what each still has to run. -/
abbrev Threads := Multiset Block

namespace Program

/-- How a thread moves: the block before, the action that is shown, the block after, and the
threads that are started. -/
inductive Moves (p : Program) : Block → Option Stmt → Block → Threads → Prop
  /-- An action is shown and done. -/
  | act {s : Stmt} {rest : Block} : s.isObservable = true → p.Moves (s :: rest) (some s) rest 0
  /-- Nothing happens at `tau`. -/
  | tau {rest : Block} : p.Moves (.tau :: rest) none rest 0
  /-- An invocation of a name without a definition does nothing. -/
  | skip {mode : Mode} {i : Invocation} {rest : Block} :
      p.find? i.target = none → p.Moves (.invoke mode i :: rest) none rest 0
  /-- A called body runs before the rest. -/
  | call {i : Invocation} {f : Func} {rest : Block} :
      p.find? i.target = some f → p.Moves (.invoke .call i :: rest) none (f.body ++ rest) 0
  /-- A spawned body runs as a thread of its own. -/
  | spawn {i : Invocation} {f : Func} {rest : Block} :
      p.find? i.target = some f → p.Moves (.invoke .spawn i :: rest) none rest {f.body}
  /-- One alternative of a choice runs before the rest. -/
  | choose {s : Stmt} {body rest : Block} :
      body ∈ s.bodies → p.Moves (s :: rest) none (body ++ rest) 0

/-- One step of the program: some thread moves and the others wait. -/
inductive Step (p : Program) : Threads → Option Stmt → Threads → Prop
  /-- The threads that are started join those that wait. -/
  | thread {b c : Block} {label : Option Stmt} {started others : Threads} :
      p.Moves b label c started → p.Step (b ::ₘ others) label (c ::ₘ (started + others))

/-- A finite run with the actions that it shows, in order. -/
inductive Run (p : Program) : Threads → List Stmt → Threads → Prop
  /-- A run can stop at any time. -/
  | stop (threads : Threads) : p.Run threads [] threads
  /-- A run goes on step by step. -/
  | step {before between after : Threads} {label : Option Stmt} {trace : List Stmt} :
      p.Step before label between → p.Run between trace after →
      p.Run before (label.toList ++ trace) after

/-- Whether a run that starts with the body of the named function shows these actions. -/
def IsTrace (p : Program) (entry : Name) (trace : List Stmt) : Prop :=
  ∃ f, p.find? entry = some f ∧ ∃ threads, p.Run {f.body} trace threads

variable {p : Program} {before between after : Threads} {first second : List Stmt}

/-- Runs can be joined. -/
theorem Run.append (start : p.Run before first between) (rest : p.Run between second after) :
    p.Run before (first ++ second) after := by
  induction start with
  | stop threads => exact rest
  | step move _ ih =>
    rw [List.append_assoc]
    exact .step move (ih rest)

/-- The threads of a run do the same among others that wait. -/
theorem Run.frame (run : p.Run before first after) (others : Threads) :
    p.Run (before + others) first (after + others) := by
  induction run with
  | stop threads => exact .stop (threads + others)
  | step move _ ih =>
    cases move with
    | thread move =>
      rw [Multiset.cons_add, Multiset.add_assoc] at ih
      rw [Multiset.cons_add]
      exact .step (.thread move) ih

/-- A run of a single thread goes on beside others. -/
theorem Run.beside {b c : Block} {started : Threads} (run : p.Run {b} first (c ::ₘ started))
    (others : Threads) : p.Run (b ::ₘ others) first (c ::ₘ (started + others)) := by
  have joined := run.frame others
  rwa [Multiset.singleton_add, Multiset.cons_add] at joined

/-- One move of one thread is a run. -/
theorem Moves.run {b c : Block} {label : Option Stmt} {started : Threads}
    (move : p.Moves b label c started) : p.Run {b} label.toList (c ::ₘ started) := by
  have step : p.Step (b ::ₘ 0) label (c ::ₘ (started + 0)) := .thread move
  rw [Multiset.add_zero] at step
  have run := Run.step step (.stop _)
  rwa [List.append_nil] at run

end Program

end BehaviouralTypes
