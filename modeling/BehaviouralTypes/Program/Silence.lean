import BehaviouralTypes.Program.Basic

/-!
# Silent functions

A function is silent when nothing that it does can be noticed, nor anything that is done by the
functions it leads to. The largest set of such functions is found by exclusion: all functions start
as candidates, and a function is excluded once its body holds an action or invokes an excluded
function. Functions that only invoke each other in a cycle are never excluded, and a name without a
definition is never excluded either.

The functions are examined in the order of the program, and an exclusion counts at once, also for
the functions examined later in the same round. An exclusion is looked at in two rounds only, its
own and the next: a function that is left after these does not invoke the excluded one.
-/

namespace BehaviouralTypes

mutual

/-- Whether the statement does nothing noticeable if the functions in `loud` do and no others. -/
def Stmt.isSilent (loud : List Name) : Stmt → Bool
  | .tau => true
  | .act _ => false
  | .invoke _ invocation => invocation.target ∉ loud
  | .branch _ yes no => Block.isSilent loud yes && Block.isSilent loud no
  | .select cases => Choices.isSilent loud cases

/-- Whether every statement of the block is silent. -/
def Block.isSilent (loud : List Name) : Block → Bool
  | [] => true
  | s :: block => s.isSilent loud && Block.isSilent loud block

/-- Whether every alternative is silent. -/
def Choices.isSilent (loud : List Name) : Choices → Bool
  | [] => true
  | block :: cases => Block.isSilent loud block && Choices.isSilent loud cases

end

/-- Functions not yet excluded, and the names excluded of late. -/
structure Candidates where
  /-- The names of the functions excluded in the latest round, in the order of the program. -/
  loud : List Name
  /-- The remaining functions, in the order of the program. -/
  quiet : List Func

namespace Candidates

/-- One round over some functions in order. The names in `loud` are those excluded since the round
before it began: the functions were silent then as far as all earlier exclusions go. -/
def sweep (loud : List Name) : List Func → Candidates
  | [] => ⟨[], []⟩
  | f :: rest =>
    if f.body.isSilent loud then
      let after := sweep loud rest
      ⟨after.loud, f :: after.quiet⟩
    else
      let after := sweep (f.name :: loud) rest
      ⟨f.name :: after.loud, after.quiet⟩

/-- The candidates after one more round. -/
def next (c : Candidates) : Candidates := sweep c.loud c.quiet

/-- The candidates after each round, up to the first round that excludes nobody. -/
def rounds (c : Candidates) : List Candidates :=
  let after := c.next
  if after.quiet.length < c.quiet.length then after :: after.rounds else [after]
termination_by c.quiet.length

/-- The last round leaves a last state, since there is always a round. -/
theorem rounds_ne_nil (c : Candidates) : c.rounds ≠ [] := by
  rw [rounds]; split <;> simp

/-- The candidates when nobody is left to exclude. -/
def settled (c : Candidates) : Candidates := c.rounds.getLast c.rounds_ne_nil

end Candidates

namespace Program

/-- All functions of the program, none excluded. -/
def candidates (p : Program) : Candidates := ⟨[], p.functions⟩

/-- The names of the silent functions, in the order of the program. -/
def silent (p : Program) : List Name := p.candidates.settled.quiet.map (·.name)

/-- How many rounds the search for the silent functions takes, the last without effect. -/
def silenceRounds (p : Program) : Nat := p.candidates.rounds.length

end Program

end BehaviouralTypes
