/-!
# Blocks of concurrency actions

A behavioural type records what a function does to channels, locks and shared memory and leaves
out everything it computes. `Stmt` is one step of such a type and `Block` a sequence of steps.
Choices nest blocks inside statements, so every recursion here runs over three shapes at once:
a statement, a block, and the list of blocks that a choice offers.
-/

namespace BehaviouralTypes

/-- The name of a function, a parameter, a channel or another shared resource. -/
abbrev Name := String

/-- One argument of an invocation, under its name on either side of it. -/
structure Binding where
  /-- The name where the invocation stands. -/
  caller : Name
  /-- The name inside the invoked function. -/
  callee : Name
deriving DecidableEq, Repr

/-- The binding of a resource that has the same name on both sides. -/
def Binding.plain (name : Name) : Binding := ⟨name, name⟩

/-- The function that a call or a spawn runs, and what it hands over. -/
structure Invocation where
  /-- The name of the invoked function, which need not be defined. -/
  target : Name
  /-- The resources handed over, in order. -/
  bindings : List Binding
deriving DecidableEq, Repr

/-- Whether the invoked function runs before the rest of the block or beside it. -/
inductive Mode where
  /-- The block waits for the function to end. -/
  | call
  /-- The function runs as a thread of its own. -/
  | spawn
deriving DecidableEq, Repr

/-- The two sorts of lock. -/
inductive LockKind where
  /-- Held by one thread at a time. -/
  | mutex
  /-- Held by one writer or by any number of readers. -/
  | rwMutex
deriving DecidableEq, Repr

/-- The actions that name one resource and carry nothing else. -/
inductive Verb where
  /-- Sends on a channel. -/
  | send
  /-- Receives from a channel. -/
  | recv
  /-- Closes a channel. -/
  | close
  /-- Takes a lock for writing. -/
  | lock
  /-- Gives up a lock held for writing. -/
  | unlock
  /-- Takes a lock for reading. -/
  | readLock
  /-- Gives up a lock held for reading. -/
  | readUnlock
  /-- Declares a shared variable. -/
  | newMemory
  /-- Reads a shared variable. -/
  | read
  /-- Writes a shared variable. -/
  | write
deriving DecidableEq, Repr

/-- A step that other threads can notice. -/
inductive Action where
  /-- Creates a channel for elements of one type; capacity zero makes it synchronous. -/
  | newChannel (name element : Name) (capacity : UInt64)
  /-- Creates a lock. -/
  | newLock (kind : LockKind) (name : Name)
  /-- Does to the named resource what the verb says. -/
  | perform (verb : Verb) (name : Name)
deriving DecidableEq, Repr

/-- The two choices with exactly two alternatives. -/
inductive BranchKind where
  /-- A condition. -/
  | condition
  /-- The body of a loop against its exit. -/
  | loop
deriving DecidableEq, Repr

/-- One statement of a block. -/
inductive Stmt where
  /-- The step that nobody can notice. -/
  | tau
  /-- A step that other threads can notice. -/
  | act (action : Action)
  /-- A call or a spawn. -/
  | invoke (mode : Mode) (invocation : Invocation)
  /-- A choice between two blocks. -/
  | branch (kind : BranchKind) (yes no : List Stmt)
  /-- A choice between any number of blocks, none included. -/
  | select (cases : List (List Stmt))

/-- A sequence of statements: a function body or one alternative of a choice. -/
abbrev Block := List Stmt

/-- The alternatives of a choice, in order. -/
abbrev Choices := List Block

/-! ### Equality -/

mutual

/-- Decides equality of statements by recursion on both. -/
def Stmt.decEq : (left right : Stmt) → Decidable (left = right)
  | .tau, right => match right with
    | .tau => isTrue rfl
    | .act _ | .invoke _ _ | .branch _ _ _ | .select _ => isFalse nofun
  | .act a, right => match right with
    | .act b => decidable_of_iff (a = b) (by simp)
    | .tau | .invoke _ _ | .branch _ _ _ | .select _ => isFalse nofun
  | .invoke m i, right => match right with
    | .invoke n j => decidable_of_iff (m = n ∧ i = j) (by simp)
    | .tau | .act _ | .branch _ _ _ | .select _ => isFalse nofun
  | .branch k yes no, right => match right with
    | .branch l yes' no' =>
      have := Block.decEq yes yes'
      have := Block.decEq no no'
      decidable_of_iff (k = l ∧ yes = yes' ∧ no = no') (by simp)
    | .tau | .act _ | .invoke _ _ | .select _ => isFalse nofun
  | .select cases, right => match right with
    | .select cases' =>
      have := Choices.decEq cases cases'
      decidable_of_iff (cases = cases') (by simp)
    | .tau | .act _ | .invoke _ _ | .branch _ _ _ => isFalse nofun

/-- Decides equality of blocks. -/
def Block.decEq : (left right : List Stmt) → Decidable (left = right)
  | [], [] => isTrue rfl
  | [], _ :: _ | _ :: _, [] => isFalse nofun
  | s :: block, t :: other =>
    have := Stmt.decEq s t
    have := Block.decEq block other
    decidable_of_iff (s = t ∧ block = other) (by simp)

/-- Decides equality of lists of alternatives. -/
def Choices.decEq : (left right : List (List Stmt)) → Decidable (left = right)
  | [], [] => isTrue rfl
  | [], _ :: _ | _ :: _, [] => isFalse nofun
  | b :: cases, c :: others =>
    have := Block.decEq b c
    have := Choices.decEq cases others
    decidable_of_iff (b = c ∧ cases = others) (by simp)

end

instance : DecidableEq Stmt := Stmt.decEq

/-! ### Single statements -/

namespace Stmt

/-- Whether the statement alone can be noticed, whatever the functions of the program do. -/
def isObservable : Stmt → Bool
  | act _ => true
  | tau | invoke _ _ | branch _ _ _ | select _ => false

/-- The invocation, if the statement is a call or a spawn. -/
def invocation? : Stmt → Option Invocation
  | invoke _ invocation => some invocation
  | tau | act _ | branch _ _ _ | select _ => none

/-- The blocks that stand directly inside the statement, in order. -/
def bodies : Stmt → Choices
  | branch _ yes no => [yes, no]
  | select cases => cases
  | tau | act _ | invoke _ _ => []

end Stmt

/-! ### Whole blocks -/

/-- Whether the block is the single statement `tau`. -/
def Block.isTau : Block → Bool
  | [.tau] => true
  | _ => false

mutual

/-- Every call and spawn in the statement, at any depth and from left to right. -/
def Stmt.invocations : Stmt → List Invocation
  | .tau | .act _ => []
  | .invoke _ invocation => [invocation]
  | .branch _ yes no => Block.invocations yes ++ Block.invocations no
  | .select cases => Choices.invocations cases

/-- Every call and spawn in the block, at any depth and from left to right. -/
def Block.invocations : Block → List Invocation
  | [] => []
  | s :: block => s.invocations ++ Block.invocations block

/-- Every call and spawn in the alternatives, at any depth and from left to right. -/
def Choices.invocations : Choices → List Invocation
  | [] => []
  | block :: cases => Block.invocations block ++ Choices.invocations cases

end

/-- The names that the block calls or spawns, in order and with repetitions. -/
def Block.targets (block : Block) : List Name := block.invocations.map (·.target)

mutual

/-- The sequences of statements inside the statement, each before those that it holds. -/
def Stmt.sequences : Stmt → List Block
  | .tau | .act _ | .invoke _ _ => []
  | .branch _ yes no => yes :: Block.inner yes ++ no :: Block.inner no
  | .select cases => Choices.sequences cases

/-- The sequences of statements inside the block, itself left out. -/
def Block.inner : Block → List Block
  | [] => []
  | s :: block => s.sequences ++ Block.inner block

/-- The alternatives and the sequences inside them. -/
def Choices.sequences : Choices → List Block
  | [] => []
  | block :: cases => block :: Block.inner block ++ Choices.sequences cases

end

/-- The block and every sequence nested in it, each before those that it holds. -/
def Block.sequences (block : Block) : List Block := block :: block.inner

end BehaviouralTypes
