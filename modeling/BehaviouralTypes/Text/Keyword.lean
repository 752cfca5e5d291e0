import BehaviouralTypes.Block.Basic

/-!
# Keywords

The word that introduces each statement. Statements that only name one resource differ in nothing
but their keyword, so reading such a statement looks its keyword up among those of all verbs.
-/

namespace BehaviouralTypes

/-- The word before the name of the resource. -/
def Verb.keyword : Verb → String
  | send => "send"
  | recv => "recv"
  | close => "close"
  | lock => "lock"
  | unlock => "unlock"
  | readLock => "rlock"
  | readUnlock => "runlock"
  | newMemory => "letmem"
  | read => "read"
  | write => "write"

/-- Every verb. -/
def Verb.all : List Verb :=
  [send, recv, close, lock, unlock, readLock, readUnlock, newMemory, read, write]

/-- The verb with that keyword. -/
def Verb.ofKeyword? (word : String) : Option Verb := all.find? (·.keyword = word)

/-- The word after the name of a new lock. -/
def LockKind.keyword : LockKind → String
  | mutex => "mutex"
  | rwMutex => "rwmutex"

/-- The word before the name of the invoked function. -/
def Mode.keyword : Mode → String
  | call => "call"
  | spawn => "spawn"

/-- The word before the first alternative. -/
def BranchKind.keyword : BranchKind → String
  | condition => "if"
  | loop => "iffor"

end BehaviouralTypes
