import BehaviouralTypes.Json.Value
import BehaviouralTypes.Program.Basic

/-!
# Programs as JSON

Each construct is an object whose members always have the same order. The kind of a statement
comes first. Unlike the textual form, this form keeps both names of every binding.
-/

namespace BehaviouralTypes

open Json (Value)

/-- The two names of the binding. -/
def Binding.json (b : Binding) : Value :=
  .obj [("caller", .str b.caller), ("callee", .str b.callee)]

/-- The target and what is handed over. -/
def Invocation.json (i : Invocation) : Value :=
  .obj [("function", .str i.target), ("params", .arr (i.bindings.map Binding.json))]

/-- The kind of a statement with that verb. -/
def Verb.kind : Verb → String
  | send => "send"
  | recv => "recv"
  | close => "close"
  | lock => "lock"
  | unlock => "unlock"
  | readLock => "r_lock"
  | readUnlock => "r_unlock"
  | newMemory => "new_mem"
  | read => "mem_read"
  | write => "mem_write"

/-- The member that holds the resource of a statement with that verb. -/
def Verb.member : Verb → String
  | send | recv | close => "chan"
  | lock | unlock | readLock | readUnlock | newMemory | read | write => "name"

/-- The kind of a statement that creates such a lock. -/
def LockKind.kind : LockKind → String
  | mutex => "new_mutex"
  | rwMutex => "new_r_w_mutex"

/-- The kind of an invocation. -/
def Mode.kind : Mode → String
  | call => "call"
  | spawn => "spawn"

/-- The kind of a choice between two alternatives. -/
def BranchKind.kind : BranchKind → String
  | condition => "if"
  | loop => "if_for"

/-- The action as a statement. -/
def Action.json : Action → Value
  | newChannel name element capacity =>
    .obj [("kind", .str "new_chan"), ("name", .str name), ("chan", .str element),
      ("size", .num capacity.toNat)]
  | newLock kind name => .obj [("kind", .str kind.kind), ("name", .str name)]
  | perform verb name => .obj [("kind", .str verb.kind), (verb.member, .str name)]

mutual

/-- The statement as an object. -/
def Stmt.json : Stmt → Value
  | .tau => .obj [("kind", .str "tau")]
  | .act action => action.json
  | .invoke mode invocation => .obj [("kind", .str mode.kind), ("call", invocation.json)]
  | .branch kind yes no =>
    .obj [("kind", .str kind.kind), ("then", .arr (Block.json yes)), ("els", .arr (Block.json no))]
  | .select cases => .obj [("kind", .str "select"), ("cases", .arr (Choices.json cases))]

/-- The statements as the items of an array. -/
def Block.json : Block → List Value
  | [] => []
  | s :: block => s.json :: Block.json block

/-- The alternatives as the items of an array. -/
def Choices.json : Choices → List Value
  | [] => []
  | block :: cases => .arr (Block.json block) :: Choices.json cases

end

/-- The function as an object. -/
def Func.json (f : Func) : Value :=
  .obj [("name", .str f.name), ("params", .arr (f.params.map Binding.json)),
    ("block", .arr (Block.json f.body))]

/-- The program as an object. -/
def Program.json (p : Program) : Value := .obj [("functions", .arr (p.functions.map Func.json))]

/-- The program as JSON on indented lines, without a line break at the end. -/
def Program.jsonText (p : Program) : String := p.json.layout 0

end BehaviouralTypes
