import BehaviouralTypes.Json.Program
import BehaviouralTypes.Proofs.Json.Reader
import BehaviouralTypes.Proofs.Nesting
import BehaviouralTypes.Text.Keyword

/-!
# Programs from JSON

Each construct of a program is recovered from its object: the kind tells which statement it is, and
the members under their keys tell the rest. No two kinds are spelled the same, so nothing is lost,
not even what the textual form does not show, and every program is recovered from its text of JSON
(`Program.ofJsonText?_jsonText`).
-/

namespace BehaviouralTypes

open Json (Value)

/-! ### Recovering a program -/

/-- The binding that the value describes. -/
def Binding.ofJson? : Value → Option Binding
  | .obj [("caller", .str caller), ("callee", .str callee)] => some ⟨caller, callee⟩
  | _ => none

/-- The invocation that the value describes. -/
def Invocation.ofJson? : Value → Option Invocation
  | .obj [("function", .str target), ("params", .arr bindings)] => do
    return ⟨target, ← bindings.mapM Binding.ofJson?⟩
  | _ => none

/-- The verb of statements of that kind. -/
def Verb.ofKind? (kind : String) : Option Verb := all.find? (·.kind = kind)

/-- The sort of lock that statements of that kind create. -/
def LockKind.ofKind? (kind : String) : Option LockKind := [mutex, rwMutex].find? (·.kind = kind)

/-- The mode of invocations of that kind. -/
def Mode.ofKind? (kind : String) : Option Mode := [call, spawn].find? (·.kind = kind)

/-- The choice between two alternatives of that kind. -/
def BranchKind.ofKind? (kind : String) : Option BranchKind :=
  [condition, loop].find? (·.kind = kind)

/-- The action that the value describes. -/
def Action.ofJson? : Value → Option Action
  | .obj [("kind", .str "new_chan"), ("name", .str name), ("chan", .str element),
      ("size", .num capacity)] =>
    if capacity < UInt64.size then some (.newChannel name element (.ofNat capacity)) else none
  | .obj [("kind", .str kind), (member, .str name)] =>
    match LockKind.ofKind? kind, Verb.ofKind? kind with
    | some lock, _ => if member = "name" then some (.newLock lock name) else none
    | none, some verb => if member = verb.member then some (.perform verb name) else none
    | none, none => none
  | _ => none

mutual

/-- The statement that the value describes. -/
def Stmt.ofJson? : Value → Option Stmt
  | .obj [("kind", .str "tau")] => some .tau
  | .obj [("kind", .str kind), ("call", invocation)] => do
    return .invoke (← Mode.ofKind? kind) (← Invocation.ofJson? invocation)
  | .obj [("kind", .str kind), ("then", .arr yes), ("els", .arr no)] => do
    return .branch (← BranchKind.ofKind? kind) (← Block.ofJson? yes) (← Block.ofJson? no)
  | .obj [("kind", .str "select"), ("cases", .arr cases)] => do
    return .select (← Choices.ofJson? cases)
  | value => (Action.ofJson? value).map .act

/-- The block whose statements the values describe. -/
def Block.ofJson? : List Value → Option Block
  | [] => some []
  | value :: rest => do return (← Stmt.ofJson? value) :: (← Block.ofJson? rest)

/-- The alternatives that the values describe. -/
def Choices.ofJson? : List Value → Option Choices
  | [] => some []
  | .arr items :: rest => do return (← Block.ofJson? items) :: (← Choices.ofJson? rest)
  | _ :: _ => none

end

/-- The function that the value describes. -/
def Func.ofJson? : Value → Option Func
  | .obj [("name", .str name), ("params", .arr params), ("block", .arr body)] => do
    return ⟨name, ← params.mapM Binding.ofJson?, ← Block.ofJson? body⟩
  | _ => none

namespace Program

/-- The program of these functions, unless a name is defined twice. -/
def ofFunctions? (functions : List Func) : Option Program :=
  if nodup : (functions.map (·.name)).Nodup then some ⟨functions, nodup⟩ else none

/-- The program that the value describes. -/
def ofJson? : Value → Option Program
  | .obj [("functions", .arr functions)] => do ofFunctions? (← functions.mapM Func.ofJson?)
  | _ => none

/-- The program that a text of JSON describes. -/
def ofJsonText? (text : String) : Option Program := do ofJson? (← Value.ofText? text)

end Program

/-! ### What is written is recovered -/

/-- A list is recovered member by member. -/
theorem mapM_map_eq_some {α β : Type} {write : α → β} {read : β → Option α}
    (inverse : ∀ a, read (write a) = some a) (list : List α) :
    (list.map write).mapM read = some list := by
  have undone : read ∘ write = fun a => pure (id a) := funext inverse
  rw [List.mapM_map, undone, List.mapM_pure, List.map_id]
  rfl

/-- A binding is read back. -/
theorem Binding.ofJson?_json (b : Binding) : ofJson? b.json = some b := by
  rw [json, ofJson?]

/-- An invocation is read back. -/
theorem Invocation.ofJson?_json (i : Invocation) : ofJson? i.json = some i := by
  have bindings := mapM_map_eq_some Binding.ofJson?_json i.bindings
  rw [json, ofJson?, bindings]
  rfl

/-- An action is read back. -/
theorem Action.ofJson?_json (a : Action) : ofJson? a.json = some a := by
  cases a with
  | newChannel name element capacity =>
    rw [json, ofJson?, if_pos capacity.toNat_lt_size, UInt64.ofNat_toNat]
  | newLock kind name => cases kind <;> rfl
  | perform verb name => cases verb <;> rfl

/-- An action is recovered as an action, since no other statement has its kind and its members. -/
theorem Stmt.ofJson?_act (a : Action) : Stmt.ofJson? a.json = some (.act a) := by
  have same : Stmt.ofJson? a.json = (Action.ofJson? a.json).map .act := by
    cases a with
    | newChannel name element capacity => rfl
    | newLock kind name => cases kind <;> rfl
    | perform verb name => cases verb <;> rfl
  rw [same, Action.ofJson?_json, Option.map_some]

/-- Alternatives are read back if each of them is. -/
theorem Choices.ofJson?_json {cases : Choices}
    (all : ∀ b ∈ cases, Block.ofJson? (Block.json b) = some b) :
    Choices.ofJson? (Choices.json cases) = some cases := by
  induction cases with
  | nil => rw [Choices.json, Choices.ofJson?]
  | cons b cases ih =>
    obtain ⟨first, others⟩ := List.forall_mem_cons.1 all
    rw [Choices.json, Choices.ofJson?, first, ih others]
    rfl

/-- A statement is recovered if its bodies are. -/
theorem Stmt.ofJson?_json {s : Stmt}
    (bodies : ∀ body ∈ s.bodies, Block.ofJson? (Block.json body) = some body) :
    Stmt.ofJson? s.json = some s := by
  cases s with
  | tau => rw [Stmt.json, Stmt.ofJson?]
  | act action => rw [Stmt.json, Stmt.ofJson?_act]
  | invoke mode invocation =>
    rw [Stmt.json, Stmt.ofJson?, Invocation.ofJson?_json]
    cases mode <;> rfl
  | branch kind yes no =>
    have first := bodies yes List.mem_cons_self
    have second := bodies no (List.mem_cons_of_mem _ List.mem_cons_self)
    rw [Stmt.json, Stmt.ofJson?, first, second]
    cases kind <;> rfl
  | select cases =>
    have inner : Choices.ofJson? (Choices.json cases) = some cases := Choices.ofJson?_json bodies
    rw [Stmt.json, Stmt.ofJson?, inner]
    rfl

/-- A block is read back. -/
theorem Block.ofJson?_json (b : Block) : Block.ofJson? (Block.json b) = some b := by
  induction b using Block.induction with
  | nil => rw [Block.json, Block.ofJson?]
  | cons s b bodies rest =>
    rw [Block.json, Block.ofJson?, Stmt.ofJson?_json bodies, rest]
    rfl

/-- A function is read back. -/
theorem Func.ofJson?_json (f : Func) : ofJson? f.json = some f := by
  have params := mapM_map_eq_some Binding.ofJson?_json f.params
  rw [json, ofJson?, params, Block.ofJson?_json]
  rfl

namespace Program

/-- A program is read back. -/
theorem ofJson?_json (p : Program) : ofJson? p.json = some p := by
  have functions := mapM_map_eq_some Func.ofJson?_json p.functions
  have known : ofFunctions? p.functions = some p := by
    rw [ofFunctions?, dif_pos p.nodup]
  rw [json, ofJson?, functions]
  exact known

/-- **JSON loses nothing.** Every program is recovered from its text of JSON, so no two programs
have the same text. -/
theorem ofJsonText?_jsonText :
    (∀ p : Program, ofJsonText? p.jsonText = some p) ∧ Function.Injective jsonText := by
  have recovered : ∀ p : Program, ofJsonText? p.jsonText = some p := by
    intro p
    have value := Value.ofText?_layout p.json 0
    have known := ofJson?_json p
    rw [ofJsonText?, jsonText, value]
    exact known
  refine ⟨recovered, fun p q same => ?_⟩
  have both : some p = some q := by rw [← recovered p, ← recovered q, same]
  exact Option.some.inj both

/-- The lines of the text do not matter, and a character may be written by its code. -/
example : ofJsonText? ("\x7b\"functions\": [\x7b\"name\": \"\\u0061\", \"params\": [], " ++
    "\"block\": [\x7b\"kind\": \"send\", \"chan\": \"c\"\x7d]\x7d]\x7d") =
    some ⟨[⟨"a", [], [.act (.perform .send "c")]⟩], by decide⟩ := by
  decide +kernel

end Program

end BehaviouralTypes
