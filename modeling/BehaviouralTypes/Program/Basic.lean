import BehaviouralTypes.Block.Basic

/-!
# Programs

A program is a table of function definitions. Their order is part of the program, and the type
rules out two definitions of one name, so a name stands for at most one function.
-/

namespace BehaviouralTypes

/-- A function definition. -/
structure Func where
  /-- The name that calls and spawns refer to. -/
  name : Name
  /-- The formal parameters, in order. -/
  params : List Binding
  /-- The actions that the function performs. -/
  body : Block
deriving DecidableEq

/-- Whether the body has no statement or only the one `tau`. -/
def Func.isEmpty (f : Func) : Bool := f.body.isEmpty || f.body.isTau

/-- Function definitions in order, at most one for each name. -/
structure Program where
  /-- The definitions. -/
  functions : List Func
  /-- No name is defined twice. -/
  nodup : (functions.map (·.name)).Nodup
deriving DecidableEq

/-- The refusal to define a name again. -/
structure Redefinition where
  /-- The name that has a definition already. -/
  name : Name
deriving DecidableEq, Repr

/-- The wording of the refusal. -/
def Redefinition.message (e : Redefinition) : String :=
  s!"Function {e.name} is defined more than once"

namespace Program

/-- The program without functions. -/
def empty : Program := ⟨[], List.nodup_nil⟩

instance : Inhabited Program := ⟨empty⟩

/-- The defined names, in order. -/
def names (p : Program) : List Name := p.functions.map (·.name)

/-- The number of functions. -/
def size (p : Program) : Nat := p.functions.length

/-- The definition of a name. -/
def find? (p : Program) (name : Name) : Option Func := p.functions.find? (·.name = name)

/-- Whether the name is defined. -/
def defines (p : Program) (name : Name) : Bool := name ∈ p.names

/-- Each defined name with its place in the order, counted from zero. -/
def indices (p : Program) : List (Name × Nat) := p.names.zipIdx

/-- Adds a definition at the end, unless its name is taken. -/
def add (p : Program) (f : Func) : Except Redefinition Program :=
  if taken : f.name ∈ p.names then
    .error ⟨f.name⟩
  else
    .ok ⟨p.functions ++ [f], by
      simp only [List.map_append, List.map_cons, List.map_nil]
      exact List.nodup_append.2 ⟨p.nodup, List.nodup_cons.2 ⟨List.not_mem_nil, List.nodup_nil⟩, by
        intro n known m fresh same
        simp only [List.mem_singleton] at fresh
        exact taken (fresh ▸ same ▸ known)⟩⟩

/-- Adds definitions in order, up to the first whose name is taken. -/
def addAll (p : Program) : List Func → Except Redefinition Program
  | [] => .ok p
  | f :: rest => match p.add f with
    | .ok q => q.addAll rest
    | .error e => .error e

/-- Keeps the functions that pass the test, in their order. -/
def retain (keep : Func → Bool) (p : Program) : Program :=
  ⟨p.functions.filter keep, p.nodup.sublist (List.filter_sublist.map _)⟩

/-- The names of the functions that fail the test, in order. -/
def discarded (keep : Func → Bool) (p : Program) : List Name :=
  (p.functions.filter (!keep ·)).map (·.name)

/-- Removes the definition of a name, if there is one. -/
def erase (name : Name) (p : Program) : Program := p.retain (·.name ≠ name)

/-- Changes every body and leaves the names and parameters alone. -/
def mapBodies (g : Func → Block) (p : Program) : Program :=
  ⟨p.functions.map fun f => { f with body := g f }, by
    have same : (p.functions.map fun f => { f with body := g f }).map (·.name) =
        p.functions.map (·.name) := by
      rw [List.map_map]; rfl
    rw [same]; exact p.nodup⟩

/-- Changes the body of one function, if it is defined. -/
def modifyBody (name : Name) (g : Block → Block) (p : Program) : Program :=
  p.mapBodies fun f => if f.name = name then g f.body else f.body

end Program

end BehaviouralTypes
