import BehaviouralTypes.Proofs.Table
import BehaviouralTypes.Proofs.Tidying
import BehaviouralTypes.Simplify.Pass
import Mathlib.Logic.Relation

/-!
# The graph of calls

What the analyses know of a program is a graph: the defined names, the names whose bodies act, and
who invokes whom. A name is live when a chain of invocations leads from it to an action. A program
restricts another when its graph is the part of the other's graph on its own names. Removing
definitions and tidying bodies both restrict, so what holds of restrictions holds of each pass and
of the simplification as a whole.
-/

namespace BehaviouralTypes

namespace Program

variable {p q r : Program} {n m : Name} {f : Func}

/-! ### Tidying and the table -/

/-- Tidying keeps the names. -/
@[simp] theorem names_tidy : p.tidy.names = p.names := names_mapBodies _

/-- Tidying changes the bodies of the definitions only. -/
theorem find?_tidy :
    p.tidy.find? n = (p.find? n).map fun f => { f with body := f.body.tidy p.names } :=
  find?_mapBodies _

/-! ### Edges, actions and live names -/

/-- Whether the body of the first function invokes the second and both are defined. -/
def Leads (p : Program) (n m : Name) : Prop :=
  ∃ f, p.find? n = some f ∧ m ∈ f.body.targets ∧ m ∈ p.names

/-- Whether the name is defined by a body that acts at some depth. -/
def Acts (p : Program) (n : Name) : Prop := ∃ f, p.find? n = some f ∧ f.body.Acts

/-- Whether invocations lead from one name to the other in any number of steps. -/
def Reaches (p : Program) : Name → Name → Prop := Relation.ReflTransGen p.Leads

/-- The names from which invocations lead to an action. -/
inductive Live (p : Program) : Name → Prop
  /-- The body itself acts. -/
  | acts {n : Name} : p.Acts n → p.Live n
  /-- The body invokes a live function. -/
  | leads {n m : Name} : p.Leads n m → p.Live m → p.Live n

/-- An edge leads from a defined name. -/
theorem Leads.source (edge : p.Leads n m) : n ∈ p.names := by
  obtain ⟨f, found, -⟩ := edge
  exact mem_names_iff_find?.2 ⟨f, found⟩

/-- An edge leads to a defined name. -/
theorem Leads.target (edge : p.Leads n m) : m ∈ p.names := by
  obtain ⟨f, -, -, known⟩ := edge
  exact known

/-- What acts is defined. -/
theorem Acts.defined (acts : p.Acts n) : n ∈ p.names := by
  obtain ⟨f, found, -⟩ := acts
  exact mem_names_iff_find?.2 ⟨f, found⟩

/-- What is live is defined. -/
theorem Live.defined (live : p.Live n) : n ∈ p.names := by
  cases live with
  | acts acts => exact acts.defined
  | leads edge _ => exact edge.source

/-- Whatever reaches a live name is live. -/
theorem Live.of_reaches (path : p.Reaches n m) (live : p.Live m) : p.Live n := by
  induction path with
  | refl => exact live
  | tail _ edge ih => exact ih (.leads edge live)

/-! ### Restrictions -/

/-- The first program has the graph of the second on the names that it defines. -/
structure Restricts (q p : Program) : Prop where
  /-- It defines nothing new. -/
  names : ∀ n ∈ q.names, n ∈ p.names
  /-- Its bodies act where those of the other do. -/
  acts : ∀ n ∈ q.names, (q.Acts n ↔ p.Acts n)
  /-- It has the edges between its names. -/
  leads : ∀ n ∈ q.names, ∀ m ∈ q.names, (q.Leads n m ↔ p.Leads n m)

/-- Restricting is transitive. -/
theorem Restricts.trans (first : r.Restricts q) (second : q.Restricts p) : r.Restricts p where
  names n inside := second.names n (first.names n inside)
  acts n inside := (first.acts n inside).trans (second.acts n (first.names n inside))
  leads n source m target := (first.leads n source m target).trans
    (second.leads n (first.names n source) m (first.names m target))

/-- A program restricts itself. -/
theorem Restricts.refl (p : Program) : p.Restricts p where
  names _ inside := inside
  acts _ _ := Iff.rfl
  leads _ _ _ _ := Iff.rfl

/-- Removing definitions restricts: the bodies that are left are the same. -/
theorem retain_restricts (keep : Func → Bool) (p : Program) : (p.retain keep).Restricts p where
  names n inside := by
    obtain ⟨f, found, -⟩ := mem_names_retain.1 inside
    exact mem_names_iff_find?.2 ⟨f, found⟩
  acts n inside := by
    obtain ⟨f, found, kept⟩ := mem_names_retain.1 inside
    have still := find?_retain.2 ⟨found, kept⟩
    simp only [Acts, found, still]
  leads n source m target := by
    obtain ⟨f, found, kept⟩ := mem_names_retain.1 source
    obtain ⟨g, known, -⟩ := mem_names_retain.1 target
    have still := find?_retain.2 ⟨found, kept⟩
    have inside := mem_names_iff_find?.2 ⟨g, known⟩
    simp only [Leads, found, still, target, inside]

/-- Tidying restricts: it drops no action and no invocation of a defined name. -/
theorem tidy_restricts (p : Program) : p.tidy.Restricts p where
  names n inside := by rwa [names_tidy] at inside
  acts n _ := by
    simp only [Acts, find?_tidy, Option.map_eq_some_iff]
    constructor
    · rintro ⟨_, ⟨f, found, rfl⟩, acts⟩
      exact ⟨f, found, Block.acts_tidy.1 acts⟩
    · rintro ⟨f, found, acts⟩
      exact ⟨_, ⟨f, found, rfl⟩, Block.acts_tidy.2 acts⟩
  leads n _ m _ := by
    simp only [Leads, find?_tidy, Option.map_eq_some_iff, names_tidy]
    constructor
    · rintro ⟨_, ⟨f, found, rfl⟩, target, known⟩
      exact ⟨f, found, (Block.mem_targets_tidy.1 target).1, known⟩
    · rintro ⟨f, found, target, known⟩
      exact ⟨_, ⟨f, found, rfl⟩, Block.mem_targets_tidy.2 ⟨target, known⟩, known⟩

/-- A path of a restriction is a path of the program. -/
theorem Restricts.reaches (part : q.Restricts p) (path : q.Reaches n m) : p.Reaches n m := by
  induction path with
  | refl => exact .refl
  | tail _ edge ih => exact ih.tail ((part.leads _ edge.source _ edge.target).1 edge)

/-- What is live in a restriction is live in the program. -/
theorem Restricts.live (part : q.Restricts p) (live : q.Live n) : p.Live n := by
  induction live with
  | acts acts => exact .acts ((part.acts _ acts.defined).1 acts)
  | leads edge _ ih => exact .leads ((part.leads _ edge.source _ edge.target).1 edge) ih

/-- A restriction that keeps the live functions that its functions invoke has the same live
functions among its own. -/
theorem Restricts.live_of_live (part : q.Restricts p)
    (closed : ∀ n ∈ q.names, ∀ m, p.Leads n m → p.Live m → m ∈ q.names)
    (live : p.Live n) (kept : n ∈ q.names) : q.Live n := by
  induction live with
  | acts acts => exact .acts ((part.acts _ kept).2 acts)
  | leads edge live ih =>
    have target := closed _ kept _ edge live
    exact .leads ((part.leads _ kept _ target).2 edge) (ih target)

/-- A restriction that keeps the live functions that a name reaches lets it reach them still. The
path to a live function runs through live functions only, so none of its steps is lost. -/
theorem Restricts.reaches_of_live (part : q.Restricts p)
    (closed : ∀ m, p.Reaches n m → p.Live m → m ∈ q.names)
    (path : p.Reaches n m) (live : p.Live m) : q.Reaches n m := by
  induction path with
  | refl => exact .refl
  | @tail k m before edge ih =>
    have source : p.Live k := .leads edge live
    have kept := closed k before source
    have target := closed m (before.tail edge) live
    exact (ih source).tail ((part.leads k kept m target).2 edge)

end Program

end BehaviouralTypes
