import Mathlib.Data.List.Basic
import BehaviouralTypes.Program.Silence

/-!
# Statements at any depth

A choice nests blocks inside a statement, and the functions of the library follow that shape by
recursions over statements, blocks and alternatives together. This module gives one induction for
all of them: what holds of the bodies of the first statement and of the rest of a block holds of
the block. Each recursion gets one equation for a nonempty block, and each analysis one description
by the list of all statements at any depth.
-/

namespace BehaviouralTypes

/-! ### Induction -/

/-- A body is a smaller term than the statement it stands in. -/
theorem Stmt.sizeOf_body_lt {s : Stmt} {body : Block} (inside : body ∈ s.bodies) :
    sizeOf body < sizeOf s := by
  cases s with
  | tau => exact absurd inside List.not_mem_nil
  | act action => exact absurd inside List.not_mem_nil
  | invoke mode invocation => exact absurd inside List.not_mem_nil
  | branch kind yes no =>
    simp only [Stmt.bodies, List.mem_cons, List.not_mem_nil, or_false] at inside
    rcases inside with rfl | rfl
    · simp only [Stmt.branch.sizeOf_spec]
      omega
    · simp only [Stmt.branch.sizeOf_spec]
      omega
  | select cases =>
    have smaller := List.sizeOf_lt_of_mem (show body ∈ cases from inside)
    simp only [Stmt.select.sizeOf_spec]
    omega

/-- Induction on blocks. The bodies of the first statement and the rest of the block are both
smaller than the block. -/
@[elab_as_elim]
theorem Block.induction {motive : Block → Prop} (nil : motive [])
    (cons : ∀ (s : Stmt) (rest : Block), (∀ body ∈ s.bodies, motive body) → motive rest →
      motive (s :: rest)) : ∀ b : Block, motive b
  | [] => nil
  | s :: rest =>
    cons s rest (fun body _ => Block.induction nil cons body) (Block.induction nil cons rest)
termination_by b => sizeOf b
decreasing_by
  · have smaller := Stmt.sizeOf_body_lt ‹_›
    simp only [List.cons.sizeOf_spec]
    omega
  · simp only [List.cons.sizeOf_spec]
    omega

/-! ### Choices -/

namespace Stmt

/-- Whether the statement is a branch or a selection. -/
def isChoice : Stmt → Bool
  | branch _ _ _ | select _ => true
  | tau | act _ | invoke _ _ => false

/-- The statement with every body changed. -/
def mapBodies (change : Block → Block) : Stmt → Stmt
  | branch kind yes no => branch kind (change yes) (change no)
  | select cases => select (cases.map change)
  | tau => tau
  | act action => act action
  | invoke mode invocation => invoke mode invocation

/-- A change of the bodies changes each of them. -/
@[simp] theorem bodies_mapBodies (change : Block → Block) (s : Stmt) :
    (s.mapBodies change).bodies = s.bodies.map change := by
  cases s <;> rfl

/-- A change of the bodies leaves the invocation as it is. -/
@[simp] theorem invocation?_mapBodies (change : Block → Block) (s : Stmt) :
    (s.mapBodies change).invocation? = s.invocation? := by
  cases s <;> rfl

/-- A change of the bodies leaves a choice a choice. -/
@[simp] theorem isChoice_mapBodies (change : Block → Block) (s : Stmt) :
    (s.mapBodies change).isChoice = s.isChoice := by
  cases s <;> rfl

/-- A change that leaves every body alone leaves the statement alone. -/
theorem mapBodies_eq_self {change : Block → Block} {s : Stmt}
    (same : ∀ body ∈ s.bodies, change body = body) : s.mapBodies change = s := by
  cases s with
  | tau => rfl
  | act action => rfl
  | invoke mode invocation => rfl
  | branch kind yes no =>
    have first := same yes List.mem_cons_self
    have second := same no (List.mem_cons_of_mem _ List.mem_cons_self)
    simp only [mapBodies, first, second]
  | select cases =>
    have all : cases.map change = cases.map id :=
      List.map_congr_left fun body inside => same body inside
    rw [List.map_id] at all
    simp only [mapBodies, all]

/-- Two changes of every body one after the other are one change if they agree with it there. -/
theorem mapBodies_mapBodies {first second both : Block → Block} {s : Stmt}
    (same : ∀ body ∈ s.bodies, second (first body) = both body) :
    (s.mapBodies first).mapBodies second = s.mapBodies both := by
  cases s with
  | tau => rfl
  | act action => rfl
  | invoke mode invocation => rfl
  | branch kind yes no =>
    have here := same yes List.mem_cons_self
    have there := same no (List.mem_cons_of_mem _ List.mem_cons_self)
    simp only [mapBodies, here, there]
  | select cases =>
    have all : (cases.map first).map second = cases.map both := by
      rw [List.map_map]
      exact List.map_congr_left fun body inside => same body inside
    simp only [mapBodies, all]

/-- A statement that became one without bodies had none to change. -/
theorem eq_of_mapBodies_eq {change : Block → Block} {s t : Stmt}
    (changed : s.mapBodies change = t) (bare : t.bodies = []) : s = t := by
  rw [← changed, bodies_mapBodies, List.map_eq_nil_iff] at bare
  have none : ∀ body ∈ s.bodies, change body = body := by
    rw [bare]
    exact List.forall_mem_nil _
  rw [← changed, mapBodies_eq_self none]

/-- An action has no bodies. -/
theorem bodies_of_isObservable {s : Stmt} (seen : s.isObservable = true) : s.bodies = [] := by
  cases s with
  | act action => rfl
  | tau | invoke | branch | select => cases seen

end Stmt

/-! ### All statements of a block -/

mutual

/-- The statements inside the bodies of the statement, at any depth and from left to right. -/
def Stmt.nested : Stmt → List Stmt
  | .tau | .act _ | .invoke _ _ => []
  | .branch _ yes no => Block.statements yes ++ Block.statements no
  | .select cases => Choices.statements cases

/-- Every statement of the block at any depth, from left to right, each before those it holds. -/
def Block.statements : Block → List Stmt
  | [] => []
  | s :: block => s :: s.nested ++ Block.statements block

/-- Every statement of the alternatives at any depth, from left to right. -/
def Choices.statements : Choices → List Stmt
  | [] => []
  | block :: cases => Block.statements block ++ Choices.statements cases

end

/-- An empty block has no statements. -/
@[simp] theorem Block.statements_nil : Block.statements [] = [] := by
  rw [Block.statements]

/-- The statements of alternatives are those of each of them. -/
theorem Choices.statements_eq (cases : Choices) :
    Choices.statements cases = cases.flatMap Block.statements := by
  induction cases with
  | nil => rw [Choices.statements, List.flatMap_nil]
  | cons block cases ih => rw [Choices.statements, List.flatMap_cons, ih]

/-- The statements inside a statement are those of its bodies. -/
theorem Stmt.nested_eq (s : Stmt) : s.nested = s.bodies.flatMap Block.statements := by
  cases s <;> simp [Stmt.nested, Stmt.bodies, Choices.statements_eq]

/-- The statements of a block are its first one, those inside it and those behind it. -/
theorem Block.statements_cons (s : Stmt) (b : Block) :
    Block.statements (s :: b) = s :: s.bodies.flatMap Block.statements ++ b.statements := by
  rw [Block.statements, Stmt.nested_eq]

/-- A statement of a nonempty block is the first one, stands in a body of it, or comes later. -/
theorem Block.mem_statements_cons {t s : Stmt} {b : Block} :
    t ∈ Block.statements (s :: b) ↔
      t = s ∨ (∃ body ∈ s.bodies, t ∈ body.statements) ∨ t ∈ b.statements := by
  simp only [Block.statements_cons, List.cons_append, List.mem_cons, List.mem_append,
    List.mem_flatMap]

/-- The first statement of a block is one of its statements. -/
theorem Block.head_mem_statements (s : Stmt) (b : Block) : s ∈ Block.statements (s :: b) :=
  Block.mem_statements_cons.2 (.inl rfl)

/-- The statements of a body are statements of the block. -/
theorem Block.mem_statements_of_body {t s : Stmt} {body b : Block} (inside : body ∈ s.bodies)
    (deep : t ∈ body.statements) : t ∈ Block.statements (s :: b) :=
  Block.mem_statements_cons.2 (.inr (.inl ⟨body, inside, deep⟩))

/-- The statements behind the first one are statements of the block. -/
theorem Block.mem_statements_of_tail {t s : Stmt} {b : Block} (later : t ∈ b.statements) :
    t ∈ Block.statements (s :: b) :=
  Block.mem_statements_cons.2 (.inr (.inr later))

/-- Induction on a block in which every statement, at any depth, has a property: the bodies of the
first statement and the rest of the block are such blocks again. -/
@[elab_as_elim]
theorem Block.induction_of_forall {holds : Stmt → Prop} {motive : Block → Prop} (nil : motive [])
    (cons : ∀ (s : Stmt) (rest : Block), holds s → (∀ body ∈ s.bodies, motive body) →
      motive rest → motive (s :: rest)) (b : Block) (all : ∀ s ∈ b.statements, holds s) :
    motive b := by
  induction b using Block.induction with
  | nil => exact nil
  | cons s b bodies rest =>
    refine cons s b (all s (head_mem_statements s b)) (fun body inside => ?_) ?_
    · exact bodies body inside fun t deep => all t (mem_statements_of_body inside deep)
    · exact rest fun t deep => all t (mem_statements_of_tail deep)

/-- A statement of a block stands directly in it or in a body of a statement that does. -/
theorem Block.mem_statements {t : Stmt} {b : Block} :
    t ∈ b.statements ↔ ∃ s ∈ b, t = s ∨ ∃ body ∈ s.bodies, t ∈ body.statements := by
  induction b with
  | nil => simp
  | cons s b ih => simp only [Block.mem_statements_cons, ih, List.exists_mem_cons_iff, or_assoc]

/-- What stands in a statement of a block stands in the block. -/
theorem Block.mem_statements_of_mem {t s : Stmt} {b : Block} (inside : s ∈ b)
    (deep : t ∈ Block.statements [s]) : t ∈ b.statements := by
  obtain ⟨u, same, found⟩ := Block.mem_statements.1 deep
  rw [List.mem_singleton.1 same] at found
  exact Block.mem_statements.2 ⟨s, inside, found⟩

/-! ### Invocations -/

/-- The invocations of alternatives are those of each of them. -/
theorem Choices.invocations_eq (cases : Choices) :
    Choices.invocations cases = cases.flatMap Block.invocations := by
  induction cases with
  | nil => rw [Choices.invocations, List.flatMap_nil]
  | cons block cases ih => rw [Choices.invocations, List.flatMap_cons, ih]

/-- The invocations of a block are its first statement's own, those inside it and those behind. -/
theorem Block.invocations_cons (s : Stmt) (b : Block) :
    Block.invocations (s :: b) =
      s.invocation?.toList ++ s.bodies.flatMap Block.invocations ++ b.invocations := by
  rw [Block.invocations]
  cases s <;>
    simp [Stmt.invocations, Stmt.invocation?, Stmt.bodies, Choices.invocations_eq]

/-- The invocations of a block are those of its statements. -/
theorem Block.invocations_eq (b : Block) :
    b.invocations = b.statements.filterMap Stmt.invocation? := by
  induction b using Block.induction with
  | nil => rw [Block.invocations, Block.statements_nil, List.filterMap_nil]
  | cons s b bodies rest =>
    have inner : s.bodies.flatMap Block.invocations =
        (s.bodies.flatMap Block.statements).filterMap Stmt.invocation? := by
      rw [List.filterMap_flatMap]
      exact List.flatMap_congr bodies
    rw [Block.invocations_cons, Block.statements_cons, List.cons_append, List.filterMap_cons,
      List.filterMap_append, inner, rest]
    cases s.invocation? <;> simp

/-- A target is what some statement calls or spawns. -/
theorem Block.mem_targets {n : Name} {b : Block} :
    n ∈ b.targets ↔ ∃ s ∈ b.statements, ∃ i, s.invocation? = some i ∧ i.target = n := by
  simp only [Block.targets, Block.invocations_eq, List.mem_map, List.mem_filterMap]
  constructor
  · rintro ⟨i, ⟨s, inside, found⟩, named⟩
    exact ⟨s, inside, i, found, named⟩
  · rintro ⟨s, inside, i, found, named⟩
    exact ⟨i, ⟨s, inside, found⟩, named⟩

/-! ### Sequences -/

/-- The sequences of alternatives are those of each of them. -/
theorem Choices.sequences_eq (cases : Choices) :
    Choices.sequences cases = cases.flatMap Block.sequences := by
  induction cases with
  | nil => rw [Choices.sequences, List.flatMap_nil]
  | cons block cases ih => rw [Choices.sequences, List.flatMap_cons, ih]; rfl

/-- The sequences inside a block are those in its first statement and in those behind it. -/
theorem Block.inner_cons (s : Stmt) (b : Block) :
    Block.inner (s :: b) = s.bodies.flatMap Block.sequences ++ b.inner := by
  rw [Block.inner]
  cases s <;>
    simp [Stmt.sequences, Stmt.bodies, Choices.sequences_eq, Block.sequences]

/-- A sequence inside a block is one of a body that stands in it. -/
theorem Block.mem_inner {c b : Block} :
    c ∈ b.inner ↔ ∃ s ∈ b, ∃ body ∈ s.bodies, c ∈ body.sequences := by
  induction b with
  | nil => simp [Block.inner]
  | cons s b ih => simp [Block.inner_cons, ih]

/-! ### Silence -/

/-- Alternatives are silent if each of them is. -/
theorem Choices.isSilent_eq (loud : List Name) (cases : Choices) :
    Choices.isSilent loud cases = cases.all (Block.isSilent loud) := by
  induction cases with
  | nil => rw [Choices.isSilent, List.all_nil]
  | cons block cases ih => rw [Choices.isSilent, List.all_cons, ih]

/-- A statement is silent when it is no action, invokes no loud function and has silent bodies. -/
theorem Stmt.isSilent_iff {loud : List Name} {s : Stmt} :
    s.isSilent loud = true ↔ s.isObservable = false ∧
      (∀ i, s.invocation? = some i → i.target ∉ loud) ∧
      ∀ body ∈ s.bodies, Block.isSilent loud body = true := by
  cases s <;>
    simp [Stmt.isSilent, Stmt.isObservable, Stmt.invocation?, Stmt.bodies, Choices.isSilent_eq]

/-- An empty block is silent. -/
@[simp] theorem Block.isSilent_nil (loud : List Name) : Block.isSilent loud [] = true := by
  rw [Block.isSilent]

/-- A block is silent if its first statement is and those behind it are. -/
@[simp] theorem Block.isSilent_cons (loud : List Name) (s : Stmt) (b : Block) :
    Block.isSilent loud (s :: b) = (s.isSilent loud && b.isSilent loud) := by
  rw [Block.isSilent]

/-- A block is silent when every statement that stands directly in it is. -/
theorem Block.isSilent_iff_forall_mem {loud : List Name} {b : Block} :
    b.isSilent loud = true ↔ ∀ s ∈ b, s.isSilent loud = true := by
  induction b with
  | nil => simp
  | cons s b ih => simp [ih]

/-- A block is silent when no statement of it is an action and no target of it is loud. -/
theorem Block.isSilent_iff {loud : List Name} {b : Block} :
    b.isSilent loud = true ↔
      (∀ s ∈ b.statements, s.isObservable = false) ∧ ∀ n ∈ b.targets, n ∉ loud := by
  have deep : b.isSilent loud = true ↔ ∀ s ∈ b.statements,
      s.isObservable = false ∧ ∀ i, s.invocation? = some i → i.target ∉ loud := by
    induction b using Block.induction with
    | nil => simp
    | cons s b bodies rest =>
      rw [Block.isSilent_cons, Bool.and_eq_true, Stmt.isSilent_iff, rest]
      constructor
      · rintro ⟨⟨unseen, quiet, inner⟩, later⟩ t inside
        rcases Block.mem_statements_cons.1 inside with rfl | ⟨body, within, found⟩ | found
        · exact ⟨unseen, quiet⟩
        · exact (bodies body within).1 (inner body within) t found
        · exact later t found
      · intro all
        have head := all s (Block.head_mem_statements s b)
        refine ⟨⟨head.1, head.2, fun body within => (bodies body within).2 fun t found => ?_⟩,
          fun t found => all t (Block.mem_statements_of_tail found)⟩
        exact all t (Block.mem_statements_of_body within found)
  rw [deep]
  constructor
  · intro all
    refine ⟨fun s inside => (all s inside).1, fun n target => ?_⟩
    obtain ⟨s, inside, i, found, rfl⟩ := Block.mem_targets.1 target
    exact (all s inside).2 i found
  · rintro ⟨unseen, quiet⟩ s inside
    exact ⟨unseen s inside, fun i found => quiet i.target (Block.mem_targets.2
      ⟨s, inside, i, found, rfl⟩)⟩

end BehaviouralTypes
