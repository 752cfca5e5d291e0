import BehaviouralTypes.Proofs.Nesting
import Mathlib.Data.Set.Card

/-!
# Places in a block

The address of a place in a block consists of the numbers on the way to it, counted from zero: that
of a statement in the block, that of a body of this statement, that of a statement in this body, and
so on. In lexicographic order places run from left to right, and each comes before those inside it.
What the analyses list of a block is what stands at its places: nothing else, in this order, and
once for each place (`Block.enumerates_sequences`, `Block.enumerates_invocations`).
-/

namespace BehaviouralTypes

/-- The numbers on the way to a block or a statement inside another one, which tell its place. -/
abbrev Address := List Nat

/-! ### Lists by place -/

/-- Whether the list consists of what stands at the places, in their order. -/
def Enumerates {α : Type} (stands : Address → α → Prop) (list : List α) : Prop :=
  ∃ entries : List (Address × α), entries.map (·.2) = list ∧
    (entries.map (·.1)).Pairwise (· < ·) ∧ ∀ place x, (place, x) ∈ entries ↔ stands place x

namespace Enumerates

variable {α β : Type} {stands front back : Address → α → Prop} {list first second : List α}

/-- A list enumerates what stands at the same places. -/
theorem congr (given : Enumerates front list) (same : ∀ place x, front place x ↔ back place x) :
    Enumerates back list := by
  obtain ⟨entries, listed, sorted, mem⟩ := given
  exact ⟨entries, listed, sorted, fun place x => (mem place x).trans (same place x)⟩

/-- Where nothing stands, the empty list enumerates it. -/
theorem nil : Enumerates (fun _ _ => False) ([] : List α) :=
  ⟨[], rfl, .nil, fun _ _ => ⟨nofun, nofun⟩⟩

/-- What stands at the empty place alone. -/
theorem root (own : Option α) :
    Enumerates (fun place x => place = [] ∧ own = some x) own.toList := by
  refine ⟨own.toList.map ([], ·), ?_, ?_, fun place x => ?_⟩
  · cases own <;> rfl
  · cases own <;> simp
  · cases own <;> simp [eq_comm]

/-- Two lists one after the other, when the places of the first come before those of the second. -/
theorem append (left : Enumerates front first) (right : Enumerates back second)
    (before : ∀ p q x y, front p x → back q y → p < q) :
    Enumerates (fun place x => front place x ∨ back place x) (first ++ second) := by
  obtain ⟨early, rfl, sorted, inEarly⟩ := left
  obtain ⟨late, rfl, sorted', inLate⟩ := right
  refine ⟨early ++ late, List.map_append, ?_, fun place x => ?_⟩
  · rw [List.map_append, List.pairwise_append]
    refine ⟨sorted, sorted', fun p there q later => ?_⟩
    obtain ⟨⟨p, x⟩, listed, rfl⟩ := List.mem_map.1 there
    obtain ⟨⟨q, y⟩, listed', rfl⟩ := List.mem_map.1 later
    exact before p q x y ((inEarly p x).1 listed) ((inLate q y).1 listed')
  · rw [List.mem_append, inEarly, inLate]

/-- The same list at other places in the same order. -/
theorem move (shift : Address → Address) (up : ∀ p q, p < q → shift p < shift q)
    (given : Enumerates stands list) :
    Enumerates (fun place x => ∃ p, shift p = place ∧ stands p x) list := by
  obtain ⟨entries, rfl, sorted, mem⟩ := given
  refine ⟨entries.map fun entry => (shift entry.1, entry.2), ?_, ?_, fun place x => ?_⟩
  · rw [List.map_map]
    rfl
  · rw [List.map_map, List.pairwise_map]
    exact (List.pairwise_map.1 sorted).imp (up _ _)
  · rw [List.mem_map]
    constructor
    · rintro ⟨⟨p, y⟩, listed, same⟩
      obtain ⟨rfl, rfl⟩ := Prod.mk.inj same
      exact ⟨p, rfl, (mem p y).1 listed⟩
    · rintro ⟨p, rfl, found⟩
      exact ⟨(p, x), (mem p x).2 found, rfl⟩

/-- What stands in one of several parts. The first number of the place tells in which. -/
def Inside (holds : β → Address → α → Prop) (parts : List β) (place : Address) (x : α) : Prop :=
  ∃ i part rest, parts[i]? = some part ∧ place = i :: rest ∧ holds part rest x

/-- The place with one more part before it. -/
def later : Address → Address
  | [] => []
  | i :: rest => (i + 1) :: rest

/-- Places of later parts keep their order. -/
theorem later_lt_later : ∀ p q : Address, p < q → later p < later q
  | [], [], less => absurd less (List.lt_irrefl [])
  | [], j :: q, _ => List.nil_lt_cons (j + 1) q
  | i :: p, [], less => absurd less (List.not_lt_nil _)
  | i :: p, j :: q, less => by
    rw [List.cons_lt_cons_iff] at less
    exact List.cons_lt_cons_iff.2 (less.imp (by omega) fun ⟨same, rest⟩ => ⟨by omega, rest⟩)

/-- What stands in the first part has its number, and in the others the numbers are one less. -/
theorem inside_cons {holds : β → Address → α → Prop} {part : β} {parts : List β} {place : Address}
    {x : α} : Inside holds (part :: parts) place x ↔
      (∃ p, 0 :: p = place ∧ holds part p x) ∨ ∃ p, later p = place ∧ Inside holds parts p x := by
  constructor
  · rintro ⟨_ | i, found, rest, listed, rfl, holding⟩
    · cases listed
      exact .inl ⟨rest, rfl, holding⟩
    · exact .inr ⟨i :: rest, rfl, i, found, rest, listed, rfl, holding⟩
  · rintro (⟨rest, rfl, holding⟩ | ⟨_, rfl, i, found, rest, listed, rfl, holding⟩)
    · exact ⟨0, part, rest, rfl, rfl, holding⟩
    · exact ⟨i + 1, found, rest, listed, rfl, holding⟩

/-- Several parts are listed one after the other. -/
theorem flatMap {holds : β → Address → α → Prop} {listed : β → List α} {parts : List β}
    (each : ∀ part ∈ parts, Enumerates (holds part) (listed part)) :
    Enumerates (Inside holds parts) (parts.flatMap listed) := by
  induction parts with
  | nil => exact nil.congr fun place x => ⟨nofun, fun ⟨_, _, _, listed, _⟩ => nomatch listed⟩
  | cons part parts ih =>
    have here := (each part List.mem_cons_self).move (0 :: ·)
      fun p q less => List.cons_lt_cons_iff.2 (.inr ⟨rfl, less⟩)
    have there := (ih fun other inside => each other (List.mem_cons_of_mem _ inside)).move later
      later_lt_later
    refine (here.append there ?_).congr fun place x => inside_cons.symm
    rintro _ _ x y ⟨p, rfl, -⟩ ⟨_, rfl, i, found, q, -, rfl, -⟩
    exact List.cons_lt_cons_iff.2 (.inl i.succ_pos)

/-- What stands at the empty place comes before what stands in the parts. -/
theorem root_append_flatMap {holds : β → Address → α → Prop} {listed : β → List α} {parts : List β}
    (own : Option α) (each : ∀ part ∈ parts, Enumerates (holds part) (listed part)) :
    Enumerates (fun place x => place = [] ∧ own = some x ∨ Inside holds parts place x)
      (own.toList ++ parts.flatMap listed) := by
  refine (root own).append (flatMap each) ?_
  rintro _ _ x y ⟨rfl, -⟩ ⟨i, found, rest, -, rfl, -⟩
  exact List.nil_lt_cons i rest

/-! ### What the list tells -/

/-- What is enumerated stands somewhere. -/
theorem mem_iff {x : α} (given : Enumerates stands list) :
    x ∈ list ↔ ∃ place, stands place x := by
  obtain ⟨entries, rfl, -, mem⟩ := given
  simp only [List.mem_map, Prod.exists, exists_eq_right, mem]

/-- The list has as many elements with a property as there are places where one stands. -/
theorem encard_setOf (given : Enumerates stands list) (p : α → Bool) :
    {place | ∃ x, stands place x ∧ p x = true}.encard = list.countP p := by
  obtain ⟨entries, rfl, sorted, mem⟩ := given
  have distinct : ((entries.filter (p ·.2)).map (·.1)).Nodup :=
    (sorted.imp ne_of_lt).sublist (List.filter_sublist.map _)
  have places : {place | ∃ x, stands place x ∧ p x = true} =
      ((entries.filter (p ·.2)).map (·.1)).toFinset := by
    ext place
    simp only [Set.mem_ofPred_eq, List.coe_toFinset, List.mem_map, List.mem_filter, Prod.exists,
      exists_and_right, exists_eq_right, mem]
  rw [places, Set.encard_coe_eq_coe_finsetCard, List.toFinset_card_of_nodup distinct,
    List.length_map, ← List.countP_eq_length_filter, List.countP_map]
  rfl

/-- In the order of the places, what stands before an entry is what stands at an earlier place. -/
theorem mem_front_iff {entries front rest : List (Address × α)} {entry other : Address × α}
    (split : entries = front ++ entry :: rest)
    (sorted : (entries.map (·.1)).Pairwise (· < ·)) :
    other ∈ front ↔ other ∈ entries ∧ other.1 < entry.1 := by
  subst split
  rw [List.pairwise_map, List.pairwise_append, List.pairwise_cons] at sorted
  obtain ⟨-, ⟨after, -⟩, before⟩ := sorted
  constructor
  · exact fun inside => ⟨List.mem_append_left _ inside, before other inside entry (by simp)⟩
  · rintro ⟨inside, less⟩
    rcases List.mem_append.1 inside with found | found
    · exact found
    · rcases List.mem_cons.1 found with rfl | found
      · exact absurd less (List.lt_irrefl _)
      · exact absurd less (List.lt_asymm (after other found))

/-- The first element of the list with a property is the one at the first place where one
stands. -/
theorem find?_eq_some_iff {x : α} (given : Enumerates stands list) (p : α → Bool) :
    list.find? p = some x ↔ ∃ place, stands place x ∧ p x = true ∧
      ∀ earlier y, earlier < place → stands earlier y → p y = false := by
  obtain ⟨entries, rfl, sorted, mem⟩ := given
  rw [List.find?_map, Option.map_eq_some_iff]
  constructor
  · rintro ⟨⟨place, x⟩, found, rfl⟩
    obtain ⟨passes, front, rest, split, fail⟩ := List.find?_eq_some_iff_append.1 found
    refine ⟨place, (mem place x).1 (by simp [split]), passes, fun earlier y less there => ?_⟩
    have inFront := (mem_front_iff split sorted).2 ⟨(mem earlier y).2 there, less⟩
    simpa using fail _ inFront
  · rintro ⟨place, there, passes, first⟩
    obtain ⟨front, rest, split⟩ := List.append_of_mem ((mem place x).2 there)
    refine ⟨(place, x), List.find?_eq_some_iff_append.2 ⟨passes, front, rest, split, ?_⟩, rfl⟩
    rintro ⟨earlier, y⟩ inFront
    obtain ⟨inside, less⟩ := (mem_front_iff split sorted).1 inFront
    simpa using first earlier y less ((mem earlier y).1 inside)

end Enumerates

/-! ### Blocks and statements as one tree -/

/-- A block or a statement. -/
inductive Node where
  /-- A sequence of statements. -/
  | block (b : Block)
  /-- One statement. -/
  | stmt (s : Stmt)

namespace Node

/-- The statements of a block, or the bodies of a statement. -/
def children : Node → List Node
  | block b => b.map stmt
  | stmt s => s.bodies.map block

/-- What stands at a place, if the place exists. -/
def get? (n : Node) : Address → Option Node
  | [] => some n
  | i :: place => n.children[i]?.bind (·.get? place)

/-- A child is a smaller term than the node. -/
theorem sizeOf_lt {c n : Node} (child : c ∈ n.children) : sizeOf c < sizeOf n := by
  cases n with
  | block b =>
    obtain ⟨s, inside, rfl⟩ := List.mem_map.1 child
    have smaller := List.sizeOf_lt_of_mem inside
    simp only [block.sizeOf_spec, stmt.sizeOf_spec]
    omega
  | stmt s =>
    obtain ⟨body, inside, rfl⟩ := List.mem_map.1 child
    have smaller := Stmt.sizeOf_body_lt inside
    simp only [block.sizeOf_spec, stmt.sizeOf_spec]
    omega

/-- Induction from the children of a node to the node. -/
@[elab_as_elim]
theorem induction {motive : Node → Prop}
    (node : ∀ n : Node, (∀ c ∈ n.children, motive c) → motive n) (n : Node) : motive n :=
  node n fun c _ => induction node c
termination_by sizeOf n
decreasing_by exact sizeOf_lt ‹_›

/-- What the node itself offers stands at the node. -/
def Holds {α : Type} (own : Node → Option α) (n : Node) (place : Address) (x : α) : Prop :=
  ∃ m, n.get? place = some m ∧ own m = some x

/-- What stands in a node is its own or stands in a child. -/
theorem holds_iff {α : Type} {own : Node → Option α} {n : Node} {place : Address} {x : α} :
    Holds own n place x ↔
      place = [] ∧ own n = some x ∨ Enumerates.Inside (Holds own) n.children place x := by
  cases place with
  | nil => simp [Holds, get?, Enumerates.Inside]
  | cons i rest =>
    simp only [Holds, get?, Enumerates.Inside, List.cons.injEq, reduceCtorEq, false_and, false_or,
      Option.bind_eq_some_iff]
    constructor
    · rintro ⟨m, ⟨c, listed, found⟩, own⟩
      exact ⟨i, c, rest, listed, ⟨rfl, rfl⟩, m, found, own⟩
    · rintro ⟨_, c, _, listed, ⟨rfl, rfl⟩, m, found, own⟩
      exact ⟨m, ⟨c, listed, found⟩, own⟩

/-- A list of what the nodes offer, each before its children, is in the order of the places. -/
theorem enumerates {α : Type} {own : Node → Option α} {listed : Node → List α}
    (law : ∀ n, listed n = (own n).toList ++ n.children.flatMap listed) (n : Node) :
    Enumerates (Holds own n) (listed n) := by
  induction n using Node.induction with
  | node n children =>
    rw [law]
    exact (Enumerates.root_append_flatMap (own n) children).congr fun place x => holds_iff.symm

/-- The sequence that the node is. -/
def block? : Node → Option Block
  | block b => some b
  | stmt _ => none

/-- The call or spawn that the node is. -/
def invocation? : Node → Option Invocation
  | block _ => none
  | stmt s => s.invocation?

/-- The sequences at and inside the node. -/
def sequences : Node → List Block
  | block b => b.sequences
  | stmt s => s.bodies.flatMap Block.sequences

/-- The calls and spawns at and inside the node. -/
def invocations : Node → List Invocation
  | block b => b.invocations
  | stmt s => s.invocation?.toList ++ s.bodies.flatMap Block.invocations

/-- The sequences of a node are its own and those of its children. -/
theorem sequences_eq (n : Node) :
    n.sequences = n.block?.toList ++ n.children.flatMap sequences := by
  cases n with
  | block b =>
    have inner : b.inner = b.flatMap fun s => s.bodies.flatMap Block.sequences := by
      induction b with
      | nil => rw [Block.inner, List.flatMap_nil]
      | cons s b ih => rw [Block.inner_cons, List.flatMap_cons, ih]
    simp only [sequences, Block.sequences, block?, children, List.flatMap_map, inner,
      Option.toList_some, List.singleton_append]
  | stmt s =>
    simp only [sequences, block?, children, List.flatMap_map, Option.toList_none, List.nil_append]

/-- The invocations of a node are its own and those of its children. -/
theorem invocations_eq (n : Node) :
    n.invocations = n.invocation?.toList ++ n.children.flatMap invocations := by
  cases n with
  | block b =>
    simp only [invocations, invocation?, children, List.flatMap_map, Option.toList_none,
      List.nil_append]
    induction b with
    | nil => rw [Block.invocations, List.flatMap_nil]
    | cons s b ih => rw [Block.invocations_cons, List.flatMap_cons, ih]
  | stmt s => simp only [invocations, invocation?, children, List.flatMap_map]

end Node

/-! ### What the analyses list -/

namespace Block

/-- Whether the sequence stands at the place of the block, which stands at the empty one itself. -/
def SequenceAt (b : Block) (place : Address) (c : Block) : Prop :=
  (Node.block b).get? place = some (.block c)

example : Block.SequenceAt [.tau, .branch .loop [.tau] []] [1, 1] [] := rfl

/-- Whether the call or spawn stands at the place of the block. -/
def InvocationAt (b : Block) (place : Address) (i : Invocation) : Prop :=
  ∃ s, (Node.block b).get? place = some (.stmt s) ∧ s.invocation? = some i

/-- The sequences of a block are those at its places, from left to right. -/
theorem enumerates_sequences (b : Block) : Enumerates b.SequenceAt b.sequences := by
  refine (Node.enumerates Node.sequences_eq (.block b)).congr fun place c => ?_
  constructor
  · rintro ⟨_ | _, found, rfl | _⟩
    exact found
  · exact fun found => ⟨.block c, found, rfl⟩

/-- The calls and spawns of a block are those at its places, from left to right. -/
theorem enumerates_invocations (b : Block) : Enumerates b.InvocationAt b.invocations := by
  refine (Node.enumerates Node.invocations_eq (.block b)).congr fun place i => ?_
  constructor
  · rintro ⟨_ | s, found, own⟩
    · cases own
    · exact ⟨s, found, own⟩
  · rintro ⟨s, found, own⟩
    exact ⟨.stmt s, found, own⟩

end Block

end BehaviouralTypes
