import BehaviouralTypes.Proofs.Reachability
import Mathlib.Order.Bounds.Basic

/-!
# The search round by round

Each round of the search takes the function that was met last and meets whatever it invokes. A
round neither loses a function nor meets one twice (`Frontier.Pops.perm`), so on any graph of calls
the search ends after it took each function that it met exactly once. What it took is the smallest
set of names that contains the entry and all that its members invoke (`Program.isLeast_reachable`).
-/

namespace BehaviouralTypes

namespace Frontier

variable {s t : Frontier} {popped : List Func}

/-- Whether the rounds of the search that lead from one state to another take these functions, in
order, from the pending ones. -/
inductive Pops : Frontier → List Func → Frontier → Prop
  /-- No round. -/
  | nil (s : Frontier) : Pops s [] s
  /-- A round takes the function met last and meets the targets of its body. -/
  | cons {unmet pending popped : List Func} (f : Func) {t : Frontier} :
      Pops (meetAll ⟨unmet, pending⟩ f.body.targets) popped t →
      Pops ⟨unmet, f :: pending⟩ (f :: popped) t

/-- The rounds neither lose a function nor make one up. -/
theorem Pops.perm (pops : Pops s popped t) : (popped ++ t.all).Perm s.all := by
  induction pops with
  | nil s => exact List.Perm.refl _
  | @cons unmet pending popped f t _ ih =>
    have round : (meetAll ⟨unmet, pending⟩ f.body.targets).all.Perm (unmet ++ pending) :=
      meetAll_perm ⟨unmet, pending⟩ f.body.targets
    exact ((ih.trans round).cons f).trans List.perm_middle.symm

/-- The rounds take what the search looks into, from its beginning on. -/
theorem Pops.explore_eq (pops : Pops s popped t) : s.explore = popped ++ t.explore := by
  induction pops with
  | nil s => rfl
  | cons f _ ih => rw [explore, ih, List.cons_append]

/-- The rounds end, and then they took all that the search looks into. -/
theorem exists_pops_explore (s : Frontier) : ∃ unmet, Pops s s.explore ⟨unmet, []⟩ := by
  fun_induction explore s with
  | case1 unmet => exact ⟨unmet, .nil _⟩
  | case2 unmet f pending ih =>
    obtain ⟨left, pops⟩ := ih
    exact ⟨left, .cons f pops⟩

end Frontier

namespace Program

variable {p : Program} {entry n : Name} {popped unmet : List Func}

/-- Whether the set consists of defined names, the entry among them, and contains every defined name
that the body of a member calls or spawns, at any depth. -/
structure Closed (p : Program) (entry : Name) (reached : Set Name) : Prop where
  /-- The names are defined. -/
  defined : ∀ n ∈ reached, n ∈ p.names
  /-- The entry is one of them. -/
  entry : entry ∈ reached
  /-- What a member invokes is a member, unless it is not defined. -/
  invoked : ∀ f ∈ p.functions, f.name ∈ reached → ∀ s ∈ f.body.statements, ∀ i,
    s.invocation? = some i → i.target ∈ p.names → i.target ∈ reached

/-- Whatever the entry reaches is in every closed set. -/
theorem Closed.of_reaches {reached : Set Name} (closed : p.Closed entry reached)
    (path : p.Reaches entry n) : n ∈ reached := by
  induction path with
  | refl => exact closed.entry
  | tail _ edge ih =>
    obtain ⟨f, found, target, defined⟩ := edge
    obtain ⟨known, rfl⟩ := find?_eq_some_iff.1 found
    obtain ⟨s, deep, i, invokes, rfl⟩ := Block.mem_targets.1 target
    exact closed.invoked f known ih s deep i invokes defined

/-- The names that the search finds are closed. -/
theorem closed_reachable (defined : entry ∈ p.names) :
    p.Closed entry {n | n ∈ p.reachable entry} where
  defined n found := by
    obtain ⟨-, path⟩ := mem_reachable_iff.1 found
    rcases Relation.ReflTransGen.cases_tail path with rfl | ⟨m, -, edge⟩
    · exact defined
    · exact edge.target
  entry := mem_reachable_iff.2 ⟨defined, .refl⟩
  invoked f known found s deep i invokes target := by
    have path := (mem_reachable_iff.1 found).2
    have listed : i.target ∈ f.body.targets := Block.mem_targets.2 ⟨s, deep, i, invokes, rfl⟩
    have edge : p.Leads f.name i.target := ⟨f, find?_of_mem known, listed, target⟩
    exact mem_reachable_iff.2 ⟨defined, path.tail edge⟩

/-- When the search has ended, every function either was taken or was never met. -/
theorem perm_of_pops (pops : Frontier.Pops (Frontier.meet ⟨p.functions, []⟩ entry) popped
    ⟨unmet, []⟩) : (popped.map (·.name) ++ unmet.map (·.name)).Perm p.names := by
  have start : (Frontier.meet ⟨p.functions, []⟩ entry).all.Perm (p.functions ++ []) :=
    Frontier.meet_perm ⟨p.functions, []⟩ entry
  have whole : (popped ++ (unmet ++ [])).Perm (p.functions ++ []) := pops.perm.trans start
  rw [List.append_nil, List.append_nil] at whole
  rw [← List.map_append]
  exact whole.map (·.name)

/-- **The search finds what the entry reaches and nothing else.** Its result is empty if the entry
is not defined, and otherwise the smallest closed set of names. The rounds of the search end,
however the functions invoke each other: they take the functions of the result, each once, and when
nothing is pending any more these are the functions that were met. -/
theorem isLeast_reachable (p : Program) (entry : Name) :
    (p.reachable entry = [] ↔ entry ∉ p.names) ∧
      (entry ∈ p.names →
        IsLeast {reached | p.Closed entry reached} {n | n ∈ p.reachable entry}) ∧
      ∃ popped unmet, Frontier.Pops (Frontier.meet ⟨p.functions, []⟩ entry) popped ⟨unmet, []⟩ ∧
        popped.map (·.name) = p.reachable entry ∧ (p.reachable entry).Nodup ∧
        (∀ n, n ∈ p.reachable entry ↔ n ∈ p.names ∧ n ∉ unmet.map (·.name)) ∧
        ∀ first s, Frontier.Pops (Frontier.meet ⟨p.functions, []⟩ entry) first s →
          first <+: popped := by
  refine ⟨⟨fun nothing defined => ?_, fun missing => ?_⟩, fun defined => ?_, ?_⟩
  · have found := (closed_reachable defined).entry
    rw [nothing] at found
    cases found
  · refine List.eq_nil_iff_forall_not_mem.2 fun n found => ?_
    exact missing (mem_reachable_iff.1 found).1
  · refine ⟨closed_reachable defined, fun reached closed n found => ?_⟩
    exact closed.of_reaches (mem_reachable_iff.1 found).2
  · obtain ⟨unmet, pops⟩ := Frontier.exists_pops_explore (Frontier.meet ⟨p.functions, []⟩ entry)
    have split : (p.reachable entry ++ unmet.map (·.name)).Perm p.names := perm_of_pops pops
    obtain ⟨once, -, apart⟩ := List.nodup_append.1 (split.nodup_iff.2 p.nodup)
    refine ⟨_, unmet, pops, rfl, once, fun n => ?_, fun first s rounds => ?_⟩
    · rw [← split.mem_iff, List.mem_append]
      constructor
      · exact fun found => ⟨.inl found, fun left => apart n found n left rfl⟩
      · rintro ⟨found | left, met⟩
        · exact found
        · exact absurd left met
    · exact ⟨s.explore, rounds.explore_eq.symm⟩

end Program

end BehaviouralTypes
