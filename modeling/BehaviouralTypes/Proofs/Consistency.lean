import BehaviouralTypes.Proofs.Silence
import Mathlib.Data.Set.Basic
import Mathlib.Order.Bounds.Basic

/-!
# Silence as the largest consistent set

A set of functions is consistent when it is enough to explain its own silence: nobody in it acts,
and whoever they invoke is in the set as well or not defined at all. Such a set keeps clear of every
live name, because a chain of invocations that starts in the set cannot leave it
(`Program.Consistent.not_live`). The silent functions form a consistent set, so they form the
largest one (`Program.isGreatest_silent`). Consistency does not see the order of the definitions,
and so neither does the outcome of the search, although the search goes through them in order.
-/

namespace BehaviouralTypes

namespace Program

/-- Whether the functions of these names do nothing that can be noticed if whatever is done by them
and by undefined names cannot. -/
structure Consistent (p : Program) (quiet : Set Name) : Prop where
  /-- The names are defined. -/
  defined : ∀ n ∈ quiet, n ∈ p.names
  /-- No statement of theirs is an action, at any depth. -/
  calm : ∀ f ∈ p.functions, f.name ∈ quiet → ∀ s ∈ f.body.statements, s.isObservable = false
  /-- Whatever they call or spawn, at any depth, is one of them or undefined. -/
  closed : ∀ f ∈ p.functions, f.name ∈ quiet → ∀ s ∈ f.body.statements, ∀ i,
    s.invocation? = some i → i.target ∈ quiet ∨ i.target ∉ p.names

variable {p q : Program} {quiet : Set Name} {n : Name}

/-- No chain of invocations leads from a consistent set to an action. -/
theorem Consistent.not_live (consistent : p.Consistent quiet) (inside : n ∈ quiet) :
    ¬ p.Live n := by
  intro live
  induction live with
  | acts acts =>
    obtain ⟨f, found, s, deep, seen⟩ := acts
    obtain ⟨known, rfl⟩ := find?_eq_some_iff.1 found
    rw [consistent.calm f known inside s deep] at seen
    cases seen
  | leads edge _ ih =>
    obtain ⟨f, found, target, defined⟩ := edge
    obtain ⟨known, rfl⟩ := find?_eq_some_iff.1 found
    obtain ⟨s, deep, i, invokes, rfl⟩ := Block.mem_targets.1 target
    rcases consistent.closed f known inside s deep i invokes with stays | missing
    · exact ih stays
    · exact missing defined

/-- The silent functions explain their own silence. -/
theorem consistent_silent (p : Program) : p.Consistent {n | n ∈ p.silent} where
  defined n silent := (mem_silent_iff.1 silent).1
  calm f inside silent s deep := by
    have dead := (mem_silent_iff.1 silent).2
    by_contra seen
    have acts : f.body.Acts := ⟨s, deep, Bool.eq_true_of_not_eq_false seen⟩
    exact dead (.acts ⟨f, find?_of_mem inside, acts⟩)
  closed f inside silent s deep i invokes := by
    have dead := (mem_silent_iff.1 silent).2
    have target : i.target ∈ f.body.targets := Block.mem_targets.2 ⟨s, deep, i, invokes, rfl⟩
    by_cases defined : i.target ∈ p.names
    · refine .inl (mem_silent_iff.2 ⟨defined, fun live => ?_⟩)
      exact dead (.leads ⟨f, find?_of_mem inside, target, defined⟩ live)
    · exact .inr defined

/-- Consistency is a matter of which definitions there are and not of their order. -/
theorem Consistent.of_perm (same : q.functions.Perm p.functions)
    (consistent : p.Consistent quiet) : q.Consistent quiet := by
  have names : ∀ n, n ∈ q.names ↔ n ∈ p.names := fun n => (same.map (·.name)).mem_iff
  refine ⟨fun n inside => (names n).2 (consistent.defined n inside), fun f known => ?_,
    fun f known inside s deep i invokes => ?_⟩
  · exact consistent.calm f (same.mem_iff.1 known)
  · rw [names]
    exact consistent.closed f (same.mem_iff.1 known) inside s deep i invokes

/-- The silent functions are a consistent set that contains every other one. -/
theorem isGreatest_consistent_silent (p : Program) :
    IsGreatest {quiet | p.Consistent quiet} {n | n ∈ p.silent} := by
  refine ⟨consistent_silent p, fun quiet consistent n inside => ?_⟩
  exact mem_silent_iff.2 ⟨consistent.defined n inside, consistent.not_live inside⟩

/-- **The silent functions are a greatest fixed point.** They form the largest consistent set of
functions, and the search finds the same functions whatever the order of the definitions. -/
theorem isGreatest_silent (p : Program) :
    IsGreatest {quiet | p.Consistent quiet} {n | n ∈ p.silent} ∧
      ∀ q : Program, q.functions.Perm p.functions → ∀ n, n ∈ q.silent ↔ n ∈ p.silent := by
  refine ⟨isGreatest_consistent_silent p, fun q same n => ?_⟩
  have sets : {quiet | q.Consistent quiet} = {quiet | p.Consistent quiet} :=
    Set.ext fun _ => ⟨.of_perm same.symm, .of_perm same⟩
  have greatest := isGreatest_consistent_silent q
  rw [sets] at greatest
  exact Set.ext_iff.1 (greatest.unique (isGreatest_consistent_silent p)) n

/-- Two functions that start each other behind choices, one of which also calls a name without a
definition; what `watch` does is noticed through a function that comes last. -/
def cycleAndWatch : Program :=
  ⟨[⟨"watch", [], [.invoke .spawn ⟨"ping", []⟩, .invoke .call ⟨"guard", []⟩]⟩,
    ⟨"ping", [], [.branch .loop [.tau, .invoke .call ⟨"pong", []⟩] []]⟩,
    ⟨"pong", [], [.select [[.invoke .spawn ⟨"ping", []⟩], [.invoke .call ⟨"nobody", []⟩]]]⟩,
    ⟨"guard", [], [.branch .condition [.act (.perform .send "alarm")] []]⟩], by decide⟩

/-- The same definitions in the opposite order. -/
def cycleAndWatchReversed : Program := ⟨cycleAndWatch.functions.reverse, by decide⟩

/-- The cycle is silent and `watch` is not, in either order. -/
theorem isGreatest_silent_reversed :
    cycleAndWatchReversed.functions.Perm cycleAndWatch.functions ∧
      (∀ n, n ∈ cycleAndWatchReversed.silent ↔ n ∈ cycleAndWatch.silent) ∧
      "ping" ∈ cycleAndWatch.silent ∧ "pong" ∈ cycleAndWatch.silent ∧
      "watch" ∉ cycleAndWatch.silent := by
  obtain ⟨⟨consistent, largest⟩, order⟩ := isGreatest_silent cycleAndWatch
  have same : cycleAndWatchReversed.functions.Perm cycleAndWatch.functions := List.reverse_perm _
  have cycle : cycleAndWatch.Consistent {n | n ∈ ["ping", "pong"]} := by
    constructor <;> simp only [Set.mem_ofPred_eq] <;> decide
  have unguarded : "guard" ∉ cycleAndWatch.silent := by
    intro silent
    have calm := consistent.calm
      ⟨"guard", [], [.branch .condition [.act (.perform .send "alarm")] []]⟩ (by decide) silent
      (.act (.perform .send "alarm")) (by decide)
    cases calm
  have unwatched : "watch" ∉ cycleAndWatch.silent := by
    intro silent
    rcases consistent.closed _ List.mem_cons_self silent (.invoke .call ⟨"guard", []⟩)
      (by decide) ⟨"guard", []⟩ rfl with stays | missing
    · exact unguarded stays
    · exact missing (by decide)
  exact ⟨same, order cycleAndWatchReversed same, largest cycle List.mem_cons_self,
    largest cycle (List.mem_cons_of_mem _ List.mem_cons_self), unwatched⟩

end Program

end BehaviouralTypes
