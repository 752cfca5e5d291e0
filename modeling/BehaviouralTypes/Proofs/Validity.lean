import BehaviouralTypes.Proofs.Places
import BehaviouralTypes.Simplify.Run

/-!
# What the check objects to

The check looks at every sequence and every invocation of a body wherever it stands, so a function
passes when no sequence at any place is empty and every target at any place is defined
(`Func.violation?_eq_none_iff`). Otherwise the objection tells the number of places with an empty
sequence, or the target at the first place with an undefined one (`Func.violation?_eq_some_iff`).
Of several functions that do not pass, the first is blamed (`Program.runAll_validate`).
-/

namespace BehaviouralTypes

/-- Whether no sequence of statements in the body is empty and every invocation in it has a defined
target, at any depth. -/
structure Func.IsValid (defined : List Name) (f : Func) : Prop where
  /-- No sequence is empty. -/
  full : ∀ place, ¬ f.body.SequenceAt place []
  /-- Only defined names are called and spawned. -/
  bound : ∀ place i, f.body.InvocationAt place i → i.target ∈ defined

/-- Whether the violation tells what is wrong with the function, and in which words: how many
sequences are empty, and if none is, the first target without a definition. -/
inductive Violation.Blames (defined : List Name) (f : Func) : Violation → String → Prop where
  /-- The empty sequences are counted by their places. -/
  | emptySequences {count : Nat} (positive : 0 < count)
      (exact : {place | f.body.SequenceAt place []}.encard = count) :
      Blames defined f (.emptySequences f.name count)
        s!"Function {f.name} has {count} empty statement sequences"
  /-- Every invocation at an earlier place has a defined target. -/
  | undefinedTarget {place : Address} {i : Invocation}
      (full : ∀ place, ¬ f.body.SequenceAt place [])
      (there : f.body.InvocationAt place i) (undefined : i.target ∉ defined)
      (first : ∀ earlier j, earlier < place → f.body.InvocationAt earlier j → j.target ∈ defined) :
      Blames defined f (.undefinedTarget f.name i.target)
        s!"Function {f.name} references undefined function {i.target}"

namespace Func

variable {defined : List Name} {f : Func} {v : Violation}

/-- Empty sequences are counted once for each place where one stands. -/
theorem countP_isEmpty_eq_iff {count : Nat} :
    f.body.sequences.countP (·.isEmpty) = count ↔
      {place | f.body.SequenceAt place []}.encard = count := by
  have counted := f.body.enumerates_sequences.encard_setOf (·.isEmpty)
  simp only [List.isEmpty_iff, exists_eq_right] at counted
  rw [counted, Nat.cast_inj]

/-- Nothing is counted if no place has an empty sequence. -/
theorem countP_isEmpty_eq_zero_iff :
    f.body.sequences.countP (·.isEmpty) = 0 ↔ ∀ place, ¬ f.body.SequenceAt place [] := by
  rw [countP_isEmpty_eq_iff, Nat.cast_zero, Set.encard_eq_zero, Set.eq_empty_iff_forall_notMem]
  rfl

/-- All targets are defined when those at every place are. -/
theorem find?_targets_eq_none_iff :
    f.body.targets.find? (· ∉ defined) = none ↔
      ∀ place i, f.body.InvocationAt place i → i.target ∈ defined := by
  simp only [Block.targets, List.find?_eq_none, List.mem_map, decide_eq_true_eq, not_not,
    f.body.enumerates_invocations.mem_iff]
  constructor
  · exact fun all place i there => all i.target ⟨i, ⟨place, there⟩, rfl⟩
  · rintro all _ ⟨i, ⟨place, there⟩, rfl⟩
    exact all place i there

/-- The first target without a definition stands at the first place where such a one stands. -/
theorem find?_targets_eq_some_iff {n : Name} :
    f.body.targets.find? (· ∉ defined) = some n ↔
      ∃ place i, i.target = n ∧ f.body.InvocationAt place i ∧ i.target ∉ defined ∧
        ∀ earlier j, earlier < place → f.body.InvocationAt earlier j → j.target ∈ defined := by
  rw [Block.targets, List.find?_map, Option.map_eq_some_iff]
  simp only [f.body.enumerates_invocations.find?_eq_some_iff, Function.comp_apply,
    decide_eq_true_eq, decide_eq_false_iff_not, not_not]
  constructor
  · rintro ⟨i, ⟨place, there, undefined, first⟩, named⟩
    exact ⟨place, i, named, there, undefined, first⟩
  · rintro ⟨place, i, named, there, undefined, first⟩
    exact ⟨i, ⟨place, there, undefined, first⟩, named⟩

/-- A function passes when it is valid. -/
theorem violation?_eq_none_iff : f.violation? defined = none ↔ f.IsValid defined := by
  unfold violation?
  split
  · next none_empty =>
    rw [Option.map_eq_none_iff, find?_targets_eq_none_iff]
    exact ⟨fun bound => ⟨countP_isEmpty_eq_zero_iff.1 none_empty, bound⟩, fun valid => valid.bound⟩
  · next count counted =>
    refine ⟨nofun, fun valid => ?_⟩
    have none_empty := countP_isEmpty_eq_zero_iff.2 valid.full
    omega

/-- The objection to a function blames it in its own words, and nothing else does. -/
theorem violation?_eq_some_iff : f.violation? defined = some v ↔
    v.Blames defined f v.message := by
  unfold violation?
  split
  · next none_empty =>
    have full := countP_isEmpty_eq_zero_iff.1 none_empty
    rw [Option.map_eq_some_iff]
    constructor
    · rintro ⟨n, found, rfl⟩
      obtain ⟨place, i, rfl, there, undefined, first⟩ := find?_targets_eq_some_iff.1 found
      exact .undefinedTarget full there undefined first
    · generalize v.message = told
      rintro (⟨positive, exact⟩ | ⟨-, there, undefined, first⟩)
      · have counted := countP_isEmpty_eq_iff.2 exact
        omega
      · exact ⟨_, find?_targets_eq_some_iff.2 ⟨_, _, rfl, there, undefined, first⟩, rfl⟩
  · next count counted =>
    constructor
    · rintro ⟨⟩
      exact .emptySequences count.succ_pos (countP_isEmpty_eq_iff.1 counted)
    · generalize v.message = told
      rintro (⟨positive, exact⟩ | ⟨full, -, -, -⟩)
      · rw [← countP_isEmpty_eq_iff.2 exact, counted]
      · have none_empty := countP_isEmpty_eq_zero_iff.2 full
        omega

end Func

namespace Program

variable {p : Program} {v : Violation}

/-- A program passes when all its functions are valid. -/
theorem violation?_eq_none_iff : p.violation? = none ↔ ∀ f ∈ p.functions, f.IsValid p.names := by
  simp only [violation?, List.findSome?_eq_none_iff, Func.violation?_eq_none_iff]

/-- The first function that is not valid is blamed. -/
theorem violation?_eq_some_iff :
    p.violation? = some v ↔ ∃ before f after, p.functions = before ++ f :: after ∧
      (∀ g ∈ before, g.IsValid p.names) ∧ v.Blames p.names f v.message := by
  rw [violation?, List.findSome?_eq_some_iff]
  simp only [Func.violation?_eq_none_iff, Func.violation?_eq_some_iff]
  constructor
  · rintro ⟨before, f, after, split, blames, valid⟩
    exact ⟨before, f, after, split, valid, blames⟩
  · rintro ⟨before, f, after, split, valid, blames⟩
    exact ⟨before, f, after, split, blames, valid⟩

/-- **The check.** The check leaves the program as it is. It has no objection exactly when every
function is valid with respect to the defined names. Its objection blames the first function, in
the order of definition, that is not: by the exact number of its empty sequences if there are any,
and otherwise by its first undefined target from left to right. The words of the objection say just
that. -/
theorem runAll_validate (entry : Option Name) (p : Program) :
    (Pass.runAll entry p [.validate]).program = p ∧
      ((Pass.runAll entry p [.validate]).result = .ok p ↔
        ∀ f ∈ p.functions, f.IsValid p.names) ∧
      ∀ v, (Pass.runAll entry p [.validate]).result = .error v ↔
        ∃ before f after, p.functions = before ++ f :: after ∧
          (∀ g ∈ before, g.IsValid p.names) ∧ v.Blames p.names f v.message := by
  simp only [← violation?_eq_none_iff, ← violation?_eq_some_iff]
  cases checked : p.violation? with
  | none => simp [Pass.runAll, Pass.objection?, Pass.apply, Report.result, checked]
  | some w => simp [Pass.runAll, Pass.objection?, Pass.apply, Report.result, checked]

end Program

end BehaviouralTypes
