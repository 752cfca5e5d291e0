import BehaviouralTypes.Proofs.CallGraph
import BehaviouralTypes.Simplify.Run

/-!
# The outcome of a simplification

A simplification never ends in an objection: tidying comes before the check, and a tidied program
breaks neither rule (`Program.violation?_tidy`). So whatever the user prefers, the outcome is the
program that three changes leave, and the check and the log do not show in it
(`Program.result_simplify`). The outcome is tidy throughout (`Program.isTidy_of_simplify`).
-/

namespace BehaviouralTypes

/-- A tidy body breaks no rule. -/
theorem Func.violation?_eq_none {defined : List Name} {f : Func}
    (tidy : f.body.IsTidy defined) : f.violation? defined = none := by
  have none_empty : f.body.sequences.countP (·.isEmpty) = 0 := by
    refine List.countP_eq_zero.2 fun c inside empty => ?_
    exact tidy.full c inside (List.isEmpty_iff.1 empty)
  have none_dangling : f.body.targets.find? (· ∉ defined) = none := by
    refine List.find?_eq_none.2 fun n target missing => ?_
    exact of_decide_eq_true missing (tidy.closed n target)
  simp only [Func.violation?, none_empty, none_dangling, Option.map_none]

namespace Program

variable {p : Program} {prefs : Preferences} {f : Func}

/-- Every body of a tidied program is tidy with respect to the names of that program. -/
theorem isTidy_of_mem_tidy (inside : f ∈ p.tidy.functions) : f.body.IsTidy p.tidy.names := by
  obtain ⟨g, -, rfl⟩ := List.mem_map.1 inside
  rw [names_tidy]
  exact Block.isTidy_tidy p.names g.body

/-- A program whose bodies are all tidy is the result of tidying it. -/
theorem tidy_eq_self (tidy : ∀ f ∈ p.functions, f.body.IsTidy p.names) : p.tidy = p := by
  have same : p.functions.map (fun f => { f with body := f.body.tidy p.names }) =
      p.functions.map id := by
    refine List.map_congr_left fun f inside => ?_
    rw [Block.tidy_eq_self (tidy f inside)]
    rfl
  rw [List.map_id] at same
  cases p
  simp only [Program.tidy, mapBodies, same]

/-- A tidied program is valid. -/
theorem violation?_tidy (p : Program) : p.tidy.violation? = none := by
  refine List.findSome?_eq_none_iff.2 fun f inside => ?_
  exact Func.violation?_eq_none (isTidy_of_mem_tidy inside)

/-- What the three changes of a simplification leave. -/
def simplified (prefs : Preferences) (p : Program) : Program :=
  ((p.removeSilent (prefs.spared p)).removeUnreached (prefs.entryIn p)).tidy

/-- The passes after tidying neither change the program nor object to it. -/
theorem runAll_schedule (prefs : Preferences) (p : Program) :
    (Pass.runAll (prefs.entryIn p) p (p.schedule prefs)).program = p.simplified prefs ∧
      (Pass.runAll (prefs.entryIn p) p (p.schedule prefs)).objection? = none := by
  have valid := violation?_tidy
    ((p.removeSilent (prefs.spared p)).removeUnreached (prefs.entryIn p))
  cases checks : prefs.validate <;> cases shows : prefs.debug <;>
    simp [schedule, Pass.isWanted, Pass.runAll, Pass.objection?, Pass.apply, simplified, checks,
      shows, valid]

/-- A simplification always succeeds. -/
theorem result_simplify (prefs : Preferences) (p : Program) :
    (p.simplify prefs).result = .ok (p.simplified prefs) := by
  obtain ⟨program, fine⟩ := runAll_schedule prefs p
  simp only [simplify, Report.result, fine, program]

/-- Whatever the preferences, the graph of the outcome is a part of the graph of the program. -/
theorem removeUnreached_restricts (entry : Option Name) (p : Program) :
    (p.removeUnreached entry).Restricts p := by
  unfold removeUnreached
  split
  · split
    · exact retain_restricts _ p
    · exact Restricts.refl p
  · exact Restricts.refl p

/-- The outcome restricts the program. -/
theorem simplified_restricts (prefs : Preferences) (p : Program) :
    (p.simplified prefs).Restricts p :=
  (tidy_restricts _).trans
    ((removeUnreached_restricts _ _).trans (retain_restricts _ p))

/-! ### What the outcome guarantees -/

/-- The outcome depends on the entry and on whether it is spared, and on no other preference. -/
theorem simplified_congr {other : Preferences} (entry : other.entry = prefs.entry)
    (keep : other.keepSilentEntry = prefs.keepSilentEntry) :
    p.simplified other = p.simplified prefs := by
  simp only [simplified, Preferences.spared, Preferences.entryIn, entry, keep]

/-- **The guarantees of a simplification.** A simplification succeeds with a program in which every
body is tidy with respect to the defined names: no sequence is empty, nothing but defined functions
is invoked, and no choice has only `tau` to offer. The check finds nothing to object to, and the
program is the same whether it is checked and logged or not. -/
theorem isTidy_of_simplify (prefs : Preferences) (p : Program) :
    ∃ q, (∀ validate debug : Bool,
        (p.simplify { prefs with validate := validate, debug := debug }).result = .ok q) ∧
      (∀ f ∈ q.functions, (∀ c ∈ f.body.sequences, c ≠ []) ∧
        (∀ n ∈ f.body.targets, n ∈ q.names) ∧
        ∀ s ∈ f.body.statements, s.isChoice = true → ∃ body ∈ s.bodies, body ≠ [.tau]) ∧
      q.violation? = none := by
  refine ⟨p.simplified prefs, fun validate debug => ?_, fun f inside => ?_, violation?_tidy _⟩
  · rw [result_simplify]
    exact congrArg Except.ok (simplified_congr rfl rfl)
  · have tidy : f.body.IsTidy (p.simplified prefs).names := isTidy_of_mem_tidy inside
    refine ⟨tidy.full, tidy.closed, fun s deep choice => ?_⟩
    obtain ⟨body, within, more⟩ := tidy.varied s deep choice
    exact ⟨body, within, fun lone => Bool.eq_false_iff.1 more (Block.isTau_iff.2 lone)⟩

end Program

end BehaviouralTypes
