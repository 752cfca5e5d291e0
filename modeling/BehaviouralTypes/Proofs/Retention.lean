import BehaviouralTypes.Proofs.Survivors

/-!
# What a simplification keeps of the bodies

A surviving body is the body of before, tidied with respect to the survivors
(`Program.functions_simplified`). Tidying goes by the names alone, so of the actions and
invocations of the body exactly the invocations of names that did not survive are gone
(`Program.deeds_simplify`).
-/

namespace BehaviouralTypes

namespace Program

variable {p : Program} {prefs : Preferences} {g : Func}

/-- The outcome is the survivors, each with its body tidied and nothing else changed. -/
theorem functions_simplified (prefs : Preferences) (p : Program) :
    (p.simplified prefs).functions = (p.functions.filter (p.survives prefs)).map fun f =>
      { f with body := f.body.tidy (p.simplified prefs).names } := by
  have names : (p.simplified prefs).names =
      ((p.removeSilent (prefs.spared p)).removeUnreached (prefs.entryIn p)).names := names_tidy
  rw [names, ← functions_removals]
  rfl

/-- A function of the outcome is a function of before but for its body. -/
theorem exists_of_mem_simplified (inside : g ∈ (p.simplified prefs).functions) :
    ∃ f ∈ p.functions, g = { f with body := f.body.tidy (p.simplified prefs).names } := by
  rw [functions_simplified] at inside
  obtain ⟨f, stays, rfl⟩ := List.mem_map.1 inside
  exact ⟨f, List.mem_of_mem_filter stays, rfl⟩

/-- **What is kept of the bodies.** A simplification succeeds, and each function of the outcome has
the name and the parameters of a function of before. Its actions and invocations, at any depth and
from left to right, are those of before without the invocations of names that did not survive. -/
theorem deeds_simplify (prefs : Preferences) (p : Program) :
    ∃ q, (p.simplify prefs).result = .ok q ∧ ∀ g ∈ q.functions, ∃ f ∈ p.functions,
      f.heading = g.heading ∧ g.body.deeds = f.body.deeds.filter (Stmt.isBound q.names) := by
  refine ⟨p.simplified prefs, result_simplify prefs p, fun g inside => ?_⟩
  obtain ⟨f, original, rfl⟩ := exists_of_mem_simplified inside
  have kept := Block.deeds_tidy (p.simplified prefs).names f.body
  exact ⟨f, original, rfl, kept⟩

end Program

end BehaviouralTypes
