import BehaviouralTypes.Proofs.Survivors

/-!
# Simplifying twice

A second simplification finds nothing to do. The outcome keeps every live function that a survivor
invokes, so what was live still is (`Program.live_simplified`) and what the entry reached it still
reaches (`Program.reaches_simplified`). Both removals therefore spare everything, and the bodies are
tidy already.
-/

namespace BehaviouralTypes

namespace Program

variable {p : Program} {prefs : Preferences} {n m : Name}

/-- The outcome keeps the live functions that its functions invoked before. -/
theorem simplified_closed (kept : n ∈ (p.simplified prefs).names) (edge : p.Leads n m)
    (live : p.Live m) : m ∈ (p.simplified prefs).names := by
  rw [mem_names_simplified] at kept ⊢
  refine ⟨live.defined, ?_⟩
  obtain ⟨-, stays⟩ := kept
  by_cases keeps : p.keepsEntry prefs = true
  · rw [if_pos keeps] at stays ⊢
    rcases stays with rfl | ⟨-, path⟩
    · exact .inr ⟨live, .single edge⟩
    · exact .inr ⟨live, path.tail edge⟩
  · rw [if_neg keeps]
    exact live

/-- A survivor that was live is live in the outcome. -/
theorem live_simplified (live : p.Live n) (kept : n ∈ (p.simplified prefs).names) :
    (p.simplified prefs).Live n :=
  (simplified_restricts prefs p).live_of_live (fun _ source _ => simplified_closed source) live kept

/-- If the outcome defines the entry, the entry reaches every survivor there. -/
theorem reaches_simplified (entry : prefs.entry ∈ (p.simplified prefs).names)
    (kept : n ∈ (p.simplified prefs).names) : (p.simplified prefs).Reaches prefs.entry n := by
  have keeps : p.keepsEntry prefs = true := by
    obtain ⟨defined, stays⟩ := mem_names_simplified.1 entry
    split at stays
    · assumption
    · exact keepsEntry_iff.2 ⟨defined, .inr stays⟩
  obtain ⟨-, stays⟩ := mem_names_simplified.1 kept
  rw [if_pos keeps] at stays
  rcases stays with rfl | ⟨live, path⟩
  · exact .refl
  · refine (simplified_restricts prefs p).reaches_of_live (fun m path live => ?_) path live
    refine mem_names_simplified.2 ⟨live.defined, ?_⟩
    rw [if_pos keeps]
    exact .inr ⟨live, path⟩

/-- No survivor but a spared entry is silent in the outcome. -/
theorem removeSilent_simplified (prefs : Preferences) (p : Program) :
    (p.simplified prefs).removeSilent (prefs.spared (p.simplified prefs)) =
      p.simplified prefs := by
  refine retain_eq_self fun f inside => (outlivesSilence_iff inside).2 ?_
  have kept := name_mem_names inside
  by_cases live : p.Live f.name
  · exact .inl (live_simplified live kept)
  · -- Only the entry survives without being live, and only if the user wants it to.
    obtain ⟨-, stays⟩ := mem_names_simplified.1 kept
    split at stays
    · next keeps =>
      rcases stays with same | ⟨alive, -⟩
      · rw [same] at live kept
        have wanted := (keepsEntry_iff.1 keeps).2.resolve_right live
        exact .inr (spared_eq_some_iff.2 ⟨wanted, kept, same.symm⟩)
      · exact absurd alive live
    · exact absurd stays live

/-- No survivor is unreachable in the outcome. -/
theorem removeUnreached_simplified (prefs : Preferences) (p : Program) :
    (p.simplified prefs).removeUnreached (prefs.entryIn (p.simplified prefs)) =
      p.simplified prefs := by
  cases entry : prefs.entryIn (p.simplified prefs) with
  | none => rfl
  | some e =>
    obtain ⟨defined, rfl⟩ := entryIn_eq_some_iff.1 entry
    rw [removeUnreached_of_mem defined]
    refine retain_eq_self fun f inside => ?_
    rw [Func.isReached, decide_eq_true_eq, mem_reachable_iff]
    exact ⟨defined, reaches_simplified defined (name_mem_names inside)⟩

/-- No rule of tidying applies to the outcome. -/
theorem tidy_simplified (prefs : Preferences) (p : Program) :
    (p.simplified prefs).tidy = p.simplified prefs :=
  tidy_eq_self fun _ inside => isTidy_of_mem_tidy inside

/-- **Idempotence.** A simplification succeeds, and the same simplification of its outcome succeeds
and changes nothing. -/
theorem simplify_idempotent (prefs : Preferences) (p : Program) :
    ∃ q, (p.simplify prefs).result = .ok q ∧ (q.simplify prefs).result = .ok q := by
  refine ⟨p.simplified prefs, result_simplify prefs p, ?_⟩
  have again : (p.simplified prefs).simplified prefs = p.simplified prefs := by
    rw [simplified, removeSilent_simplified, removeUnreached_simplified, tidy_simplified]
  rw [result_simplify, again]

end Program

end BehaviouralTypes
