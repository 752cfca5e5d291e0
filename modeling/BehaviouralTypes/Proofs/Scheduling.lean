import BehaviouralTypes.Proofs.Survivors

/-!
# Passes in any order

As long as the entry stays, the order of the passes does not matter. A stage of any schedule keeps
every live function that its functions invoke (`Program.Stage`), so the analyses find in it what
they find in the first program. What a stage still holds beyond the survivors makes no difference
either: cut down to the survivors and tidied by them, all stages are the same program
(`Program.core`). Each removal done once leaves nothing beyond the survivors, and then tidying is
that cut.
-/

namespace BehaviouralTypes

namespace Program

variable {p q : Program} {prefs : Preferences} {n m : Name} {kept : List Name}

/-! ### Cutting down to some names -/

/-- The functions of these names, with bodies tidied by them. -/
def core (kept : List Name) (p : Program) : Program :=
  (p.retain fun f => f.name ∈ kept).mapBodies fun f => f.body.tidy kept

/-- Removing none of the functions in question does not show in what they are cut down to. -/
theorem core_retain {keep : Func → Bool}
    (spares : ∀ f ∈ p.functions, f.name ∈ kept → keep f = true) :
    (p.retain keep).core kept = p.core kept := by
  have same : (p.functions.filter keep).filter (·.name ∈ kept) =
      p.functions.filter (·.name ∈ kept) := by
    rw [List.filter_filter]
    refine List.filter_congr fun f inside => ?_
    rw [Bool.and_eq_left_iff_imp, decide_eq_true_eq]
    exact spares f inside
  simp only [core, retain, same]

/-- Tidying by more names does not show in what the functions in question are cut down to. -/
theorem core_tidy (defined : ∀ n ∈ kept, n ∈ p.names) : p.tidy.core kept = p.core kept := by
  have same : (p.tidy.functions.filter (·.name ∈ kept)).map
        (fun f => { f with body := f.body.tidy kept }) =
      (p.functions.filter (·.name ∈ kept)).map fun f => { f with body := f.body.tidy kept } := by
    rw [tidy, mapBodies, List.filter_map, List.map_map]
    refine List.map_congr_left fun f _ => ?_
    exact congrArg (Func.mk f.name f.params) (Block.tidy_tidy defined f.body)
  simp only [core, mapBodies, retain, same]

/-- Cutting down to all names is tidying. -/
theorem core_names (p : Program) : p.core p.names = p.tidy := by
  rw [core, retain_eq_self fun f inside => decide_eq_true (name_mem_names inside), tidy]

/-- The core defines the names that are kept. -/
theorem names_core : (p.core kept).names = p.names.filter (· ∈ kept) := by
  rw [core, names_mapBodies, names, names, List.filter_map]
  rfl

/-- A simplification cuts the program down to the survivors. -/
theorem core_simplified (prefs : Preferences) (p : Program) :
    p.core (p.simplified prefs).names = p.simplified prefs := by
  have survive : ∀ f ∈ p.functions,
      p.survives prefs f = true ↔ f.name ∈ (p.simplified prefs).names := by
    intro f inside
    rw [mem_names_simplified, survives_iff inside]
    exact (and_iff_right (name_mem_names inside)).symm
  have removed : (p.retain fun f => f.name ∈ (p.simplified prefs).names) =
      (p.removeSilent (prefs.spared p)).removeUnreached (prefs.entryIn p) := by
    rw [mk.injEq, functions_removals]
    refine List.filter_congr fun f inside => ?_
    rw [Bool.eq_iff_iff, decide_eq_true_eq, survive f inside]
  rw [core, removed, simplified, names_tidy]
  rfl

/-! ### Stages of a schedule -/

/-- What holds of the program after any passes that spared the entry. -/
structure Stage (prefs : Preferences) (p q : Program) : Prop where
  /-- The graph is a part of the first one. -/
  part : q.Restricts p
  /-- The entry is still defined. -/
  entry : prefs.entry ∈ q.names
  /-- The live functions that its functions invoked before are still defined. -/
  closed : ∀ n ∈ q.names, ∀ m, p.Leads n m → p.Live m → m ∈ q.names
  /-- Cut down to the survivors it is what a simplification makes of the first program. -/
  core : q.core (p.simplified prefs).names = p.simplified prefs

namespace Stage

/-- A program is a stage of its own simplification if it has the entry. -/
theorem refl (defined : prefs.entry ∈ p.names) : Stage prefs p p where
  part := Restricts.refl p
  entry := defined
  closed _ _ _ edge _ := edge.target
  core := core_simplified prefs p

/-- What a stage has is live in it exactly if it was so from the start. -/
theorem live_iff (stage : Stage prefs p q) (inside : n ∈ q.names) : q.Live n ↔ p.Live n :=
  ⟨stage.part.live, fun live => stage.part.live_of_live stage.closed live inside⟩

/-- The live functions that the entry reaches are still defined, since a path to one of them runs
through live functions only. -/
theorem mem_names_of_live (stage : Stage prefs p q) (path : p.Reaches prefs.entry n)
    (live : p.Live n) : n ∈ q.names := by
  induction path with
  | refl => exact stage.entry
  | tail _ edge ih => exact stage.closed _ (ih (.leads edge live)) _ edge live

/-- A live function that the entry reached at first is within its reach at every stage. -/
theorem reaches_of_live (stage : Stage prefs p q) (path : p.Reaches prefs.entry n)
    (live : p.Live n) : q.Reaches prefs.entry n :=
  stage.part.reaches_of_live (fun _ => stage.mem_names_of_live) path live

/-- A survivor is the entry or a live function that the entry reaches. -/
theorem of_mem_simplified (stays : p.keepsEntry prefs = true)
    (survivor : n ∈ (p.simplified prefs).names) :
    n = prefs.entry ∨ (p.Live n ∧ p.Reaches prefs.entry n) := by
  have survivor := (mem_names_simplified.1 survivor).2
  rwa [if_pos stays] at survivor

/-- A survivor is defined at every stage. -/
theorem mem_names_of_mem_simplified (stage : Stage prefs p q) (stays : p.keepsEntry prefs = true)
    (survivor : n ∈ (p.simplified prefs).names) : n ∈ q.names := by
  rcases of_mem_simplified stays survivor with rfl | ⟨live, path⟩
  · exact stage.entry
  · exact stage.mem_names_of_live path live

/-- Removing functions leads to the next stage if the survivors and the live functions that the
remaining ones invoke are spared. -/
theorem retain {keep : Func → Bool} (stage : Stage prefs p q)
    (stays : p.keepsEntry prefs = true)
    (spares : ∀ f ∈ q.functions, f.name ∈ (p.simplified prefs).names → keep f = true)
    (follows : ∀ n ∈ (q.retain keep).names, ∀ m, q.Leads n m → q.Live m →
      m ∈ (q.retain keep).names) :
    Stage prefs p (q.retain keep) where
  part := (retain_restricts keep q).trans stage.part
  entry := by
    obtain ⟨f, found⟩ := mem_names_iff_find?.1 stage.entry
    obtain ⟨inside, named⟩ := find?_eq_some_iff.1 found
    have survivor : f.name ∈ (p.simplified prefs).names := by
      rw [named, mem_names_simplified, if_pos stays]
      exact ⟨(keepsEntry_iff.1 stays).1, .inl rfl⟩
    exact mem_names_retain.2 ⟨f, found, spares f inside survivor⟩
  closed n kept m edge live := by
    have source := (retain_restricts keep q).names n kept
    have target := stage.closed n source m edge live
    exact follows n kept m ((stage.part.leads n source m target).2 edge)
      ((stage.live_iff target).2 live)
  core := by rw [core_retain spares, stage.core]

/-- The removal of silent functions leads to the next stage. -/
theorem removeSilent (stage : Stage prefs p q) (stays : p.keepsEntry prefs = true) :
    Stage prefs p (q.removeSilent (prefs.spared p)) := by
  obtain ⟨defined, why⟩ := keepsEntry_iff.1 stays
  refine stage.retain stays (fun f inside survivor => ?_) fun n _ m edge live => ?_
  · rw [outlivesSilence_iff inside, stage.live_iff (name_mem_names inside)]
    rcases of_mem_simplified stays survivor with same | ⟨live, -⟩
    · rw [same]
      exact why.symm.imp_right fun keep => spared_eq_some_iff.2 ⟨keep, defined, rfl⟩
    · exact .inl live
  · exact mem_names_removeSilent.2 ⟨edge.target, .inl live⟩

/-- The removal of unreachable functions leads to the next stage. -/
theorem removeUnreached (stage : Stage prefs p q) (stays : p.keepsEntry prefs = true) :
    Stage prefs p (q.removeUnreached (some prefs.entry)) := by
  rw [removeUnreached_of_mem stage.entry]
  refine stage.retain stays (fun f inside survivor => ?_) fun n kept m edge _ => ?_
  · rw [Func.isReached, decide_eq_true_eq, mem_reachable_iff]
    refine ⟨stage.entry, ?_⟩
    rcases of_mem_simplified stays survivor with same | ⟨live, path⟩
    · rw [same]
      exact .refl
    · exact stage.reaches_of_live path live
  · obtain ⟨f, found, reached⟩ := mem_names_retain.1 kept
    obtain ⟨g, known⟩ := mem_names_iff_find?.1 edge.target
    rw [Func.isReached, decide_eq_true_eq, mem_reachable_iff] at reached
    rw [← (find?_eq_some_iff.1 found).2] at edge
    refine mem_names_retain.2 ⟨g, known, ?_⟩
    rw [Func.isReached, decide_eq_true_eq, mem_reachable_iff, (find?_eq_some_iff.1 known).2]
    exact ⟨stage.entry, reached.2.tail edge⟩

/-- Tidying leads to the next stage. -/
theorem tidy (stage : Stage prefs p q) (stays : p.keepsEntry prefs = true) :
    Stage prefs p q.tidy where
  part := (tidy_restricts q).trans stage.part
  entry := by rw [names_tidy]; exact stage.entry
  closed := by rw [names_tidy]; exact stage.closed
  core := by rw [core_tidy fun n => stage.mem_names_of_mem_simplified stays, stage.core]

/-- Once both removals have been made, tidying ends with the outcome of the simplification. -/
theorem tidy_eq_simplified (stage : Stage prefs p q)
    (live : ∀ n ∈ q.names, p.Live n ∨ n = prefs.entry)
    (reached : ∀ n ∈ q.names, p.Reaches prefs.entry n) (stays : p.keepsEntry prefs = true) :
    q.tidy = p.simplified prefs := by
  have survivors : ∀ n ∈ q.names, n ∈ (p.simplified prefs).names := by
    intro n inside
    rw [mem_names_simplified, if_pos stays]
    exact ⟨stage.part.names n inside, (live n inside).symm.imp_right fun live =>
      ⟨live, reached n inside⟩⟩
  have names : q.names = (p.simplified prefs).names := by
    calc q.names
      _ = q.names.filter (· ∈ (p.simplified prefs).names) :=
        (List.filter_eq_self.2 fun n inside => decide_eq_true (survivors n inside)).symm
      _ = (q.core (p.simplified prefs).names).names := names_core.symm
      _ = (p.simplified prefs).names := by rw [stage.core]
  rw [← core_names, names, stage.core]

end Stage

end Program

/-! ### Schedules -/

/-- Whether the pass is one of the three by which a simplification changes the program. -/
def Pass.Changes (prefs : Preferences) (p : Program) (pass : Pass) : Prop :=
  pass = .removeSilent (prefs.spared p) ∨ pass = .removeUnreached ∨ pass = .tidy

namespace Program

variable {p q : Program} {prefs : Preferences} {n : Name} {entry : Option Name} {pass : Pass}
  {passes : List Pass}

/-- The program after passes, without their log. -/
def afterPasses (entry : Option Name) (p : Program) (passes : List Pass) : Program :=
  passes.foldl (Pass.apply entry) p

/-- Passes that only change the program all run. -/
theorem result_runAll (changes : ∀ pass ∈ passes, ∀ q, Pass.objection? q pass = none) :
    (Pass.runAll entry p passes).result = .ok (p.afterPasses entry passes) := by
  have all : (Pass.runAll entry p passes).objection? = none ∧
      (Pass.runAll entry p passes).program = p.afterPasses entry passes := by
    induction passes generalizing p with
    | nil => exact ⟨rfl, rfl⟩
    | cons pass rest ih =>
      have later := fun other inside => changes other (List.mem_cons_of_mem pass inside)
      rw [Pass.runAll, changes pass List.mem_cons_self p]
      exact ih later
  rw [Report.result, all.1, all.2]

/-- A pass that changes the program objects to nothing. -/
theorem objection?_of_changes (changes : pass.Changes prefs p) (q : Program) :
    pass.objection? q = none := by
  rcases changes with rfl | rfl | rfl <;> rfl

/-- A pass never defines a name. -/
theorem names_apply_subset (pass : Pass) :
    ∀ n ∈ (pass.apply entry q).names, n ∈ q.names := by
  cases pass with
  | removeSilent spared => exact (retain_restricts _ q).names
  | removeUnreached => exact (removeUnreached_restricts entry q).names
  | tidy => exact (tidy_restricts q).names
  | validate | present => exact fun _ inside => inside

/-- Passes define no new names. -/
theorem names_afterPasses_subset (passes : List Pass) :
    ∀ n ∈ (q.afterPasses entry passes).names, n ∈ q.names := by
  induction passes generalizing q with
  | nil => exact fun _ inside => inside
  | cons pass rest ih => exact fun n inside => names_apply_subset pass n (ih n inside)

/-- One pass leads from a stage to a stage. -/
theorem Stage.apply (stage : Stage prefs p q) (stays : p.keepsEntry prefs = true)
    (changes : pass.Changes prefs p) : Stage prefs p (pass.apply (some prefs.entry) q) := by
  rcases changes with rfl | rfl | rfl
  · exact stage.removeSilent stays
  · exact stage.removeUnreached stays
  · exact stage.tidy stays

/-- Passes in any number and order lead from a stage to a stage. -/
theorem Stage.afterPasses (stage : Stage prefs p q) (stays : p.keepsEntry prefs = true)
    (changes : ∀ pass ∈ passes, pass.Changes prefs p) :
    Stage prefs p (q.afterPasses (some prefs.entry) passes) := by
  induction passes generalizing q with
  | nil => exact stage
  | cons pass rest ih =>
    have later := fun other inside => changes other (List.mem_cons_of_mem pass inside)
    exact ih (stage.apply stays (changes pass List.mem_cons_self)) later

/-- What a pass makes true of every defined name stays true, whatever passes come before and
after it. -/
theorem Stage.forall_names_of_mem {holds : Name → Prop} (stage : Stage prefs p q)
    (stays : p.keepsEntry prefs = true) (changes : ∀ pass ∈ passes, pass.Changes prefs p)
    (scheduled : pass ∈ passes)
    (establishes : ∀ r, Stage prefs p r →
      ∀ n ∈ (pass.apply (some prefs.entry) r).names, holds n) :
    ∀ n ∈ (q.afterPasses (some prefs.entry) passes).names, holds n := by
  obtain ⟨before, after, rfl⟩ := List.append_of_mem scheduled
  have reached : Stage prefs p (q.afterPasses (some prefs.entry) before) :=
    stage.afterPasses stays fun other inside => changes other (List.mem_append_left _ inside)
  intro n inside
  rw [Program.afterPasses, List.foldl_append, List.foldl_cons] at inside
  exact establishes _ reached n (names_afterPasses_subset after n inside)

/-- **The schedule does not matter.** If the entry is defined and stays, any sequence of the three
changing passes, in any order and with any repetitions, that contains both removals and ends with
tidying succeeds with the outcome of the simplification. -/
theorem result_runAll_of_schedule (prefs : Preferences) (p : Program) (passes : List Pass)
    (defined : prefs.entry ∈ p.names)
    (stays : prefs.keepSilentEntry = true ∨ prefs.entry ∉ p.silent)
    (changes : ∀ pass ∈ passes, pass.Changes prefs p)
    (silent : .removeSilent (prefs.spared p) ∈ passes) (unreached : .removeUnreached ∈ passes)
    (last : passes.getLast? = some .tidy) :
    ∃ q, (Pass.runAll (prefs.entryIn p) p passes).result = .ok q ∧
      (p.simplify prefs).result = .ok q := by
  have keeps : p.keepsEntry prefs = true :=
    keepsEntry_iff.2 ⟨defined, stays.imp_right (live_iff_not_mem_silent defined).2⟩
  have entry : prefs.entryIn p = some prefs.entry := entryIn_eq_some_iff.2 ⟨defined, rfl⟩
  obtain ⟨before, rfl⟩ := List.getLast?_eq_some_iff.1 last
  have earlier : ∀ pass ∈ before, pass.Changes prefs p :=
    fun pass inside => changes pass (List.mem_append_left _ inside)
  have stage : Stage prefs p (p.afterPasses (some prefs.entry) before) :=
    (Stage.refl defined).afterPasses keeps earlier
  -- Both removals come before the last pass, which is neither of them.
  have live : ∀ n ∈ (p.afterPasses (some prefs.entry) before).names,
      p.Live n ∨ n = prefs.entry := by
    refine (Stage.refl defined).forall_names_of_mem keeps earlier (by simpa using silent) ?_
    intro r here n inside
    obtain ⟨known, live | spared⟩ := mem_names_removeSilent.1 inside
    · exact .inl ((here.live_iff known).1 live)
    · exact .inr (spared_eq_some_iff.1 spared).2.2.symm
  have reached : ∀ n ∈ (p.afterPasses (some prefs.entry) before).names,
      p.Reaches prefs.entry n := by
    refine (Stage.refl defined).forall_names_of_mem keeps earlier (by simpa using unreached) ?_
    intro r here n inside
    rw [Pass.apply, removeUnreached_of_mem here.entry] at inside
    obtain ⟨f, found, reached⟩ := mem_names_retain.1 inside
    rw [Func.isReached, decide_eq_true_eq, mem_reachable_iff, (find?_eq_some_iff.1 found).2]
      at reached
    exact here.part.reaches reached.2
  have final : p.afterPasses (some prefs.entry) (before ++ [.tidy]) = p.simplified prefs := by
    rw [Program.afterPasses, List.foldl_append]
    exact stage.tidy_eq_simplified live reached keeps
  refine ⟨p.simplified prefs, ?_, result_simplify prefs p⟩
  rw [result_runAll fun pass inside => objection?_of_changes (changes pass inside), entry, final]

/-- A choice that comes down to nothing once `mute` is gone, and a function that nobody starts. -/
def withMutedBranch : Program :=
  ⟨[⟨"main", [], [.branch .condition [.invoke .call ⟨"mute", []⟩] [],
      .invoke .spawn ⟨"blink", []⟩]⟩,
    ⟨"stray", [], [.invoke .call ⟨"main", []⟩, .act (.perform .recv "signal")]⟩,
    ⟨"mute", [], [.invoke .call ⟨"mute", []⟩]⟩,
    ⟨"blink", [], [.act (.perform .send "signal"), .invoke .call ⟨"blink", []⟩]⟩], by decide⟩

/-- Tidying early and searching before the silent functions are gone changes nothing in the end. -/
theorem result_runAll_of_schedule_early_tidying :
    "main" ∈ withMutedBranch.names ∧
      ∃ q, (Pass.runAll (some "main") withMutedBranch
          [.tidy, .removeUnreached, .tidy, .removeSilent (some "main"), .tidy]).result = .ok q ∧
        (withMutedBranch.simplify { entry := "main" }).result = .ok q := by
  have defined : "main" ∈ withMutedBranch.names := by decide
  have entry : ({ entry := "main" } : Preferences).entryIn withMutedBranch = some "main" := by
    decide
  have spared : ({ entry := "main" } : Preferences).spared withMutedBranch = some "main" := by
    decide
  have same := result_runAll_of_schedule { entry := "main" } withMutedBranch
    [.tidy, .removeUnreached, .tidy, .removeSilent (some "main"), .tidy] defined (.inl rfl)
    (by simp [Pass.Changes, spared]) (by simp [spared]) (by simp) rfl
  rw [entry] at same
  exact ⟨defined, same⟩

end Program

end BehaviouralTypes
