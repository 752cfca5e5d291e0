import BehaviouralTypes.Proofs.Outcome
import BehaviouralTypes.Proofs.Reachability
import BehaviouralTypes.Proofs.Silence

/-!
# Which functions survive a simplification

The silent functions go first and reachability is judged in what is left. Still the survivors can be
told from the first program alone (`Program.survives`): a path to a live function runs through live
functions only, so none of its steps is gone when the search looks for it.
-/

namespace BehaviouralTypes

/-- The name and the parameters of a definition. -/
def Func.heading (f : Func) : Name × List Binding := (f.name, f.params)

namespace Program

variable {p : Program} {prefs : Preferences} {f : Func} {n : Name}

/-- Whether a simplification keeps the entry: it is defined, and spared or not silent. -/
def keepsEntry (prefs : Preferences) (p : Program) : Bool :=
  p.defines prefs.entry && (prefs.keepSilentEntry || prefs.entry ∉ p.silent)

/-- Whether the function survives a simplification of the program that defines it. -/
def survives (prefs : Preferences) (p : Program) (f : Func) : Bool :=
  if p.keepsEntry prefs then
    f.name = prefs.entry || (f.name ∉ p.silent && f.name ∈ p.reachable prefs.entry)
  else
    f.name ∉ p.silent

/-- The entry is kept if it is defined and live or asked to stay. -/
theorem keepsEntry_iff : p.keepsEntry prefs = true ↔
    prefs.entry ∈ p.names ∧ (prefs.keepSilentEntry = true ∨ p.Live prefs.entry) := by
  simp only [keepsEntry, Bool.and_eq_true, defines_iff, Bool.or_eq_true, decide_eq_true_eq]
  constructor
  · rintro ⟨defined, spared | live⟩
    · exact ⟨defined, .inl spared⟩
    · exact ⟨defined, .inr ((live_iff_not_mem_silent defined).2 live)⟩
  · rintro ⟨defined, spared | live⟩
    · exact ⟨defined, .inl spared⟩
    · exact ⟨defined, .inr ((live_iff_not_mem_silent defined).1 live)⟩

/-- The survivors in terms of the graph. -/
theorem survives_iff (inside : f ∈ p.functions) : p.survives prefs f = true ↔
    if p.keepsEntry prefs then
      f.name = prefs.entry ∨ (p.Live f.name ∧ p.Reaches prefs.entry f.name)
    else p.Live f.name := by
  have live := live_iff_not_mem_silent (name_mem_names inside)
  unfold survives
  split
  · next kept =>
    have defined := (keepsEntry_iff.1 kept).1
    simp only [Bool.or_eq_true, Bool.and_eq_true, decide_eq_true_eq, mem_reachable_iff, live,
      defined, true_and]
  · simp only [decide_eq_true_eq, live]

/-! ### The two removals -/

/-- The entry in a program is the one asked for, if it is defined. -/
theorem entryIn_eq_some_iff :
    prefs.entryIn p = some n ↔ prefs.entry ∈ p.names ∧ prefs.entry = n := by
  rw [Preferences.entryIn, Option.ite_none_right_eq_some, defines_iff, Option.some.injEq]

/-- The entry is spared if it is defined and asked to stay. -/
theorem spared_eq_some_iff : prefs.spared p = some n ↔
    prefs.keepSilentEntry = true ∧ prefs.entry ∈ p.names ∧ prefs.entry = n := by
  rw [Preferences.spared, Option.ite_none_right_eq_some, entryIn_eq_some_iff]

/-- A function outlives the silence if it is live or spared. -/
theorem outlivesSilence_iff {spared : Option Name} (inside : f ∈ p.functions) :
    f.outlivesSilence p.silent spared = true ↔ p.Live f.name ∨ spared = some f.name := by
  simp only [Func.outlivesSilence, Bool.or_eq_true, decide_eq_true_eq,
    live_iff_not_mem_silent (name_mem_names inside)]

/-- Removing the silent leaves what is live or spared. -/
theorem mem_names_removeSilent {spared : Option Name} :
    n ∈ (p.removeSilent spared).names ↔ n ∈ p.names ∧ (p.Live n ∨ spared = some n) := by
  rw [removeSilent, mem_names_retain, mem_names_iff_find?]
  constructor
  · rintro ⟨f, found, kept⟩
    obtain ⟨inside, rfl⟩ := find?_eq_some_iff.1 found
    exact ⟨⟨f, found⟩, (outlivesSilence_iff inside).1 kept⟩
  · rintro ⟨⟨f, found⟩, stays⟩
    obtain ⟨inside, rfl⟩ := find?_eq_some_iff.1 found
    exact ⟨f, found, (outlivesSilence_iff inside).2 stays⟩

/-- The removal of silent functions changes no path to a live function. -/
theorem reaches_removeSilent {spared : Option Name} {entry : Name} (live : p.Live n) :
    (p.removeSilent spared).Reaches entry n ↔ p.Reaches entry n := by
  have part : (p.removeSilent spared).Restricts p := retain_restricts _ p
  refine ⟨part.reaches, fun path => part.reaches_of_live (fun m _ live => ?_) path live⟩
  exact mem_names_removeSilent.2 ⟨live.defined, .inl live⟩

/-- Removing the unreached leaves what is reachable from a defined entry. -/
theorem removeUnreached_of_mem {entry : Name} (defined : entry ∈ p.names) :
    p.removeUnreached (some entry) = p.retain (Func.isReached (p.reachable entry)) :=
  if_pos (defines_iff.2 defined)

/-- Without the entry nothing is removed as unreached. -/
theorem removeUnreached_of_not_mem {entry : Name} (missing : entry ∉ p.names) :
    p.removeUnreached (some entry) = p :=
  if_neg fun defined => missing (defines_iff.1 defined)

/-- If the entry stays, the removals leave it and the live functions that it reaches. -/
theorem functions_removals_of_keepsEntry (kept : p.keepsEntry prefs = true) :
    ((p.removeSilent (prefs.spared p)).removeUnreached (prefs.entryIn p)).functions =
      p.functions.filter (p.survives prefs) := by
  obtain ⟨defined, why⟩ := keepsEntry_iff.1 kept
  have stays : prefs.entry ∈ (p.removeSilent (prefs.spared p)).names :=
    mem_names_removeSilent.2
      ⟨defined, why.symm.imp_right fun keep => spared_eq_some_iff.2 ⟨keep, defined, rfl⟩⟩
  rw [entryIn_eq_some_iff.2 ⟨defined, rfl⟩, removeUnreached_of_mem stays]
  refine List.filter_filter.trans (List.filter_congr fun f inside => ?_)
  rw [Bool.eq_iff_iff, Bool.and_eq_true, outlivesSilence_iff inside, survives_iff inside,
    if_pos kept, Func.isReached, decide_eq_true_eq, mem_reachable_iff]
  constructor
  · rintro ⟨⟨-, path⟩, live | spared⟩
    · exact .inr ⟨live, (reaches_removeSilent live).1 path⟩
    · exact .inl (spared_eq_some_iff.1 spared).2.2.symm
  · rintro (same | ⟨live, path⟩)
    · rw [same]
      exact ⟨⟨stays, .refl⟩, (mem_names_removeSilent.1 stays).2⟩
    · exact ⟨⟨stays, (reaches_removeSilent live).2 path⟩, .inl live⟩

/-- If the entry does not stay, nothing is unreachable from it, and the removals leave the live
functions. -/
theorem functions_removals_of_not_keepsEntry (lost : ¬ p.keepsEntry prefs = true) :
    ((p.removeSilent (prefs.spared p)).removeUnreached (prefs.entryIn p)).functions =
      p.functions.filter (p.survives prefs) := by
  have unspared : ∀ n, prefs.spared p ≠ some n := by
    intro n spared
    obtain ⟨keep, defined, -⟩ := spared_eq_some_iff.1 spared
    exact lost (keepsEntry_iff.2 ⟨defined, .inl keep⟩)
  have idle : (p.removeSilent (prefs.spared p)).removeUnreached (prefs.entryIn p) =
      p.removeSilent (prefs.spared p) := by
    cases entry : prefs.entryIn p with
    | none => rfl
    | some e =>
      obtain ⟨defined, rfl⟩ := entryIn_eq_some_iff.1 entry
      refine removeUnreached_of_not_mem fun stays => ?_
      rcases (mem_names_removeSilent.1 stays).2 with live | spared
      · exact lost (keepsEntry_iff.2 ⟨defined, .inr live⟩)
      · exact unspared _ spared
  rw [idle]
  refine List.filter_congr fun f inside => ?_
  rw [Bool.eq_iff_iff, outlivesSilence_iff inside, survives_iff inside, if_neg lost]
  exact ⟨fun stays => stays.resolve_right (unspared f.name), .inl⟩

/-- The removals leave the survivors, with their definitions as they were. -/
theorem functions_removals (prefs : Preferences) (p : Program) :
    ((p.removeSilent (prefs.spared p)).removeUnreached (prefs.entryIn p)).functions =
      p.functions.filter (p.survives prefs) := by
  by_cases kept : p.keepsEntry prefs = true
  · exact functions_removals_of_keepsEntry kept
  · exact functions_removals_of_not_keepsEntry kept

/-! ### The survivors -/

/-- A name is defined in the outcome when the function that it stands for survives. -/
theorem mem_names_simplified : n ∈ (p.simplified prefs).names ↔ n ∈ p.names ∧
    if p.keepsEntry prefs then n = prefs.entry ∨ (p.Live n ∧ p.Reaches prefs.entry n)
    else p.Live n := by
  rw [simplified, names_tidy, names, functions_removals]
  simp only [List.mem_map, List.mem_filter, mem_names]
  constructor
  · rintro ⟨f, ⟨inside, stays⟩, rfl⟩
    exact ⟨⟨f, inside, rfl⟩, (survives_iff inside).1 stays⟩
  · rintro ⟨⟨f, inside, rfl⟩, stays⟩
    exact ⟨f, ⟨inside, (survives_iff inside).2 stays⟩, rfl⟩

/-- **The survivors.** A simplification succeeds, and it keeps the functions that survive by the
judgement on the first program, in their order and with their names and parameters. -/
theorem headings_simplify (prefs : Preferences) (p : Program) :
    ∃ q, (p.simplify prefs).result = .ok q ∧
      q.functions.map Func.heading = (p.functions.filter (p.survives prefs)).map Func.heading := by
  refine ⟨p.simplified prefs, result_simplify prefs p, ?_⟩
  rw [← functions_removals prefs p, simplified, tidy, mapBodies, List.map_map]
  rfl

end Program

end BehaviouralTypes
