import BehaviouralTypes.Proofs.Retention
import Mathlib.Data.List.Infix

/-!
# Sessions

A session edits a program step by step: definitions come and go, bodies change, and whole
simplifications are run in between. Only the addition of a definition looks at the names that are
taken already; every other edit narrows the table or leaves its headings alone
(`Edit.headings_apply`). So at every point of a session a name has one definition, the places of
the names are in step with the definitions, what is not removed keeps its order, and an edit that
tells what it removed tells the truth (`Edit.session_invariant`).
-/

namespace BehaviouralTypes

/-- A change of a program. -/
inductive Edit where
  /-- Adds a definition at the end. It is refused, and the program stays as it is, if the name is
  taken. -/
  | add (f : Func)
  /-- Removes the definition of a name, if there is one. -/
  | erase (name : Name)
  /-- Removes the functions that fail a test. -/
  | retain (keep : Func → Bool)
  /-- Replaces the bodies, or as many of them as the change alters. -/
  | rewrite (change : Func → Block)
  /-- Removes the silent functions, except the spared one. -/
  | removeSilent (spared : Option Name)
  /-- Simplifies the program. -/
  | simplify (prefs : Preferences)

namespace Edit

/-- The program after the edit. -/
def apply (p : Program) : Edit → Program
  | add f => match p.add f with
    | .ok q => q
    | .error _ => p
  | erase name => p.erase name
  | retain keep => p.retain keep
  | rewrite change => p.mapBodies change
  | removeSilent spared => p.removeSilent spared
  | simplify prefs => (p.simplify prefs).program

/-- The names that the edit tells it removed, if it is one that tells. -/
def told? (p : Program) : Edit → Option (List Name)
  | retain keep => some (p.discarded keep)
  | removeSilent spared => some (p.removableSilent spared)
  | add _ | erase _ | rewrite _ | simplify _ => none

/-- The program after edits, from the given one. -/
def applyAll (p : Program) (edits : List Edit) : Program := edits.foldl apply p

/-- The program after a session, which starts without functions. -/
def session (edits : List Edit) : Program := applyAll .empty edits

end Edit

/-! ### Headings -/

namespace Program

variable {p q : Program} {f : Func}

/-- The names and parameters of the functions, in order. -/
def headings (p : Program) : List (Name × List Binding) := p.functions.map Func.heading

/-- The headings have the names in order. -/
theorem map_fst_headings (p : Program) : p.headings.map (·.1) = p.names := by
  rw [headings, List.map_map]
  rfl

/-- Leaving functions out leaves the headings of the others. -/
theorem headings_retain (keep : Func → Bool) (p : Program) :
    (p.retain keep).headings = p.headings.filter (·.1 ∈ (p.retain keep).names) := by
  rw [headings, headings, List.filter_map, retain]
  refine congrArg (List.map Func.heading) (List.filter_congr fun f inside => ?_)
  rw [Bool.eq_iff_iff, Function.comp_apply, decide_eq_true_eq]
  exact (name_mem_names_retain inside).symm

/-- A change of the bodies keeps the headings. -/
theorem headings_mapBodies (change : Func → Block) (p : Program) :
    (p.mapBodies change).headings = p.headings := by
  rw [headings, mapBodies, List.map_map]
  rfl

/-- A heading has a defined name. -/
theorem fst_mem_names {heading : Name × List Binding} (inside : heading ∈ p.headings) :
    heading.1 ∈ p.names := by
  rw [← map_fst_headings]
  exact List.mem_map_of_mem inside

/-- Every heading is that of a defined name. -/
theorem headings_eq_filter (p : Program) : p.headings = p.headings.filter (·.1 ∈ p.names) :=
  (List.filter_eq_self.2 fun _ inside => decide_eq_true (fst_mem_names inside)).symm

/-- One more definition leaves all headings where they are. -/
theorem headings_of_append (last : q.functions = p.functions ++ [f]) :
    q.headings = p.headings.filter (·.1 ∈ q.names) ++ [f.heading] := by
  have more : q.headings = p.headings ++ [f.heading] := by
    rw [headings, last, List.map_append]
    rfl
  rw [more, List.filter_eq_self.2]
  intro heading inside
  rw [decide_eq_true_eq, ← map_fst_headings, more]
  exact List.mem_map_of_mem (List.mem_append_left _ inside)

/-- A simplification reports the simplified program. -/
theorem program_simplify (prefs : Preferences) (p : Program) :
    (p.simplify prefs).program = p.simplified prefs := by
  obtain ⟨program, fine⟩ := runAll_schedule prefs p
  simp only [simplify, fine, program]

/-- A simplification has the headings of the functions that survive it. -/
theorem headings_simplified (prefs : Preferences) (p : Program) :
    (p.simplified prefs).headings =
      p.headings.filter (·.1 ∈ (p.simplified prefs).names) := by
  have same : (p.simplified prefs).headings = (p.retain (p.survives prefs)).headings := by
    rw [headings, functions_simplified, List.map_map]
    rfl
  have names : (p.simplified prefs).names = (p.retain (p.survives prefs)).names := by
    rw [← map_fst_headings, same, map_fst_headings]
  rw [same, names, headings_retain]

end Program

/-! ### Edits -/

namespace Edit

variable {p : Program} {e : Edit} {edits later : List Edit} {kept : List (Name × List Binding)}

/-- An edit leaves the headings of the names that are still defined, in their order, and behind them
those of names that were not defined before. -/
theorem headings_apply (p : Program) (e : Edit) :
    ∃ fresh, (e.apply p).headings = p.headings.filter (·.1 ∈ (e.apply p).names) ++ fresh ∧
      ∀ heading ∈ fresh, heading.1 ∉ p.names := by
  -- Only an accepted addition brings a heading; all the other edits narrow the list.
  have narrow : ∀ q : Program, q.headings = p.headings.filter (·.1 ∈ q.names) →
      ∃ fresh, q.headings = p.headings.filter (·.1 ∈ q.names) ++ fresh ∧
        ∀ heading ∈ fresh, heading.1 ∉ p.names :=
    fun q same => ⟨[], by rw [List.append_nil]; exact same, List.forall_mem_nil _⟩
  cases e with
  | add f =>
    cases added : p.add f with
    | ok q =>
      have last := Program.add_eq_ok_iff.1 added
      simp only [apply, added]
      refine ⟨[f.heading], Program.headings_of_append last, fun heading inside => ?_⟩
      rw [List.mem_singleton.1 inside]
      exact Program.not_mem_names_of_append last
    | error e =>
      simp only [apply, added]
      exact narrow p p.headings_eq_filter
  | erase name => exact narrow _ (Program.headings_retain _ p)
  | retain keep => exact narrow _ (Program.headings_retain keep p)
  | rewrite change =>
    refine narrow _ ?_
    rw [apply, Program.names_mapBodies, Program.headings_mapBodies, ← p.headings_eq_filter]
  | removeSilent spared => exact narrow _ (Program.headings_retain _ p)
  | simplify prefs =>
    refine narrow _ ?_
    rw [apply, Program.program_simplify, ← Program.headings_simplified]

/-- Headings that an edit does not remove keep their order. -/
theorem sublist_headings_apply (listed : kept.Sublist p.headings)
    (stay : ∀ heading ∈ kept, heading.1 ∈ (e.apply p).names) :
    kept.Sublist (e.apply p).headings := by
  obtain ⟨fresh, headings, -⟩ := headings_apply p e
  have spared : kept.filter (·.1 ∈ (e.apply p).names) = kept :=
    List.filter_eq_self.2 fun heading inside => decide_eq_true (stay heading inside)
  rw [headings, ← spared]
  exact (listed.filter _).trans (List.sublist_append_left _ fresh)

/-- Headings that no edit removes keep their order. -/
theorem sublist_headings_applyAll (listed : kept.Sublist p.headings)
    (stay : ∀ done, done <+: edits → ∀ heading ∈ kept, heading.1 ∈ (applyAll p done).names) :
    kept.Sublist (applyAll p edits).headings := by
  induction edits generalizing p with
  | nil => exact listed
  | cons e edits ih =>
    refine ih (sublist_headings_apply listed (stay [e] ⟨edits, rfl⟩)) fun done start => ?_
    exact stay (e :: done) (List.cons_prefix_cons.2 ⟨rfl, start⟩)

/-- Edits are applied in parts. -/
theorem session_append (edits later : List Edit) :
    session (edits ++ later) = applyAll (session edits) later :=
  List.foldl_append

/-- An edit that tells what it removed names those that are gone, in the order of the program. -/
theorem eq_of_told? {removed : List Name} (told : e.told? p = some removed) :
    removed = p.names.filter (· ∉ (e.apply p).names) := by
  cases e with
  | add | erase | rewrite | simplify => cases told
  | retain keep =>
    cases told
    exact Program.discarded_eq keep p
  | removeSilent spared =>
    cases told
    exact Program.discarded_eq _ p

/-- **The invariant of a session.** Whatever edits a session has made so far, refused ones included,
no name is defined twice; exactly the defined names have a place, each one place, which is that of
the function that the name stands for and lies within the table; the functions that no later edit
removes keep their names, their parameters and their order; and an edit that tells what it removed
names exactly those that are gone, in the order of the program. -/
theorem session_invariant (edits : List Edit) :
    (session edits).names.Nodup ∧
      (∀ n, n ∈ (session edits).names ↔ ∃! i, (n, i) ∈ (session edits).indices) ∧
      (∀ n i, (n, i) ∈ (session edits).indices → i < (session edits).size ∧
        ∃ f, (session edits).find? n = some f ∧ (session edits).functions[i]? = some f) ∧
      (∀ (later : List Edit) (kept : List (Name × List Binding)),
        kept.Sublist (session edits).headings →
        (∀ done, done <+: later → ∀ heading ∈ kept,
          heading.1 ∈ (session (edits ++ done)).names) →
        kept.Sublist (session (edits ++ later)).headings) ∧
      ∀ (e : Edit) (removed : List Name), e.told? (session edits) = some removed →
        removed = (session edits).names.filter (· ∉ (session (edits ++ [e])).names) := by
  refine ⟨(session edits).nodup, fun n => Program.mem_names_iff_existsUnique,
    fun n i placed => ?_, fun later kept listed stay => ?_, fun e removed told => ?_⟩
  · obtain ⟨f, place, found⟩ := Program.mem_indices_iff.1 placed
    exact ⟨(List.getElem?_eq_some_iff.1 place).1, f, found, place⟩
  · simp only [session_append] at stay ⊢
    exact sublist_headings_applyAll listed stay
  · rw [session_append]
    exact eq_of_told? told

/-- Three definitions, and in between one that is refused. -/
def threeAdded : List Edit :=
  [.add ⟨"main", [], [.invoke .call ⟨"idle", []⟩, .invoke .spawn ⟨"work", []⟩]⟩,
    .add ⟨"idle", [], []⟩, .add ⟨"main", [], []⟩,
    .add ⟨"work", [.plain "x"], [.act (.perform .send "x")]⟩]

/-- `idle` is removed, comes back behind the others and is simplified away. -/
theorem session_invariant_removed_and_readded :
    let later : List Edit :=
      [.removeSilent none, .add ⟨"idle", [], []⟩, .simplify { entry := "main" }]
    let kept : List (Name × List Binding) := [("main", []), ("work", [.plain "x"])]
    ("work", 2) ∈ (session threeAdded).indices ∧ 2 < (session threeAdded).size ∧
      kept.Sublist (session threeAdded).headings ∧
      (∀ done, done <+: later → ∀ heading ∈ kept,
        heading.1 ∈ (session (threeAdded ++ done)).names) ∧
      kept.Sublist (session (threeAdded ++ later)).headings ∧
      (removeSilent none).told? (session threeAdded) = some ["idle"] ∧
      ["idle"] = (session threeAdded).names.filter
        (· ∉ (session (threeAdded ++ [.removeSilent none])).names) := by
  intro later kept
  obtain ⟨-, -, places, order, telling⟩ := session_invariant threeAdded
  have placed : ("work", 2) ∈ (session threeAdded).indices := by decide +kernel
  have listed : kept.Sublist (session threeAdded).headings := by decide +kernel
  have stay : ∀ done, done <+: later → ∀ heading ∈ kept,
      heading.1 ∈ (session (threeAdded ++ done)).names := by
    intro done start
    have all : ∀ done ∈ later.inits, ∀ heading ∈ kept,
        heading.1 ∈ (session (threeAdded ++ done)).names := by decide +kernel
    exact all done ((List.mem_inits done later).2 start)
  have told : (removeSilent none).told? (session threeAdded) = some ["idle"] := by decide +kernel
  exact ⟨placed, (places "work" 2 placed).1, listed, stay, order later kept listed stay, told,
    telling _ _ told⟩

end Edit

end BehaviouralTypes
