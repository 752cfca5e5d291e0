import BehaviouralTypes.Program.Basic
import Mathlib.Data.List.Nodup

/-!
# The table of definitions

A program is a list of functions, and its type rules out that a name is defined twice. So a name
stands for one function (`Program.find?_eq_some_iff`) and has one place (`Program.mem_indices_iff`,
`Program.mem_names_iff_existsUnique`), and whether a function passes a test can be told from the
names that are left (`Program.name_mem_names_retain`). Each operation on the table has its lemmas
here, and no later proof looks at the list itself without need.
-/

namespace BehaviouralTypes

namespace Program

variable {p q : Program} {n : Name} {f : Func} {i j : Nat} {keep : Func → Bool}

/-- A program is its list of functions. -/
theorem ext_functions (same : p.functions = q.functions) : p = q := by
  cases p
  cases q
  cases same
  rfl

/-! ### Names -/

/-- A name is defined if a function has it. -/
theorem mem_names : n ∈ p.names ↔ ∃ f ∈ p.functions, f.name = n := List.mem_map

/-- A program defines its names. -/
@[simp] theorem defines_iff : p.defines n = true ↔ n ∈ p.names := by
  rw [defines, decide_eq_true_eq]

/-- A name stands for the one function that bears it. -/
theorem find?_eq_some_iff : p.find? n = some f ↔ f ∈ p.functions ∧ f.name = n := by
  constructor
  · intro found
    have named : f.name = n := by simpa using List.find?_some found
    exact ⟨List.mem_of_find?_eq_some found, named⟩
  · rintro ⟨inside, rfl⟩
    cases found : p.find? f.name with
    | none => exact absurd (decide_eq_true rfl) (List.find?_eq_none.1 found f inside)
    | some g =>
      have other := List.mem_of_find?_eq_some found
      have named : g.name = f.name := by simpa using List.find?_some found
      rw [List.inj_on_of_nodup_map p.nodup other inside named]

/-- A name is defined if looking it up finds something. -/
theorem mem_names_iff_find? : n ∈ p.names ↔ ∃ f, p.find? n = some f := by
  simp only [mem_names, find?_eq_some_iff]

/-- Looking up a name that is not defined finds nothing. -/
theorem find?_eq_none_iff : p.find? n = none ↔ n ∉ p.names := by
  rw [mem_names_iff_find?, ← Option.ne_none_iff_exists', not_not]

/-- Looking up the name of a function finds the function. -/
theorem find?_of_mem (inside : f ∈ p.functions) : p.find? f.name = some f :=
  find?_eq_some_iff.2 ⟨inside, rfl⟩

/-- The name of a function is defined. -/
theorem name_mem_names (inside : f ∈ p.functions) : f.name ∈ p.names :=
  List.mem_map_of_mem inside

/-! ### Adding -/

/-- A program with one more definition at the end had its name free before. -/
theorem not_mem_names_of_append (last : q.functions = p.functions ++ [f]) : f.name ∉ p.names := by
  have distinct : (p.names ++ [f.name]).Nodup := by
    have distinct := q.nodup
    rwa [last, List.map_append] at distinct
  exact fun taken =>
    (List.nodup_append.1 distinct).2.2 _ taken _ (List.mem_singleton_self f.name) rfl

/-- A definition is accepted when its name is not taken, and then it comes last. -/
theorem add_eq_ok_iff : p.add f = .ok q ↔ q.functions = p.functions ++ [f] := by
  unfold add
  constructor
  · intro accepted
    split at accepted
    · cases accepted
    · cases accepted
      rfl
  · intro last
    rw [dif_neg (not_mem_names_of_append last)]
    exact congrArg Except.ok (ext_functions last.symm)

/-- A definition is refused when its name is taken. -/
theorem add_eq_error_iff {e : Redefinition} :
    p.add f = .error e ↔ f.name ∈ p.names ∧ e = ⟨f.name⟩ := by
  unfold add
  constructor
  · intro refused
    split at refused
    · next taken =>
      cases refused
      exact ⟨taken, rfl⟩
    · cases refused
  · rintro ⟨taken, rfl⟩
    exact dif_pos taken

/-! ### Removing -/

/-- Looking up among those left finds what was there, if it was left. -/
theorem find?_retain :
    (p.retain keep).find? n = some f ↔ p.find? n = some f ∧ keep f = true := by
  simp only [find?_eq_some_iff, retain, List.mem_filter]
  exact and_right_comm

/-- The names left are those of functions that are kept. -/
theorem mem_names_retain :
    n ∈ (p.retain keep).names ↔ ∃ f, p.find? n = some f ∧ keep f = true := by
  simp only [mem_names_iff_find?, find?_retain]

/-- Keeping everything changes nothing. -/
theorem retain_eq_self (all : ∀ f ∈ p.functions, keep f = true) :
    p.retain keep = p := by
  have same : p.functions.filter keep = p.functions := List.filter_eq_self.2 all
  cases p
  simp only [retain, same]

/-- A function passes the test exactly if its name is still defined afterwards. -/
theorem name_mem_names_retain (inside : f ∈ p.functions) :
    f.name ∈ (p.retain keep).names ↔ keep f = true := by
  rw [mem_names_retain]
  constructor
  · rintro ⟨g, found, kept⟩
    rw [find?_of_mem inside] at found
    cases found
    exact kept
  · exact fun kept => ⟨f, find?_of_mem inside, kept⟩

/-- The functions that fail the test are those whose names disappear. -/
theorem discarded_eq (keep : Func → Bool) (p : Program) :
    p.discarded keep = p.names.filter (· ∉ (p.retain keep).names) := by
  have named : p.names = p.functions.map Func.name := rfl
  rw [discarded, named, List.filter_map]
  refine congrArg (List.map Func.name) (List.filter_congr fun f inside => ?_)
  rw [Bool.eq_iff_iff, Function.comp_apply, decide_eq_true_eq, name_mem_names_retain inside,
    Bool.not_eq_true, Bool.not_eq_true']

/-! ### Changing bodies -/

/-- A change of the bodies keeps the names. -/
theorem names_mapBodies (g : Func → Block) : (p.mapBodies g).names = p.names := by
  simp only [names, mapBodies, List.map_map]
  rfl

/-- A change of the bodies shows when a name is looked up. -/
theorem find?_mapBodies (g : Func → Block) :
    (p.mapBodies g).find? n = (p.find? n).map fun f => { f with body := g f } := by
  simp only [find?, mapBodies, List.find?_map]
  rfl

/-! ### Places -/

/-- A name is paired with the place of the function that it stands for. -/
theorem mem_indices_iff :
    (n, i) ∈ p.indices ↔ ∃ f, p.functions[i]? = some f ∧ p.find? n = some f := by
  rw [indices, List.mem_zipIdx_iff_getElem?, names, List.getElem?_map, Option.map_eq_some_iff]
  refine exists_congr fun f => and_congr_right fun place => ?_
  rw [find?_eq_some_iff]
  exact (and_iff_right (List.mem_of_getElem? place)).symm

/-- No name has two places. -/
theorem indices_injective (first : (n, i) ∈ p.indices) (second : (n, j) ∈ p.indices) : i = j := by
  rw [indices, List.mem_zipIdx_iff_getElem?] at first second
  have bound : i < p.names.length := (List.getElem?_eq_some_iff.1 first).1
  exact (List.getElem?_inj bound p.nodup).1 (first.trans second.symm)

/-- Exactly the defined names have a place. -/
theorem mem_names_iff_existsUnique : n ∈ p.names ↔ ∃! i, (n, i) ∈ p.indices := by
  constructor
  · intro defined
    obtain ⟨f, found⟩ := mem_names_iff_find?.1 defined
    obtain ⟨i, place⟩ := List.getElem?_of_mem (find?_eq_some_iff.1 found).1
    have placed := mem_indices_iff.2 ⟨f, place, found⟩
    exact ⟨i, placed, fun j other => indices_injective other placed⟩
  · rintro ⟨i, placed, -⟩
    obtain ⟨f, -, found⟩ := mem_indices_iff.1 placed
    exact mem_names_iff_find?.2 ⟨f, found⟩

end Program

end BehaviouralTypes
