import BehaviouralTypes.Proofs.CallGraph
import Mathlib.Data.List.Perm.Subperm

/-!
# What the search finds

The search splits the functions into unmet and pending ones and never loses one
(`Frontier.meetAll_perm`). From that split follow the three facts that describe its result: it looks
into everything pending, it looks into whatever a function that it looked into leads to, and it
looks into nothing else. Together they say that the search finds exactly the names that the entry
reaches (`Program.mem_reachable_iff`).
-/

namespace BehaviouralTypes

namespace Frontier

variable {s : Frontier} {f g : Func} {n : Name} {names : List Name}

/-- All functions of the search that are still to be looked into. -/
def all (s : Frontier) : List Func := s.unmet ++ s.pending

/-- Meeting a name does nothing, or it moves a function of that name to the pending ones. -/
theorem meet_cases (s : Frontier) (n : Name) :
    ((∀ f ∈ s.unmet, f.name ≠ n) ∧ s.meet n = s) ∨
      ∃ before f after, s.unmet = before ++ f :: after ∧ f.name = n ∧
        s.meet n = ⟨before ++ after, f :: s.pending⟩ := by
  unfold meet
  split
  · next f found =>
    obtain ⟨named, before, after, split, others⟩ := List.find?_eq_some_iff_append.1 found
    have passed : ∀ g ∈ before, ¬ decide (g.name = n) = true := fun g inside => by
      simpa using others g inside
    have erased : (f :: after).eraseP (·.name = n) = after := List.eraseP_cons_of_pos named
    refine .inr ⟨before, f, after, split, of_decide_eq_true named, ?_⟩
    rw [split, List.eraseP_append_right _ passed, erased]
  · next missing =>
    refine .inl ⟨fun f inside => ?_, rfl⟩
    simpa using List.find?_eq_none.1 missing f inside

/-- Meeting a name moves functions and loses none. -/
theorem meet_perm (s : Frontier) (n : Name) : (s.meet n).all.Perm s.all := by
  rcases meet_cases s n with ⟨-, same⟩ | ⟨before, f, after, split, -, same⟩
  · rw [same]
  · simp only [all, same, split, List.append_assoc, List.cons_append]
    exact List.Perm.append_left before List.perm_middle

/-- What is pending stays pending when another name is met. -/
theorem pending_meet (pending : f ∈ s.pending) : f ∈ (s.meet n).pending := by
  rcases meet_cases s n with ⟨-, same⟩ | ⟨_, g, _, -, -, same⟩
  · rwa [same]
  · rw [same]
    exact List.mem_cons_of_mem g pending

/-- A name that is left in the search is pending once it is met. -/
theorem exists_pending_meet (f : Func) (left : f ∈ s.all) :
    ∃ g ∈ (s.meet f.name).pending, g.name = f.name := by
  rcases List.mem_append.1 left with unmet | pending
  · rcases meet_cases s f.name with ⟨absent, -⟩ | ⟨_, g, _, -, named, same⟩
    · exact absurd rfl (absent f unmet)
    · exact ⟨g, by rw [same]; exact List.mem_cons_self, named⟩
  · exact ⟨f, pending_meet pending, rfl⟩

/-- What becomes pending was pending or has the name that is met. -/
theorem of_pending_meet (pending : f ∈ (s.meet n).pending) : f ∈ s.pending ∨ f.name = n := by
  rcases meet_cases s n with ⟨-, same⟩ | ⟨_, g, _, -, named, same⟩
  · rw [same] at pending
    exact .inl pending
  · rw [same] at pending
    rcases List.mem_cons.1 pending with rfl | before
    · exact .inr named
    · exact .inl before

/-- Meeting names moves functions and loses none. -/
theorem meetAll_perm (s : Frontier) (names : List Name) : (s.meetAll names).all.Perm s.all := by
  induction names generalizing s with
  | nil => exact List.Perm.refl _
  | cons n rest ih => exact (ih (s.meet n)).trans (meet_perm s n)

/-- What is pending stays pending when other names are met. -/
theorem pending_meetAll (pending : f ∈ s.pending) : f ∈ (s.meetAll names).pending := by
  induction names generalizing s with
  | nil => exact pending
  | cons n rest ih => exact ih (pending_meet pending)

/-- Every name on the list that is left in the search becomes pending. -/
theorem exists_pending_meetAll (listed : f.name ∈ names) (left : f ∈ s.all) :
    ∃ g ∈ (s.meetAll names).pending, g.name = f.name := by
  induction names generalizing s with
  | nil => exact absurd listed List.not_mem_nil
  | cons n rest ih =>
    rcases List.mem_cons.1 listed with rfl | later
    · obtain ⟨g, pending, named⟩ := exists_pending_meet f left
      exact ⟨g, pending_meetAll (s := s.meet f.name) pending, named⟩
    · exact ih later ((meet_perm s n).mem_iff.2 left)

/-- What is pending behind some names was pending before or is one of them. -/
theorem of_pending_meetAll (pending : f ∈ (s.meetAll names).pending) :
    f ∈ s.pending ∨ f.name ∈ names := by
  induction names generalizing s with
  | nil => exact .inl pending
  | cons n rest ih =>
    rcases ih (s := s.meet n) pending with met | later
    · rcases of_pending_meet met with before | rfl
      · exact .inl before
      · exact .inr List.mem_cons_self
    · exact .inr (List.mem_cons_of_mem n later)

/-- The search looks into no function twice, and only into those it started with. -/
theorem explore_subperm (s : Frontier) : s.explore.Subperm s.all := by
  fun_induction explore s with
  | case1 unmet => exact List.nil_subperm
  | case2 unmet f rest ih =>
    have left : (meetAll ⟨unmet, rest⟩ f.body.targets).all.Perm (unmet ++ rest) :=
      meetAll_perm ⟨unmet, rest⟩ f.body.targets
    exact ((List.subperm_cons f).2 (ih.trans left.subperm)).trans List.perm_middle.symm.subperm

/-- The search looks into whatever is pending. -/
theorem mem_explore_of_pending (pending : f ∈ s.pending) : f ∈ s.explore := by
  fun_induction explore s with
  | case1 unmet => exact absurd pending List.not_mem_nil
  | case2 unmet g rest ih =>
    rcases List.mem_cons.1 pending with rfl | later
    · exact List.mem_cons_self
    · exact List.mem_cons_of_mem g (ih (pending_meetAll later))

/-- What a function of the search leads to is a function of the search, if it is left in it. -/
theorem explore_closed (explored : f ∈ s.explore) (target : g.name ∈ f.body.targets)
    (left : g ∈ s.all) : ∃ h ∈ s.explore, h.name = g.name := by
  fun_induction explore s with
  | case1 unmet => exact absurd explored List.not_mem_nil
  | case2 unmet head rest ih =>
    -- The head is looked into now; every other function is left for the rest of the search.
    rcases List.mem_cons.1 (List.perm_middle.mem_iff.1 left) with rfl | others
    · exact ⟨g, List.mem_cons_self, rfl⟩
    rcases List.mem_cons.1 explored with rfl | later
    · obtain ⟨h, pending, named⟩ :=
        exists_pending_meetAll (s := ⟨unmet, rest⟩) target others
      exact ⟨h, List.mem_cons_of_mem _ (mem_explore_of_pending pending), named⟩
    · obtain ⟨h, found, named⟩ := ih later ((meetAll_perm _ _).mem_iff.2 others)
      exact ⟨h, List.mem_cons_of_mem _ found, named⟩

/-- The search looks only into what the pending functions reach. -/
theorem reaches_of_mem_explore {p : Program} (known : ∀ g ∈ s.all, g ∈ p.functions)
    (explored : f ∈ s.explore) : ∃ g ∈ s.pending, p.Reaches g.name f.name := by
  fun_induction explore s with
  | case1 unmet => exact absurd explored List.not_mem_nil
  | case2 unmet head rest ih =>
    rcases List.mem_cons.1 explored with rfl | later
    · exact ⟨f, List.mem_cons_self, .refl⟩
    have inside : head ∈ p.functions := known head (List.perm_middle.mem_iff.2 List.mem_cons_self)
    have others : ∀ g ∈ (meetAll ⟨unmet, rest⟩ head.body.targets).all, g ∈ p.functions := by
      intro g left
      have before : g ∈ unmet ++ rest := (meetAll_perm ⟨unmet, rest⟩ _).mem_iff.1 left
      exact known g (List.perm_middle.mem_iff.2 (List.mem_cons_of_mem head before))
    obtain ⟨g, pending, path⟩ := ih others later
    rcases of_pending_meetAll pending with before | target
    · exact ⟨g, List.mem_cons_of_mem head before, path⟩
    · have defined := Program.name_mem_names (others g (List.mem_append_right _ pending))
      have edge : p.Leads head.name g.name := ⟨head, Program.find?_of_mem inside, target, defined⟩
      exact ⟨head, List.mem_cons_self, path.head edge⟩

end Frontier

namespace Program

variable {p : Program} {entry n : Name}

/-- The search finds the names that the entry reaches, if the entry is defined. -/
theorem mem_reachable_iff :
    n ∈ p.reachable entry ↔ entry ∈ p.names ∧ p.Reaches entry n := by
  have known : ∀ g, g ∈ (Frontier.meet ⟨p.functions, []⟩ entry).all ↔ g ∈ p.functions := by
    intro g
    rw [(Frontier.meet_perm ⟨p.functions, []⟩ entry).mem_iff, Frontier.all, List.append_nil]
  constructor
  · intro found
    obtain ⟨f, explored, rfl⟩ := List.mem_map.1 found
    obtain ⟨g, pending, path⟩ :=
      Frontier.reaches_of_mem_explore (fun g left => (known g).1 left) explored
    have inside := (known g).1 (List.mem_append_right _ pending)
    rcases Frontier.of_pending_meet pending with before | rfl
    · exact absurd before List.not_mem_nil
    · exact ⟨name_mem_names inside, path⟩
  · rintro ⟨defined, path⟩
    obtain ⟨e, inside, rfl⟩ := mem_names.1 defined
    refine List.mem_map.2 ?_
    induction path with
    | refl =>
      obtain ⟨g, pending, named⟩ := Frontier.exists_pending_meet e
        (s := ⟨p.functions, []⟩) (List.mem_append_left _ inside)
      exact ⟨g, Frontier.mem_explore_of_pending pending, named⟩
    | tail _ edge ih =>
      obtain ⟨f, explored, rfl⟩ := ih
      obtain ⟨g, found, target, goal⟩ := edge
      obtain ⟨h, there, rfl⟩ := mem_names.1 goal
      have same : g = f := by
        have also := find?_of_mem ((known f).1 ((Frontier.explore_subperm _).subset explored))
        exact Option.some.inj (found.symm.trans also)
      exact Frontier.explore_closed explored (same ▸ target) ((known h).2 there)

end Program

end BehaviouralTypes
