import BehaviouralTypes.Program.Basic

/-!
# Reachable functions

The functions that an entry leads to by calls and spawns at any depth of the bodies. The search
keeps the functions not met so far apart from those that are met but not yet looked into. Meeting
a function moves it from the first list to the second, so each is looked into once and the search
ends on cyclic programs too.
-/

namespace BehaviouralTypes

/-- The state of a search through the functions of a program. -/
structure Frontier where
  /-- The functions not met so far. -/
  unmet : List Func
  /-- The functions met but not yet looked into, the latest first. -/
  pending : List Func

namespace Frontier

/-- Meets the function of that name, if it is defined and was not met before. -/
def meet (s : Frontier) (name : Name) : Frontier :=
  match s.unmet.find? (·.name = name) with
  | some f => ⟨s.unmet.eraseP (·.name = name), f :: s.pending⟩
  | none => s

/-- The number of functions still to be looked into, met or not. -/
def remaining (s : Frontier) : Nat := s.unmet.length + s.pending.length

/-- Meeting a name leaves as many functions to be looked into. -/
@[simp] theorem remaining_meet (s : Frontier) (name : Name) :
    (s.meet name).remaining = s.remaining := by
  unfold meet
  split
  · next f found =>
    have inside : f ∈ s.unmet := List.mem_of_find?_eq_some found
    have named := List.find?_some found
    have shorter : (s.unmet.eraseP (·.name = name)).length = s.unmet.length - 1 :=
      List.length_eraseP_of_mem inside named
    have occupied : 0 < s.unmet.length := List.length_pos_of_mem inside
    simp only [remaining, List.length_cons, shorter]
    omega
  · rfl

/-- Meets the functions of these names in turn. -/
def meetAll (s : Frontier) (names : List Name) : Frontier := names.foldl meet s

/-- Meeting names leaves as many functions to be looked into. -/
@[simp] theorem remaining_meetAll (s : Frontier) (names : List Name) :
    (s.meetAll names).remaining = s.remaining := by
  induction names generalizing s with
  | nil => rfl
  | cons name rest ih =>
    rw [← remaining_meet s name]
    exact ih (s.meet name)

/-- The functions that the search looks into from here on, in order. -/
def explore : Frontier → List Func
  | ⟨_, []⟩ => []
  | ⟨unmet, f :: rest⟩ => f :: (meetAll ⟨unmet, rest⟩ f.body.targets).explore
termination_by s => s.remaining
decreasing_by
  rw [remaining_meetAll]
  simp only [remaining, List.length_cons]
  omega

end Frontier

namespace Program

/-- The names of the functions that the entry leads to, itself included, in the order in which
the search looks into them; none if the entry is not defined. -/
def reachable (p : Program) (entry : Name) : List Name :=
  (Frontier.meet ⟨p.functions, []⟩ entry).explore.map (·.name)

end Program

end BehaviouralTypes
