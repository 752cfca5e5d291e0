import BehaviouralTypes.Proofs.CallGraph

/-!
# What the exclusion leaves

A round of the exclusion keeps two bounds (`Candidates.Sound`): whatever is excluded is live, and
whatever a remaining function invokes is a remaining function or was excluded of late. A round that
excludes nobody turns the second bound into silence. So the search for silent functions ends with
exactly the functions that are not live (`Program.mem_silent_iff`), whatever the order in which it
looks at them.
-/

namespace BehaviouralTypes

namespace Candidates

variable {p : Program} {c : Candidates} {loud : List Name} {functions : List Func} {f g : Func}

/-! ### One round -/

/-- A round keeps the order of the remaining functions. -/
theorem sweep_sublist (loud : List Name) (functions : List Func) :
    (sweep loud functions).quiet.Sublist functions := by
  fun_induction sweep loud functions with
  | case1 loud => exact List.Sublist.refl _
  | case2 loud f rest silent after ih => exact ih.cons_cons f
  | case3 loud f rest noisy after ih => exact ih.cons f

/-- A round excludes as many functions as do not remain. -/
theorem length_sweep (loud : List Name) (functions : List Func) :
    (sweep loud functions).loud.length + (sweep loud functions).quiet.length =
      functions.length := by
  fun_induction sweep loud functions with
  | case1 loud => rfl
  | case2 loud f rest silent after ih =>
    simp only [after, List.length_cons] at ih ⊢
    omega
  | case3 loud f rest noisy after ih =>
    simp only [after, List.length_cons] at ih ⊢
    omega

/-- A round puts every function among the remaining ones or its name among the excluded ones. -/
theorem mem_sweep (inside : f ∈ functions) :
    f ∈ (sweep loud functions).quiet ∨ f.name ∈ (sweep loud functions).loud := by
  fun_induction sweep loud functions with
  | case1 loud => exact absurd inside List.not_mem_nil
  | case2 loud g rest silent after ih =>
    rcases List.mem_cons.1 inside with rfl | later
    · exact .inl List.mem_cons_self
    · exact (ih later).imp_left (List.mem_cons_of_mem g)
  | case3 loud g rest noisy after ih =>
    rcases List.mem_cons.1 inside with rfl | later
    · exact .inr List.mem_cons_self
    · exact (ih later).imp_right (List.mem_cons_of_mem g.name)

/-- What remains is silent as far as the exclusions before the round go. -/
theorem isSilent_of_mem_sweep (remains : f ∈ (sweep loud functions).quiet) :
    f.body.isSilent loud = true := by
  fun_induction sweep loud functions with
  | case1 loud => exact absurd remains List.not_mem_nil
  | case2 loud g rest silent after ih =>
    rcases List.mem_cons.1 remains with rfl | later
    · exact silent
    · exact ih later
  | case3 loud g rest noisy after ih =>
    obtain ⟨calm, unheard⟩ := Block.isSilent_iff_not_acts.1 (ih remains)
    refine Block.isSilent_iff_not_acts.2 ⟨calm, fun n target excluded => ?_⟩
    exact unheard n target (List.mem_cons_of_mem g.name excluded)

/-- A body that is not silent belongs to a live function if everything loud is live. -/
theorem live_of_not_isSilent (inside : f ∈ p.functions) (live : ∀ n ∈ loud, p.Live n)
    (noisy : ¬ f.body.isSilent loud = true) : p.Live f.name := by
  have found := Program.find?_of_mem inside
  by_contra dead
  refine noisy (Block.isSilent_iff_not_acts.2 ⟨fun acts => ?_, fun n target heard => ?_⟩)
  · exact dead (.acts ⟨f, found, acts⟩)
  · exact dead (.leads ⟨f, found, target, (live n heard).defined⟩ (live n heard))

/-- A round excludes only live functions. -/
theorem live_of_mem_sweep (known : ∀ f ∈ functions, f ∈ p.functions)
    (live : ∀ n ∈ loud, p.Live n) : ∀ n ∈ (sweep loud functions).loud, p.Live n := by
  fun_induction sweep loud functions with
  | case1 loud => exact fun n inside => absurd inside List.not_mem_nil
  | case2 loud f rest silent after ih =>
    exact ih (fun g later => known g (List.mem_cons_of_mem f later)) live
  | case3 loud f rest noisy after ih =>
    have head : p.Live f.name := live_of_not_isSilent (known f List.mem_cons_self) live noisy
    intro n excluded
    rcases List.mem_cons.1 excluded with rfl | later
    · exact head
    · refine ih (fun g inside => known g (List.mem_cons_of_mem f inside)) ?_ n later
      intro m heard
      rcases List.mem_cons.1 heard with rfl | before
      · exact head
      · exact live m before

/-! ### All rounds -/

/-- The bounds that every round of the search keeps. -/
structure Sound (p : Program) (c : Candidates) : Prop where
  /-- The remaining functions are functions of the program. -/
  known : ∀ f ∈ c.quiet, f ∈ p.functions
  /-- What was excluded of late is live. -/
  live : ∀ n ∈ c.loud, p.Live n
  /-- What does not remain is live. -/
  excluded : ∀ f ∈ p.functions, f ∈ c.quiet ∨ p.Live f.name
  /-- What a remaining function invokes remains or was excluded of late. -/
  closed : ∀ f ∈ c.quiet, ∀ g ∈ p.functions, g.name ∈ f.body.targets →
    g ∈ c.quiet ∨ g.name ∈ c.loud

/-- The first candidates are sound. -/
theorem sound_candidates (p : Program) : Sound p p.candidates where
  known _ inside := inside
  live _ excluded := absurd excluded List.not_mem_nil
  excluded _ inside := .inl inside
  closed _ _ _ inside _ := .inl inside

/-- A round keeps candidates sound. -/
theorem Sound.next (sound : Sound p c) : Sound p c.next := by
  have known : ∀ f ∈ c.next.quiet, f ∈ c.quiet :=
    fun f remains => (sweep_sublist c.loud c.quiet).subset remains
  have live : ∀ n ∈ c.next.loud, p.Live n := live_of_mem_sweep sound.known sound.live
  refine ⟨fun f remains => sound.known f (known f remains), live, fun f inside => ?_,
    fun f remains g inside target => ?_⟩
  · rcases sound.excluded f inside with before | excluded
    · exact (mem_sweep before).imp_right (live f.name)
    · exact .inr excluded
  · rcases sound.closed f (known f remains) g inside target with before | excluded
    · exact mem_sweep before
    · have silent := isSilent_of_mem_sweep remains
      exact absurd excluded ((Block.isSilent_iff_not_acts.1 silent).2 g.name target)

/-- The search goes on as long as a round makes the candidates fewer. -/
theorem settled_eq (c : Candidates) :
    c.settled = if c.next.quiet.length < c.quiet.length then c.next.settled else c.next := by
  have unfolded : c.rounds =
      if c.next.quiet.length < c.quiet.length then c.next :: c.next.rounds else [c.next] := by
    rw [rounds]
  by_cases fewer : c.next.quiet.length < c.quiet.length
  · rw [if_pos fewer] at unfolded ⊢
    simp only [settled, unfolded]
    exact List.getLast_cons c.next.rounds_ne_nil
  · rw [if_neg fewer] at unfolded ⊢
    simp only [settled, unfolded]
    rfl

/-- The search ends with sound candidates, none excluded of late and none that acts. -/
theorem Sound.settled (sound : Sound p c) :
    Sound p c.settled ∧ c.settled.loud = [] ∧ ∀ f ∈ c.settled.quiet, ¬ f.body.Acts := by
  fun_induction rounds c with
  | case1 c after fewer ih =>
    rw [settled_eq, if_pos fewer]
    exact ih sound.next
  | case2 c after same =>
    rw [settled_eq, if_neg same]
    have counted : c.next.loud.length + c.next.quiet.length = c.quiet.length :=
      length_sweep c.loud c.quiet
    have nobody : c.next.loud.length = 0 := by
      have : ¬ c.next.quiet.length < c.quiet.length := same
      omega
    refine ⟨sound.next, List.eq_nil_of_length_eq_zero nobody, fun f remains => ?_⟩
    exact (Block.isSilent_iff_not_acts.1 (isSilent_of_mem_sweep remains)).1

end Candidates

namespace Program

variable {p : Program} {n : Name} {f : Func}

/-- The silent functions are the functions that are not live. -/
theorem mem_silent_iff : n ∈ p.silent ↔ n ∈ p.names ∧ ¬ p.Live n := by
  obtain ⟨sound, nobody, calm⟩ := (Candidates.sound_candidates p).settled
  -- No chain of invocations leads from a remaining function to an action.
  have quiet : ∀ n, p.Live n → ∀ f, p.find? n = some f → f ∉ p.candidates.settled.quiet := by
    intro n live
    induction live with
    | acts acts =>
      intro f found remains
      obtain ⟨g, also, acts⟩ := acts
      rw [found] at also
      cases also
      exact calm f remains acts
    | leads edge live ih =>
      intro f found remains
      obtain ⟨g, also, target, known⟩ := edge
      rw [found] at also
      cases also
      obtain ⟨h, inside, rfl⟩ := mem_names.1 known
      rcases sound.closed f remains h inside target with stays | excluded
      · exact ih h (find?_of_mem inside) stays
      · rw [nobody] at excluded
        exact absurd excluded List.not_mem_nil
  constructor
  · intro silent
    obtain ⟨f, remains, rfl⟩ := List.mem_map.1 silent
    have inside := sound.known f remains
    exact ⟨name_mem_names inside, fun live => quiet f.name live f (find?_of_mem inside) remains⟩
  · rintro ⟨defined, dead⟩
    obtain ⟨f, inside, rfl⟩ := mem_names.1 defined
    rcases sound.excluded f inside with remains | live
    · exact List.mem_map_of_mem remains
    · exact absurd live dead

/-- A defined function is live when the search does not find it silent. -/
theorem live_iff_not_mem_silent (defined : n ∈ p.names) : p.Live n ↔ n ∉ p.silent := by
  rw [mem_silent_iff, not_and, not_not]
  exact ⟨fun live _ => live, fun live => live defined⟩

end Program

end BehaviouralTypes
