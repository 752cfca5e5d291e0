import BehaviouralTypes.Proofs.Reachability
import BehaviouralTypes.Proofs.Shortening
import BehaviouralTypes.Proofs.Silence

/-!
# What the passes leave out

Every pass leaves out statements that do nothing noticeable, so it shortens the program. What
counts as loud differs: for the removal of silent functions it is the functions that are not silent,
for the other passes it is all defined functions. The removal of unreachable functions may drop
functions that act, but none of them is known to a function that the entry leads to.
-/

namespace BehaviouralTypes

/-- Whether the statement is silent and the condition holds of every statement in it. -/
def Stmt.IsIdle (loud : List Name) (able : Stmt → Prop) (s : Stmt) : Prop :=
  s.isSilent loud = true ∧ ∀ t ∈ Block.statements [s], able t

/-- A block of idle statements is a silent one with the condition at any depth. -/
theorem Block.forall_isIdle {loud : List Name} {able : Stmt → Prop} {b : Block} :
    (∀ s ∈ b, s.IsIdle loud able) ↔ b.isSilent loud = true ∧ ∀ t ∈ b.statements, able t := by
  constructor
  · intro calm
    refine ⟨Block.isSilent_iff_forall_mem.2 fun s inside => (calm s inside).1, fun t deep => ?_⟩
    obtain ⟨s, inside, found⟩ := Block.mem_statements.1 deep
    exact (calm s inside).2 t (Block.mem_statements.2 ⟨s, List.mem_singleton_self s, found⟩)
  · rintro ⟨mute, each⟩ s inside
    refine ⟨Block.isSilent_iff_forall_mem.1 mute s inside, fun t deep => ?_⟩
    exact each t (Block.mem_statements_of_mem inside deep)

/-- The `tau` that stands for nothing is no more than was there before. -/
theorem Block.Shortens.orTau {idle : Stmt → Prop} {known : Name → Prop} {b c : Block}
    (short : Block.Shortens idle known b c) : Block.Shortens idle known b c.orTau := by
  cases c with
  | nil => exact .pause short
  | cons s rest => exact short

/-- A block is shorter by idle statements after tidying, apart from a `tau` if nothing is left. -/
theorem Block.shortens_tidy {defined : List Name} {able : Stmt → Prop} {b : Block}
    (each : ∀ s ∈ b.statements, able s) :
    Block.Shortens (Stmt.IsIdle defined able) (fun _ => True) b (b.tidy defined) := by
  refine Block.Shortens.orTau ?_
  induction b using Block.induction with
  | nil =>
    rw [Block.survivors_nil]
    exact .nil
  | cons s b bodies rest =>
    have head : ∀ t ∈ Block.statements [s], able t :=
      fun t deep => each t (Block.mem_statements_of_mem List.mem_cons_self deep)
    have later := rest fun t inside => each t (Block.mem_statements_of_tail inside)
    rw [Block.survivors_cons]
    split
    · next gone => exact .drop ⟨Stmt.isSilent_of_vanishes gone, head⟩ later
    · refine .keep (Block.tidy defined) (fun _ _ => trivial) (fun body inside => ?_) later
      refine (bodies body inside fun t deep => ?_).orTau
      exact each t (Block.mem_statements_of_body inside deep)

namespace Program

/-- Whether the condition holds of every statement of the program, at any depth. -/
def Each (able : Stmt → Prop) (p : Program) : Prop :=
  ∀ f ∈ p.functions, ∀ s ∈ f.body.statements, able s

variable {p q : Program} {able : Stmt → Prop} {idle : Stmt → Prop} {known : Name → Prop}
  {noisy : List Name}

/-- Silent statements lead to nothing noticeable if the functions that are not loud are silent. -/
theorem idles_of_quiet (each : p.Each able)
    (quiet : ∀ f ∈ p.functions, f.name ∉ noisy → f.body.isSilent noisy = true) :
    p.Idles (Stmt.IsIdle noisy able) where
  unseen s calm := (Stmt.isSilent_iff.1 calm.1).1
  bodies s calm body inside := Block.forall_isIdle.2
    ⟨(Stmt.isSilent_iff.1 calm.1).2.2 body inside, fun t deep =>
      calm.2 t (Block.mem_statements_of_body inside deep)⟩
  invoked s i f calm target found := by
    obtain ⟨inside, named⟩ := find?_eq_some_iff.1 found
    have mute := (Stmt.isSilent_iff.1 calm.1).2.1 i target
    rw [← named] at mute
    exact Block.forall_isIdle.2 ⟨quiet f inside mute, each f inside⟩

/-- Statements are idle if they are silent while every defined function is loud. -/
theorem idles_of_defined (each : p.Each able) : p.Idles (Stmt.IsIdle p.names able) :=
  idles_of_quiet each fun _ inside missing => absurd (name_mem_names inside) missing

/-! ### Removing functions -/

/-- Removing functions shortens a program if the known ones that are lost were idle and those that
stay invoke known functions only. -/
theorem retain_shortens {keep : Func → Bool} (idles : p.Idles idle)
    (closed : ∀ f ∈ p.functions, known f.name → ∀ n ∈ f.body.targets, known n)
    (gone : ∀ f ∈ p.functions, known f.name → keep f = false → ∀ t ∈ f.body, idle t) :
    p.Shortens idle known (p.retain keep) where
  idles := idles
  lost n missing := by
    rw [find?_eq_none_iff] at missing ⊢
    intro kept
    obtain ⟨f, found, -⟩ := mem_names_retain.1 kept
    exact missing (mem_names_iff_find?.2 ⟨f, found⟩)
  kept n f g here found left := by
    obtain ⟨same, -⟩ := find?_retain.1 left
    rw [found] at same
    cases same
    obtain ⟨inside, rfl⟩ := find?_eq_some_iff.1 found
    exact .refl (closed f inside here)
  gone n f here found missing := by
    obtain ⟨inside, rfl⟩ := find?_eq_some_iff.1 found
    refine gone f inside here ?_
    rw [← Bool.not_eq_true]
    intro kept
    rw [find?_retain.2 ⟨found, kept⟩] at missing
    cases missing

/-- A program shortens to itself. -/
theorem Shortens.refl (idles : p.Idles idle) : p.Shortens idle (fun _ => True) p := by
  have short : p.Shortens idle (fun _ => True) (p.retain fun _ => true) :=
    retain_shortens idles (fun _ _ _ _ _ => trivial) (fun _ _ _ lost => by cases lost)
  rwa [retain_eq_self fun _ _ => rfl] at short

/-- The names of the functions that are not silent, in the order of the program. -/
def loud (p : Program) : List Name := p.names.filter (· ∉ p.silent)

/-- The loud names are the defined ones that are not silent. -/
theorem mem_loud {n : Name} : n ∈ p.loud ↔ n ∈ p.names ∧ n ∉ p.silent := by
  rw [loud, List.mem_filter, decide_eq_true_eq]

/-- The body of a silent function is silent while the other functions are loud. -/
theorem isSilent_of_not_mem_loud {f : Func} (inside : f ∈ p.functions) (mute : f.name ∉ p.loud) :
    f.body.isSilent p.loud = true := by
  have defined := name_mem_names inside
  have dead : ¬ p.Live f.name := by
    rw [live_iff_not_mem_silent defined]
    exact fun live => mute (mem_loud.2 ⟨defined, live⟩)
  refine Block.isSilent_iff_not_acts.2 ⟨fun acts => ?_, fun n target loud => ?_⟩
  · exact dead (.acts ⟨f, find?_of_mem inside, acts⟩)
  · obtain ⟨known, live⟩ := mem_loud.1 loud
    have edge : p.Leads f.name n := ⟨f, find?_of_mem inside, target, known⟩
    exact dead (.leads edge ((live_iff_not_mem_silent known).2 live))

/-- The removal of silent functions leaves out idle statements. -/
theorem removeSilent_shortens (spared : Option Name) (each : p.Each able) :
    p.Shortens (Stmt.IsIdle p.loud able) (fun _ => True) (p.removeSilent spared) := by
  refine retain_shortens (idles_of_quiet each fun f => isSilent_of_not_mem_loud)
    (fun _ _ _ _ _ => trivial) fun f inside _ lost => ?_
  rw [Func.outlivesSilence, Bool.or_eq_false_iff, decide_eq_false_iff_not, not_not] at lost
  have mute : f.name ∉ p.loud := fun loud => (mem_loud.1 loud).2 lost.1
  exact Block.forall_isIdle.2 ⟨isSilent_of_not_mem_loud inside mute, each f inside⟩

/-- The removal of unreachable functions keeps everything that the entry leads to. -/
theorem removeUnreached_shortens (entry : Name) (each : p.Each able) :
    ∃ known : Name → Prop, known entry ∧
      p.Shortens (Stmt.IsIdle p.names able) known (p.removeUnreached (some entry)) := by
  simp only [removeUnreached]
  split
  · next defined =>
    rw [defines_iff] at defined
    refine ⟨fun n => n ∈ p.names → p.Reaches entry n, fun _ => .refl,
      retain_shortens (idles_of_defined each) ?_ ?_⟩
    · intro f inside here n target listed
      exact (here (name_mem_names inside)).tail ⟨f, find?_of_mem inside, target, listed⟩
    · intro f inside here lost
      have reached := mem_reachable_iff.2 ⟨defined, here (name_mem_names inside)⟩
      exact absurd reached (of_decide_eq_false lost)
  · exact ⟨fun _ => True, trivial, .refl (idles_of_defined each)⟩

/-! ### Tidying bodies -/

/-- Tidying leaves out idle statements. -/
theorem tidy_shortens (each : p.Each able) :
    p.Shortens (Stmt.IsIdle p.names able) (fun _ => True) p.tidy where
  idles := idles_of_defined each
  lost n missing := by rw [find?_tidy, missing, Option.map_none]
  kept n f g _ found left := by
    rw [find?_tidy, found, Option.map_some] at left
    cases left
    exact Block.shortens_tidy (each f (find?_eq_some_iff.1 found).1)
  gone n f _ found missing := by
    rw [find?_tidy, found, Option.map_some] at missing
    cases missing

end Program

/-! ### All passes -/

/-- Every pass shortens the program and knows the entry. -/
theorem Pass.shortens {able : Stmt → Prop} {p : Program} (entry : Name) (each : p.Each able)
    (pass : Pass) : ∃ (noisy : List Name) (known : Name → Prop), known entry ∧
      p.Shortens (Stmt.IsIdle noisy able) known (pass.apply (some entry) p) := by
  cases pass with
  | removeSilent spared =>
    exact ⟨p.loud, fun _ => True, trivial, p.removeSilent_shortens spared each⟩
  | removeUnreached => exact ⟨p.names, p.removeUnreached_shortens entry each⟩
  | tidy => exact ⟨p.names, fun _ => True, trivial, Program.tidy_shortens each⟩
  | validate | present =>
    exact ⟨p.names, fun _ => True, trivial, .refl (Program.idles_of_defined each)⟩

end BehaviouralTypes
