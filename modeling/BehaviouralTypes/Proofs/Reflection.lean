import BehaviouralTypes.Proofs.Erasing
import BehaviouralTypes.Proofs.Outcome
import Mathlib.Order.WellFoundedSet

/-!
# What a simplified program shows was there before

A program retraces the runs of a shortened one if it can run what was left out to its end. A silent
call that never returns keeps the caller from what comes next, so removing it would bring that to
light. It is enough that no silent function calls itself by way of others
(`Program.SilentCall`). Spawns may form cycles, since nobody waits for the threads that they start,
and a dangling invocation returns at once.
-/

namespace BehaviouralTypes

namespace Program

variable {p q : Program} {idle : Stmt → Prop} {known : Name → Prop} {b c front : Block}
  {entry : Name} {trace : List Stmt}

/-! ### Flushing blocks -/

/-- An empty block is flushed at once. -/
theorem Flushes.nil : p.Flushes idle [] := fun rest => ⟨0, .stop {rest}, .zero⟩

/-- Blocks are flushed one after the other. -/
theorem Flushes.append (first : p.Flushes idle b) (second : p.Flushes idle c) :
    p.Flushes idle (b ++ c) := by
  intro rest
  obtain ⟨spare, run, calm⟩ := first (c ++ rest)
  obtain ⟨spare', run', calm'⟩ := second rest
  refine ⟨spare' + spare, ?_, calm'.add calm⟩
  rw [List.append_assoc]
  exact Run.append run (run'.beside spare)

/-- A statement is flushed when a thread moves from it to what can be flushed. -/
theorem flushes_of_moves {s : Stmt} {started : Threads}
    (moves : ∀ rest, p.Moves (s :: rest) none (front ++ rest) started)
    (calm : Threads.Idle idle started) (flushes : p.Flushes idle front) :
    p.Flushes idle [s] := by
  intro rest
  obtain ⟨spare, run, quiet⟩ := flushes rest
  exact ⟨spare + started, Run.append (moves rest).run (run.beside started), quiet.add calm⟩

/-- Idle statements are flushed when no selection is empty and the bodies that they call are
flushed. A choice takes any of its bodies, and a spawned body is left as a spare thread. -/
theorem Idles.flushes (idles : p.Idles idle) (calm : ∀ s ∈ b, idle s)
    (offers : ∀ s ∈ b.statements, s ≠ .select [])
    (calls : ∀ i f, .invoke .call i ∈ b.statements → p.find? i.target = some f →
      p.Flushes idle f.body) : p.Flushes idle b := by
  induction b using Block.induction with
  | nil => exact .nil
  | cons s b bodies rest =>
    have here := calm s List.mem_cons_self
    have inner : ∀ body ∈ s.bodies, p.Flushes idle [s] := by
      intro body inside
      have deep : ∀ t ∈ Block.statements body, t ∈ Block.statements (s :: b) :=
        fun t within => Block.mem_statements_of_body inside within
      refine flushes_of_moves (fun rest => .choose inside) .zero ?_
      exact bodies body inside (idles.bodies s here body inside) (fun t within =>
        offers t (deep t within)) fun i f within => calls i f (deep _ within)
    have head : p.Flushes idle [s] := by
      cases s with
      | tau => exact flushes_of_moves (fun rest => .tau) .zero .nil
      | act action => cases idles.unseen _ here
      | invoke mode i =>
        cases found : p.find? i.target with
        | none => exact flushes_of_moves (fun rest => .skip found) .zero .nil
        | some f =>
          cases mode with
          | call =>
            have body := calls i f (Block.head_mem_statements _ b) found
            exact flushes_of_moves (fun rest => .call found) .zero body
          | spawn =>
            have body := idles.invoked _ i f here rfl found
            exact flushes_of_moves (fun rest => .spawn found) (.single body) .nil
      | branch kind yes no => exact inner yes List.mem_cons_self
      | select cases =>
        cases cases with
        | nil => exact absurd rfl (offers _ (Block.head_mem_statements _ b))
        | cons body cases => exact inner body List.mem_cons_self
    have later : ∀ t ∈ Block.statements b, t ∈ Block.statements (s :: b) :=
      fun t within => Block.mem_statements_of_tail within
    exact head.append (rest (fun t inside => calm t (List.mem_cons_of_mem s inside))
      (fun t within => offers t (later t within)) fun i f within => calls i f (later _ within))

/-- A silent block calls or spawns no loud function. -/
theorem not_mem_of_isSilent {noisy : List Name} {mode : Mode} {i : Invocation}
    (mute : b.isSilent noisy = true) (inside : .invoke mode i ∈ b.statements) : i.target ∉ noisy :=
  (Block.isSilent_iff.1 mute).2 i.target (Block.mem_targets.2 ⟨_, inside, i, rfl, rfl⟩)

/-- Whether every selection of the program has an alternative, at any depth. -/
def Offers (p : Program) : Prop := p.Each (· ≠ .select [])

/-- The statements that are idle while these functions are loud, without empty selections. -/
abbrev Calm (noisy : List Name) : Stmt → Prop := Stmt.IsIdle noisy (· ≠ .select [])

/-- Idle statements are flushed when the bodies of the functions that are not loud are. -/
theorem flushes_of_quiet {noisy : List Name} (offers : p.Offers)
    (quiet : ∀ f ∈ p.functions, f.name ∉ noisy → f.body.isSilent noisy = true)
    (bodies : ∀ f ∈ p.functions, f.name ∉ noisy → p.Flushes (Calm noisy) f.body)
    (calm : ∀ s ∈ b, Calm noisy s) : p.Flushes (Calm noisy) b := by
  obtain ⟨mute, full⟩ := Block.forall_isIdle.1 calm
  refine (idles_of_quiet offers quiet).flushes calm full fun i f inside found => ?_
  obtain ⟨known, named⟩ := find?_eq_some_iff.1 found
  refine bodies f known ?_
  rw [named]
  exact not_mem_of_isSilent mute inside

/-- While every defined function is loud, idle statements call nothing. -/
theorem flushes_of_defined (offers : p.Offers) (calm : ∀ s ∈ b, Calm p.names s) :
    p.Flushes (Calm p.names) b :=
  flushes_of_quiet offers (fun _ known missing => absurd (name_mem_names known) missing)
    (fun _ known missing => absurd (name_mem_names known) missing) calm

/-! ### Silent calls -/

/-- Whether the first function calls the second at some depth and both are silent. Spawns do not
count. -/
def SilentCall (p : Program) (n m : Name) : Prop :=
  n ∈ p.silent ∧ m ∈ p.silent ∧ ∃ f, p.find? n = some f ∧
    ∃ i, .invoke .call i ∈ f.body.statements ∧ i.target = m

/-- The body of a silent function is flushed if no silent function calls itself by way of others.
The induction is on calls between silent functions: there are finitely many such functions, so
without cycles the calls come to an end. -/
theorem flushes_of_mem_silent (offers : p.Offers)
    (acyclic : ∀ n, ¬ Relation.TransGen p.SilentCall n n) {n : Name} (mute : n ∈ p.silent) :
    ∀ f, p.find? n = some f → p.Flushes (Calm p.loud) f.body := by
  have order : IsStrictOrder Name fun m n => Relation.TransGen p.SilentCall n m :=
    { irrefl := acyclic
      trans := fun _ _ _ first second => second.trans first }
  have founded := p.silent.finite_toSet.wellFoundedOn (r := fun m n =>
    Relation.TransGen p.SilentCall n m)
  refine founded.induction
    (P := fun n => ∀ f, p.find? n = some f → p.Flushes (Calm p.loud) f.body) mute ?_
  intro n mute ih f found
  obtain ⟨inside, rfl⟩ := find?_eq_some_iff.1 found
  have quiet : f.body.isSilent p.loud = true :=
    isSilent_of_not_mem_loud inside fun loud => (mem_loud.1 loud).2 mute
  have calm := Block.forall_isIdle.2 ⟨quiet, offers f inside⟩
  have idles := idles_of_quiet offers fun g => isSilent_of_not_mem_loud
  refine idles.flushes calm (offers f inside) fun i g called target => ?_
  have known := mem_names_iff_find?.2 ⟨g, target⟩
  have silent : i.target ∈ p.silent := by
    by_contra live
    exact not_mem_of_isSilent quiet called (mem_loud.2 ⟨known, live⟩)
  exact ih i.target silent (.single ⟨mute, silent, f, found, i, called, rfl⟩) g target

/-- While the functions that are not silent are loud, idle statements call silent functions. -/
theorem flushes_of_acyclic (offers : p.Offers)
    (acyclic : ∀ n, ¬ Relation.TransGen p.SilentCall n n) (calm : ∀ s ∈ b, Calm p.loud s) :
    p.Flushes (Calm p.loud) b := by
  refine flushes_of_quiet offers (fun f => isSilent_of_not_mem_loud) (fun f known mute => ?_) calm
  have silent : f.name ∈ p.silent := by
    by_contra live
    exact mute (mem_loud.2 ⟨name_mem_names known, live⟩)
  exact flushes_of_mem_silent offers acyclic silent f (find?_of_mem known)

/-! ### The simplification -/

/-- What a shortened program shows from a known entry is shown by the program. -/
theorem Shortens.reflects (short : Shortens idle known p q)
    (flush : ∀ d, (∀ t ∈ d, idle t) → p.Flushes idle d) (here : known entry)
    (shown : q.IsTrace entry trace) : p.IsTrace entry trace := by
  obtain ⟨g, left, threads, run⟩ := shown
  cases found : p.find? entry with
  | none =>
    rw [short.lost entry found] at left
    cases left
  | some f =>
    have start : Threads.Shorten idle known {f.body} {g.body} :=
      .single (short.kept entry f g here found left)
    obtain ⟨threads', run', -⟩ := short.retrace_run flush start run
    exact ⟨f, found, threads', run'⟩

/-- A part of the functions has no more empty selections. -/
theorem Offers.of_subset (offers : p.Offers) (part : ∀ f ∈ q.functions, f ∈ p.functions) :
    q.Offers :=
  fun f inside => offers f (part f inside)

/-- The functions that the removal of the unreached leaves were there before. -/
theorem functions_removeUnreached {entry : Option Name} {f : Func}
    (left : f ∈ (p.removeUnreached entry).functions) : f ∈ p.functions := by
  unfold removeUnreached at left
  split at left
  · split at left
    · exact List.mem_of_mem_filter left
    · exact left
  · exact left

/-- **Nothing noticeable is invented.** If every selection has an alternative and no silent function
calls itself by way of others, then the program shows from the entry all that its simplification
shows. -/
theorem isTrace_of_simplify (p : Program) (prefs : Preferences) (offers : p.Offers)
    (acyclic : ∀ n, ¬ Relation.TransGen p.SilentCall n n) :
    ∃ q, (p.simplify prefs).result = .ok q ∧
      ∀ trace, q.IsTrace prefs.entry trace → p.IsTrace prefs.entry trace := by
  refine ⟨p.simplified prefs, result_simplify prefs p, fun trace shown => ?_⟩
  have known : prefs.entry ∈ p.names := by
    obtain ⟨g, left, -⟩ := shown
    exact (simplified_restricts prefs p).names _ (mem_names_iff_find?.2 ⟨g, left⟩)
  have start : prefs.entryIn p = some prefs.entry := if_pos (defines_iff.2 known)
  rw [simplified, start] at shown
  have offersSilent : (p.removeSilent (prefs.spared p)).Offers :=
    offers.of_subset fun f left => List.mem_of_mem_filter left
  have offersReached : ((p.removeSilent (prefs.spared p)).removeUnreached
      (some prefs.entry)).Offers := offersSilent.of_subset fun f => functions_removeUnreached
  obtain ⟨reached, here, shortens⟩ := removeUnreached_shortens prefs.entry offersSilent
  have beforeTidying := (tidy_shortens offersReached).reflects
    (fun _ => flushes_of_defined offersReached) trivial shown
  have beforeUnreached := shortens.reflects
    (fun _ => flushes_of_defined offersSilent) here beforeTidying
  exact (removeSilent_shortens (prefs.spared p) offers).reflects
    (fun _ => flushes_of_acyclic offers acyclic) trivial beforeUnreached

/-- A program whose entry sends after a silent call, of a function that spawns itself. -/
def withSpawnCycle : Program :=
  ⟨[⟨"main", [], [.invoke .call ⟨"watch", []⟩, .act (.perform .send "alarm")]⟩,
    ⟨"watch", [], [.branch .loop [.invoke .spawn ⟨"watch", []⟩] [.invoke .call ⟨"rest", []⟩]]⟩,
    ⟨"rest", [], []⟩], by decide⟩

/-- Calls lead from a function to a later one. -/
theorem silentCall_withSpawnCycle {n m : Name} (edge : withSpawnCycle.SilentCall n m) :
    withSpawnCycle.names.idxOf n < withSpawnCycle.names.idxOf m := by
  obtain ⟨-, -, f, found, i, called, rfl⟩ := edge
  obtain ⟨inside, rfl⟩ := find?_eq_some_iff.1 found
  simp only [withSpawnCycle, List.mem_cons, List.not_mem_nil, or_false] at inside
  rcases inside with rfl | rfl | rfl
  · simp [Block.statements, Stmt.nested] at called
    subst called
    decide
  · simp [Block.statements, Stmt.nested] at called
    subst called
    decide
  · simp [Block.statements] at called

/-- The spawns form a cycle and the calls do not, so the condition holds. -/
theorem isTrace_of_simplify_spawn_cycle :
    withSpawnCycle.Offers ∧ (∀ n, ¬ Relation.TransGen withSpawnCycle.SilentCall n n) ∧
      ∃ q, (withSpawnCycle.simplify { entry := "main" }).result = .ok q ∧
        ∀ trace, q.IsTrace "main" trace → withSpawnCycle.IsTrace "main" trace := by
  have offers : withSpawnCycle.Offers := by
    intro f inside
    simp only [withSpawnCycle, List.mem_cons, List.not_mem_nil, or_false] at inside
    rcases inside with rfl | rfl | rfl <;> simp [Block.statements, Stmt.nested]
  have ordered : ∀ {n m}, Relation.TransGen withSpawnCycle.SilentCall n m →
      withSpawnCycle.names.idxOf n < withSpawnCycle.names.idxOf m := by
    intro n m path
    induction path with
    | single edge => exact silentCall_withSpawnCycle edge
    | tail _ edge ih => exact ih.trans (silentCall_withSpawnCycle edge)
  have acyclic : ∀ n, ¬ Relation.TransGen withSpawnCycle.SilentCall n n :=
    fun n cycle => lt_irrefl _ (ordered cycle)
  exact ⟨offers, acyclic, isTrace_of_simplify withSpawnCycle { entry := "main" } offers acyclic⟩

end Program

end BehaviouralTypes
