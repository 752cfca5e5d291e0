import BehaviouralTypes.Proofs.Reachability
import BehaviouralTypes.Proofs.Silence

/-!
# How the analyses agree

The search for silent functions, the search for reachable ones and tidying are three recursions that
know nothing of each other. Still a function is silent exactly if nothing that it reaches acts
(`Program.mem_silent_iff_reachable`), and a block is silent exactly if tidying leaves nothing of it
that can be noticed (`Block.isSilent_iff_tidy`). So it does no harm to delete silent functions early
and to tidy the rest: neither search answers differently about the functions that are left
(`Program.mem_silent_without`).
-/

namespace BehaviouralTypes

/-! ### Silence and reachability -/

namespace Program

variable {p : Program} {f : Func} {n : Name}

/-- A name is live when it reaches a function that acts. -/
theorem live_iff_reaches : p.Live n ↔ ∃ m, p.Reaches n m ∧ p.Acts m := by
  constructor
  · intro live
    induction live with
    | @acts n acts => exact ⟨n, .refl, acts⟩
    | leads edge _ ih =>
      obtain ⟨m, path, acts⟩ := ih
      exact ⟨m, path.head edge, acts⟩
  · rintro ⟨m, path, acts⟩
    exact .of_reaches path (.acts acts)

/-- **Silence is the lack of reachable actions.** A function is found silent exactly if no function
that the search from it finds has an action, at any depth of its body. -/
theorem mem_silent_iff_reachable (inside : f ∈ p.functions) :
    f.name ∈ p.silent ↔ ∀ g ∈ p.functions, g.name ∈ p.reachable f.name →
      ∀ s ∈ g.body.statements, s.isObservable = false := by
  have defined : f.name ∈ p.names := name_mem_names inside
  rw [mem_silent_iff, live_iff_reaches]
  constructor
  · rintro ⟨-, dead⟩ g known found s deep
    have path : p.Reaches f.name g.name := (mem_reachable_iff.1 found).2
    by_contra seen
    have acts : g.body.Acts := ⟨s, deep, eq_true_of_ne_false seen⟩
    exact dead ⟨g.name, path, g, find?_of_mem known, acts⟩
  · intro calm
    refine ⟨defined, ?_⟩
    rintro ⟨m, path, g, found, s, deep, seen⟩
    obtain ⟨known, rfl⟩ := find?_eq_some_iff.1 found
    have unseen := calm g known (mem_reachable_iff.2 ⟨defined, path⟩) s deep
    rw [unseen] at seen
    cases seen

/-- A cycle of two functions that also calls a name without a definition, and `tower`, which reaches
a function that sends through a loop inside a selection. -/
def cycleAndTower : Program :=
  ⟨[⟨"tower", [], [.select [[.tau], [.branch .loop [.invoke .spawn ⟨"horn", []⟩] []]]]⟩,
    ⟨"ebb", [], [.branch .condition [.invoke .call ⟨"flow", []⟩] [.invoke .call ⟨"moon", []⟩]]⟩,
    ⟨"flow", [], [.tau, .select [[.invoke .spawn ⟨"ebb", []⟩]]]⟩,
    ⟨"horn", [], [.invoke .call ⟨"ebb", []⟩, .act (.perform .send "fog")]⟩], by decide⟩

/-- The cycle reaches itself alone and is silent; `tower` is not. -/
theorem mem_silent_iff_reachable_cycle :
    let ebb : Func := ⟨"ebb", [],
      [.branch .condition [.invoke .call ⟨"flow", []⟩] [.invoke .call ⟨"moon", []⟩]]⟩
    let tower : Func := ⟨"tower", [],
      [.select [[.tau], [.branch .loop [.invoke .spawn ⟨"horn", []⟩] []]]]⟩
    (ebb ∈ cycleAndTower.functions ∧ ebb.name ∈ cycleAndTower.silent) ∧
      tower ∈ cycleAndTower.functions ∧ tower.name ∉ cycleAndTower.silent := by
  intro ebb tower
  have first : ebb ∈ cycleAndTower.functions := by decide
  have second : tower ∈ cycleAndTower.functions := by decide
  have calm : ∀ g ∈ cycleAndTower.functions, g.name ∈ cycleAndTower.reachable ebb.name →
      ∀ s ∈ g.body.statements, s.isObservable = false := by decide +kernel
  have noisy : ¬ ∀ g ∈ cycleAndTower.functions, g.name ∈ cycleAndTower.reachable tower.name →
      ∀ s ∈ g.body.statements, s.isObservable = false := by decide +kernel
  exact ⟨⟨first, (mem_silent_iff_reachable first).2 calm⟩, second,
    mt (mem_silent_iff_reachable second).1 noisy⟩

end Program

/-! ### Silence and tidying -/

variable {defined : List Name}

/-- A block is silent while the defined functions are loud exactly if no deed is left of it. -/
theorem Block.isSilent_iff_deeds {b : Block} :
    b.isSilent defined = true ↔ ∀ s ∈ (b.tidy defined).statements,
      s.isObservable = false ∧ s.invocation? = none := by
  rw [Block.isSilent_iff_not_acts]
  constructor
  · rintro ⟨calm, unheard⟩ s deep
    constructor
    · by_contra seen
      have acts : (b.tidy defined).Acts := ⟨s, deep, eq_true_of_ne_false seen⟩
      exact calm (Block.acts_tidy.1 acts)
    · by_contra invokes
      obtain ⟨i, found⟩ := Option.ne_none_iff_exists'.1 invokes
      have target : i.target ∈ (b.tidy defined).targets :=
        Block.mem_targets.2 ⟨s, deep, i, found, rfl⟩
      obtain ⟨before, known⟩ := Block.mem_targets_tidy.1 target
      exact unheard i.target before known
  · intro nothing
    refine ⟨fun acts => ?_, fun n target known => ?_⟩
    · obtain ⟨s, deep, seen⟩ := Block.acts_tidy.2 acts
      rw [(nothing s deep).1] at seen
      cases seen
    · have left : n ∈ (b.tidy defined).targets := Block.mem_targets_tidy.2 ⟨target, known⟩
      obtain ⟨s, deep, i, found, -⟩ := Block.mem_targets.1 left
      rw [(nothing s deep).2] at found
      cases found

/-- A silent statement is `tau`, or it vanishes once its bodies come down to `tau`. -/
theorem Stmt.vanishes_of_isSilent {s : Stmt} (silent : s.isSilent defined = true)
    (bodies : ∀ body ∈ s.bodies, body.tidy defined = [.tau]) :
    s = .tau ∨ s.vanishes defined = true := by
  obtain ⟨unseen, unheard, -⟩ := Stmt.isSilent_iff.1 silent
  cases s with
  | tau => exact .inl rfl
  | act action => cases unseen
  | invoke mode i => exact .inr (Stmt.vanishes_iff.2 (.inl ⟨i, rfl, unheard i rfl⟩))
  | branch kind yes no => exact .inr (Stmt.vanishes_iff.2 (.inr ⟨rfl, bodies⟩))
  | select cases => exact .inr (Stmt.vanishes_iff.2 (.inr ⟨rfl, bodies⟩))

/-- Up to one `tau` is `tau` once nothing has been filled in. -/
theorem Block.orTau_replicate {count : Nat} (few : count ≤ 1) :
    Block.orTau (List.replicate count .tau) = [.tau] := by
  cases count with
  | zero => rfl
  | succ rest =>
    have none : rest = 0 := by omega
    rw [none]
    rfl

/-- Of a silent block only its own `tau` are left, if no sequence inside it repeats `tau`: every
alternative then comes down to one `tau`, and so every choice vanishes. -/
theorem Block.survivors_of_isSilent {b : Block} (silent : b.isSilent defined = true)
    (few : ∀ c ∈ b.inner, c.count .tau ≤ 1) :
    b.survivors defined = List.replicate (b.count .tau) .tau := by
  induction b using Block.induction with
  | nil => rfl
  | cons s b bodies rest =>
    rw [Block.isSilent_cons, Bool.and_eq_true] at silent
    rw [Block.inner_cons] at few
    have alternatives : ∀ body ∈ s.bodies, body.tidy defined = [.tau] := by
      intro body within
      have inside : ∀ c ∈ body.sequences, c.count .tau ≤ 1 := fun c deep =>
        few c (List.mem_append_left _ (List.mem_flatMap.2 ⟨body, within, deep⟩))
      have quiet := (Stmt.isSilent_iff.1 silent.1).2.2 body within
      have left := bodies body within quiet fun c deep => inside c (List.mem_cons_of_mem body deep)
      rw [Block.tidy, left, Block.orTau_replicate (inside body List.mem_cons_self)]
    have later := rest silent.2 fun c deep => few c (List.mem_append_right _ deep)
    rw [Block.survivors_cons, later]
    rcases Stmt.vanishes_of_isSilent silent.1 alternatives with rfl | gone
    · rw [List.count_cons_self, List.replicate_succ]
      rfl
    · have other : s ≠ .tau := by
        rintro rfl
        cases gone
      rw [if_pos gone, List.count_cons_of_ne other]

/-- **Silence is what tidying makes vanish.** While the defined functions are loud and no others, a
block is silent exactly if tidying leaves no action and no invocation of it, at any depth. If no
sequence of the block has more than one `tau` directly in it, that is the case exactly if tidying
leaves `tau` alone. -/
theorem Block.isSilent_iff_tidy (defined : List Name) (b : Block) :
    (b.isSilent defined = true ↔ ∀ s ∈ (b.tidy defined).statements,
        s.isObservable = false ∧ s.invocation? = none) ∧
      ((∀ c ∈ b.sequences, c.count .tau ≤ 1) →
        (b.isSilent defined = true ↔ b.tidy defined = [.tau])) := by
  refine ⟨Block.isSilent_iff_deeds, fun few => ⟨fun silent => ?_, Block.isSilent_of_tidy⟩⟩
  have left := Block.survivors_of_isSilent silent fun c deep => few c (List.mem_cons_of_mem b deep)
  rw [Block.tidy, left, Block.orTau_replicate (few b List.mem_cons_self)]

/-- A dangling call and a selection without alternatives in the two ways of a loop come down to
`tau`. The condition on `tau` is needed: two of them are silent, and both are left. -/
theorem Block.isSilent_iff_tidy_two_taus :
    let twoWays : Block := [.branch .loop [.invoke .call ⟨"gone", []⟩] [.tau, .select []], .tau]
    (∀ c ∈ twoWays.sequences, c.count .tau ≤ 1) ∧ twoWays.isSilent ["kept"] = true ∧
      twoWays.tidy ["kept"] = [.tau] ∧
      Block.isSilent ["kept"] [.tau, .tau] = true ∧ Block.tidy ["kept"] [.tau, .tau] ≠ [.tau] := by
  intro twoWays
  have few : ∀ c ∈ twoWays.sequences, c.count .tau ≤ 1 := by decide +kernel
  have silent : twoWays.isSilent ["kept"] = true := by decide
  have alone := ((Block.isSilent_iff_tidy ["kept"] twoWays).2 few).1 silent
  have twice : ∀ s ∈ (Block.tidy ["kept"] [.tau, .tau]).statements,
      s.isObservable = false ∧ s.invocation? = none := by decide
  exact ⟨few, silent, alone, (Block.isSilent_iff_tidy ["kept"] [.tau, .tau]).1.2 twice, by decide⟩

/-! ### Silence and deletion -/

namespace Program

variable {p q : Program} {n m : Name} {gone : List Name}

/-- A restriction that keeps every live function has the same live names. -/
theorem Restricts.live_iff (part : q.Restricts p) (keeps : ∀ n, p.Live n → n ∈ q.names) :
    q.Live n ↔ p.Live n := by
  refine ⟨part.live, fun live => ?_⟩
  exact part.live_of_live (fun _ _ m _ alive => keeps m alive) live (keeps n live)

/-- A restriction that keeps every function has the same paths. -/
theorem Restricts.reaches_iff (part : q.Restricts p) (keeps : ∀ n ∈ p.names, n ∈ q.names) :
    q.Reaches n m ↔ p.Reaches n m := by
  refine ⟨part.reaches, fun path => ?_⟩
  induction path with
  | refl => exact .refl
  | tail _ edge ih =>
    have source := keeps _ edge.source
    have target := keeps _ edge.target
    exact ih.tail ((part.leads _ source _ target).2 edge)

/-- A restriction that keeps every live function has those silent functions that it keeps. -/
theorem Restricts.silent_iff (part : q.Restricts p) (keeps : ∀ n, p.Live n → n ∈ q.names) :
    n ∈ q.silent ↔ n ∈ p.silent ∧ n ∈ q.names := by
  rw [mem_silent_iff, mem_silent_iff, part.live_iff keeps]
  constructor
  · rintro ⟨kept, dead⟩
    exact ⟨⟨part.names n kept, dead⟩, kept⟩
  · rintro ⟨⟨-, dead⟩, kept⟩
    exact ⟨kept, dead⟩

/-- What is defined without some names is what was defined but for them. -/
theorem mem_names_without :
    n ∈ (p.retain (·.name ∉ gone)).names ↔ n ∈ p.names ∧ n ∉ gone := by
  rw [mem_names_retain, mem_names_iff_find?]
  constructor
  · rintro ⟨f, found, kept⟩
    obtain ⟨-, rfl⟩ := find?_eq_some_iff.1 found
    exact ⟨⟨f, found⟩, of_decide_eq_true kept⟩
  · rintro ⟨⟨f, found⟩, kept⟩
    obtain ⟨-, rfl⟩ := find?_eq_some_iff.1 found
    exact ⟨f, found, decide_eq_true kept⟩

/-- **Early deletion is harmless.** If any silent functions are removed, the silent functions of
what is left are those of before but for the removed ones. Tidying what is left changes neither the
silent functions nor what any name reaches. -/
theorem mem_silent_without (p : Program) (gone : List Name) (silent : gone ⊆ p.silent) :
    let q := p.retain (·.name ∉ gone)
    (∀ n, n ∈ q.silent ↔ n ∈ p.silent ∧ n ∉ gone) ∧
      (∀ n, n ∈ q.tidy.silent ↔ n ∈ q.silent) ∧
      ∀ n m, m ∈ q.tidy.reachable n ↔ m ∈ q.reachable n := by
  intro q
  have part : q.Restricts p := retain_restricts _ p
  have keeps : ∀ n, p.Live n → n ∈ q.names := by
    intro n live
    refine mem_names_without.2 ⟨live.defined, fun removed => ?_⟩
    exact (mem_silent_iff.1 (silent removed)).2 live
  have tidied : q.tidy.Restricts q := tidy_restricts q
  have same : q.tidy.names = q.names := names_tidy
  refine ⟨fun n => ?_, fun n => ?_, fun n m => ?_⟩
  · rw [part.silent_iff keeps, mem_names_without]
    constructor
    · rintro ⟨quiet, -, kept⟩
      exact ⟨quiet, kept⟩
    · rintro ⟨quiet, kept⟩
      exact ⟨quiet, (mem_silent_iff.1 quiet).1, kept⟩
  · rw [tidied.silent_iff fun n live => same ▸ live.defined, same]
    exact and_iff_left_of_imp fun quiet => (mem_silent_iff.1 quiet).1
  · rw [mem_reachable_iff, mem_reachable_iff, same,
      tidied.reaches_iff fun n known => same ▸ known]

/-- Without `flow` the call of it is silent for another reason, and after tidying it is gone. -/
theorem mem_silent_without_called :
    let q := cycleAndTower.retain (·.name ∉ ["flow"])
    ["flow"] ⊆ cycleAndTower.silent ∧ "ebb" ∈ q.silent ∧ "tower" ∉ q.silent ∧
      "ebb" ∈ q.tidy.silent ∧
      "tower" ∉ q.tidy.silent ∧ "ebb" ∈ q.tidy.reachable "tower" := by
  intro q
  have removed : ["flow"] ⊆ cycleAndTower.silent := by decide +kernel
  obtain ⟨left, tidied, found⟩ := mem_silent_without cycleAndTower ["flow"] removed
  have quiet : "ebb" ∈ q.silent := (left "ebb").2 (by decide +kernel)
  have noisy : "tower" ∉ q.silent := fun silent =>
    absurd ((left "tower").1 silent).1 (by decide +kernel)
  have path : "ebb" ∈ q.reachable "tower" := by decide +kernel
  exact ⟨removed, quiet, noisy, (tidied "ebb").2 quiet, mt (tidied "tower").1 noisy,
    (found "tower" "ebb").2 path⟩

end Program

end BehaviouralTypes
