import BehaviouralTypes.Block.Tidy
import BehaviouralTypes.Proofs.Nesting

/-!
# What tidying leaves

Tidying is two rules and a filler: a statement vanishes or keeps its place with tidied bodies
(`Stmt.tidy?_eq`), and `tau` stands in for nothing. Four facts follow. No deed is lost but the
dangling invocations (`Block.deeds_tidy`), so the statements that vanish are silent. A tidied block
obeys rules that are said without tidying (`Block.isTidy_tidy`). A block that obeys them already is
left alone (`Block.tidy_eq_self`), and tidying in two goes is tidying in one (`Block.tidy_tidy`).
-/

namespace BehaviouralTypes

/-! ### The two rules -/

/-- Whether tidying drops the statement: an invocation that dangles, or a choice in which every
alternative comes down to `tau`. -/
def Stmt.vanishes (defined : List Name) (s : Stmt) : Bool :=
  s.invocation?.any (·.target ∉ defined) ||
    (s.isChoice && s.bodies.all fun body => (body.tidy defined).isTau)

/-- Alternatives are tidied one by one. -/
theorem Choices.tidy_eq (defined : List Name) (cases : Choices) :
    Choices.tidy defined cases = cases.map (Block.tidy defined) := by
  induction cases with
  | nil => rw [Choices.tidy, List.map_nil]
  | cons block cases ih => rw [Choices.tidy, List.map_cons, ih, Block.tidy]

/-- A statement that does not vanish keeps its shape, with every body tidied. -/
theorem Stmt.tidy?_eq (defined : List Name) (s : Stmt) :
    s.tidy? defined =
      if s.vanishes defined then none else some (s.mapBodies (Block.tidy defined)) := by
  cases s with
  | tau => simp [Stmt.tidy?, Stmt.vanishes, Stmt.invocation?, Stmt.isChoice, Stmt.mapBodies]
  | act action => simp [Stmt.tidy?, Stmt.vanishes, Stmt.invocation?, Stmt.isChoice, Stmt.mapBodies]
  | invoke mode invocation =>
    by_cases known : invocation.target ∈ defined
    · simp [Stmt.tidy?, Stmt.vanishes, Stmt.invocation?, Stmt.isChoice, Stmt.mapBodies, known]
    · simp [Stmt.tidy?, Stmt.vanishes, Stmt.invocation?, known]
  | branch kind yes no =>
    simp [Stmt.tidy?, Stmt.vanishes, Stmt.invocation?, Stmt.isChoice, Stmt.bodies, Stmt.mapBodies,
      Block.tidy]
  | select cases =>
    simp [Stmt.tidy?, Stmt.vanishes, Stmt.invocation?, Stmt.isChoice, Stmt.bodies, Stmt.mapBodies,
      Choices.tidy_eq]

/-- Nothing survives of an empty block. -/
@[simp] theorem Block.survivors_nil (defined : List Name) : Block.survivors defined [] = [] := by
  rw [Block.survivors]

/-- A statement survives with tidied bodies, unless it vanishes. -/
theorem Block.survivors_cons (defined : List Name) (s : Stmt) (b : Block) :
    Block.survivors defined (s :: b) =
      if s.vanishes defined then b.survivors defined
      else s.mapBodies (Block.tidy defined) :: b.survivors defined := by
  rw [Block.survivors, Stmt.tidy?_eq]
  split <;> rfl

/-- The test for `tau` alone finds that block. -/
theorem Block.isTau_iff {b : Block} : b.isTau = true ↔ b = [.tau] := by
  constructor
  · intro lone
    unfold Block.isTau at lone
    split at lone
    · rfl
    · cases lone
  · rintro rfl
    rfl

/-- A block filled up with `tau` is not empty. -/
theorem Block.orTau_ne_nil (b : Block) : b.orTau ≠ [] := by
  cases b <;> simp [Block.orTau]

/-- A block that is not empty needs no `tau`. -/
theorem Block.orTau_of_ne_nil {b : Block} (full : b ≠ []) : b.orTau = b := by
  cases b with
  | nil => exact absurd rfl full
  | cons s b => rfl

/-! ### Deeds -/

/-- Whether the statement is an action or an invocation. -/
def Stmt.isDeed (s : Stmt) : Bool := s.isObservable || s.invocation?.isSome

/-- The actions and invocations of the block at any depth, from left to right. -/
def Block.deeds (b : Block) : List Stmt := b.statements.filter Stmt.isDeed

/-- Whether the statement invokes nothing but defined names. -/
def Stmt.isBound (defined : List Name) (s : Stmt) : Bool :=
  s.invocation?.all (·.target ∈ defined)

/-- Whether the block has an action at some depth. -/
def Block.Acts (b : Block) : Prop := ∃ s ∈ b.statements, s.isObservable = true

/-- An empty block has no deeds. -/
@[simp] theorem Block.deeds_nil : Block.deeds [] = [] := by
  simp [Block.deeds]

/-- The deeds of a block are its first statement if it is one, those inside it and those behind. -/
theorem Block.deeds_cons (s : Stmt) (b : Block) :
    Block.deeds (s :: b) = [s].filter Stmt.isDeed ++ s.bodies.flatMap Block.deeds ++ b.deeds := by
  have inner : (s.bodies.flatMap Block.statements).filter Stmt.isDeed =
      s.bodies.flatMap Block.deeds := List.filter_flatMap
  rw [Block.deeds, Block.statements_cons, List.filter_append, ← List.singleton_append,
    List.filter_append, inner]
  rfl

/-- Filling up with `tau` adds no deed. -/
@[simp] theorem Block.deeds_orTau (b : Block) : b.orTau.deeds = b.deeds := by
  cases b <;> rfl

/-- Only statements without bodies are deeds, so changed bodies do not show. -/
theorem Stmt.filter_isDeed_mapBodies (change : Block → Block) (s : Stmt) :
    [s.mapBodies change].filter Stmt.isDeed = [s].filter Stmt.isDeed := by
  cases s <;> rfl

/-- A choice neither acts nor invokes. -/
theorem Stmt.plain_of_isChoice {s : Stmt} (choice : s.isChoice = true) :
    s.isObservable = false ∧ s.invocation? = none := by
  cases s with
  | tau => cases choice
  | act action => cases choice
  | invoke mode invocation => cases choice
  | branch kind yes no => exact ⟨rfl, rfl⟩
  | select cases => exact ⟨rfl, rfl⟩

/-- What vanishes is an invocation that dangles, or a choice whose bodies come down to `tau`. -/
theorem Stmt.vanishes_iff {defined : List Name} {s : Stmt} :
    s.vanishes defined = true ↔
      (∃ i, s.invocation? = some i ∧ i.target ∉ defined) ∨
        (s.isChoice = true ∧ ∀ body ∈ s.bodies, body.tidy defined = [.tau]) := by
  simp only [Stmt.vanishes, Bool.or_eq_true, Option.any_eq_true, decide_eq_true_eq,
    Bool.and_eq_true, List.all_eq_true, Block.isTau_iff]

/-- The first statement and its bodies lose exactly their dangling invocations. -/
theorem Stmt.deeds_tidied {defined : List Name} {s : Stmt}
    (bodies : ∀ body ∈ s.bodies,
      (body.tidy defined).deeds = body.deeds.filter (Stmt.isBound defined)) :
    (if s.vanishes defined then [] else
        [s].filter Stmt.isDeed ++ s.bodies.flatMap fun body => (body.tidy defined).deeds) =
      ([s].filter Stmt.isDeed ++ s.bodies.flatMap Block.deeds).filter (Stmt.isBound defined) := by
  have inner : (s.bodies.flatMap fun body => (body.tidy defined).deeds) =
      (s.bodies.flatMap Block.deeds).filter (Stmt.isBound defined) := by
    rw [List.filter_flatMap]
    exact List.flatMap_congr bodies
  rw [List.filter_append, ← inner]
  by_cases gone : s.vanishes defined = true
  · rw [if_pos gone]
    rcases Stmt.vanishes_iff.1 gone with ⟨i, found, dangling⟩ | ⟨choice, vacuous⟩
    · cases s <;> cases found
      simp [Stmt.isDeed, Stmt.isBound, Stmt.invocation?, Stmt.bodies, dangling]
    · have empty : (s.bodies.flatMap fun body => (body.tidy defined).deeds) = [] := by
        refine List.flatMap_eq_nil_iff.2 fun body inside => ?_
        rw [vacuous body inside]
        rfl
      obtain ⟨unseen, lone⟩ := Stmt.plain_of_isChoice choice
      simp [empty, Stmt.isDeed, unseen, lone]
  · rw [if_neg gone]
    have bound : s.isBound defined = true := by
      refine Option.all_eq_true_iff_get _ _ |>.2 fun found => decide_eq_true ?_
      by_contra dangling
      exact gone (Stmt.vanishes_iff.2 (.inl ⟨_, (Option.some_get found).symm, dangling⟩))
    by_cases deed : s.isDeed = true
    · simp [deed, bound]
    · simp [deed]

/-- Tidying loses no deed but the dangling invocations, and changes neither order nor number. -/
theorem Block.deeds_tidy (defined : List Name) (b : Block) :
    (b.tidy defined).deeds = b.deeds.filter (Stmt.isBound defined) := by
  rw [Block.tidy, Block.deeds_orTau]
  induction b using Block.induction with
  | nil => rfl
  | cons s b bodies rest =>
    have tidied : ∀ body ∈ s.bodies,
        (body.tidy defined).deeds = body.deeds.filter (Stmt.isBound defined) := by
      intro body inside
      rw [Block.tidy, Block.deeds_orTau]
      exact bodies body inside
    rw [Block.deeds_cons, List.filter_append, ← Stmt.deeds_tidied tidied, ← rest,
      Block.survivors_cons]
    split
    · rfl
    · rw [Block.deeds_cons, Stmt.bodies_mapBodies, List.flatMap_map,
        Stmt.filter_isDeed_mapBodies]

/-- A deed of a block is a statement of it that acts or invokes. -/
theorem Block.mem_deeds {s : Stmt} {b : Block} :
    s ∈ b.deeds ↔ s ∈ b.statements ∧ (s.isObservable = true ∨ s.invocation?.isSome = true) := by
  rw [Block.deeds, List.mem_filter, Stmt.isDeed, Bool.or_eq_true]

/-- A block acts if one of its deeds can be observed. -/
theorem Block.acts_iff {b : Block} : b.Acts ↔ ∃ s ∈ b.deeds, s.isObservable = true := by
  simp only [Block.Acts, Block.mem_deeds]
  constructor
  · rintro ⟨s, inside, seen⟩
    exact ⟨s, ⟨inside, .inl seen⟩, seen⟩
  · rintro ⟨s, ⟨inside, -⟩, seen⟩
    exact ⟨s, inside, seen⟩

/-- The targets of a block are those of its deeds. -/
theorem Block.mem_targets_iff {n : Name} {b : Block} :
    n ∈ b.targets ↔ ∃ s ∈ b.deeds, ∃ i, s.invocation? = some i ∧ i.target = n := by
  simp only [Block.mem_targets, Block.mem_deeds]
  constructor
  · rintro ⟨s, inside, i, found, named⟩
    exact ⟨s, ⟨inside, .inr (by rw [found]; rfl)⟩, i, found, named⟩
  · rintro ⟨s, ⟨inside, -⟩, i, found, named⟩
    exact ⟨s, inside, i, found, named⟩

/-- An action is bound to no name, so tidying never drops it. -/
theorem Stmt.isBound_of_isObservable {s : Stmt} (seen : s.isObservable = true)
    (defined : List Name) : s.isBound defined = true := by
  cases s with
  | act action => rfl
  | tau => cases seen
  | invoke mode invocation => cases seen
  | branch kind yes no => cases seen
  | select cases => cases seen

/-- A tidied block acts exactly if the block does. -/
theorem Block.acts_tidy {defined : List Name} {b : Block} : (b.tidy defined).Acts ↔ b.Acts := by
  simp only [Block.acts_iff, Block.deeds_tidy, List.mem_filter]
  constructor
  · rintro ⟨s, ⟨inside, -⟩, seen⟩
    exact ⟨s, inside, seen⟩
  · rintro ⟨s, inside, seen⟩
    exact ⟨s, ⟨inside, Stmt.isBound_of_isObservable seen defined⟩, seen⟩

/-- A tidied block invokes what the block invokes, as far as it is defined. -/
theorem Block.mem_targets_tidy {defined : List Name} {n : Name} {b : Block} :
    n ∈ (b.tidy defined).targets ↔ n ∈ b.targets ∧ n ∈ defined := by
  simp only [Block.mem_targets_iff, Block.deeds_tidy, List.mem_filter]
  constructor
  · rintro ⟨s, ⟨inside, bound⟩, i, found, rfl⟩
    rw [Stmt.isBound, found, Option.all_some, decide_eq_true_eq] at bound
    exact ⟨⟨s, inside, i, found, rfl⟩, bound⟩
  · rintro ⟨⟨s, inside, i, found, rfl⟩, known⟩
    refine ⟨s, ⟨inside, ?_⟩, i, found, rfl⟩
    rw [Stmt.isBound, found, Option.all_some, decide_eq_true_eq]
    exact known

/-- A block is silent when it neither acts nor invokes a loud function. -/
theorem Block.isSilent_iff_not_acts {loud : List Name} {b : Block} :
    b.isSilent loud = true ↔ ¬ b.Acts ∧ ∀ n ∈ b.targets, n ∉ loud := by
  rw [Block.isSilent_iff, Block.Acts]
  simp only [not_exists, not_and, Bool.not_eq_true]

/-- A block that comes down to `tau` is silent while the defined functions are loud. -/
theorem Block.isSilent_of_tidy {defined : List Name} {b : Block}
    (vacuous : b.tidy defined = [.tau]) : b.isSilent defined = true := by
  refine Block.isSilent_iff_not_acts.2 ⟨fun acts => ?_, fun n target known => ?_⟩
  · have still : (b.tidy defined).Acts := Block.acts_tidy.2 acts
    obtain ⟨s, inside, -⟩ := Block.acts_iff.1 still
    rw [vacuous] at inside
    exact absurd inside List.not_mem_nil
  · obtain ⟨s, inside, -⟩ := Block.mem_targets_iff.1 (Block.mem_targets_tidy.2 ⟨target, known⟩)
    rw [vacuous] at inside
    exact absurd inside List.not_mem_nil

/-- What vanishes is silent while the defined functions are loud. -/
theorem Stmt.isSilent_of_vanishes {defined : List Name} {s : Stmt}
    (gone : s.vanishes defined = true) : s.isSilent defined = true := by
  rw [Stmt.isSilent_iff]
  rcases Stmt.vanishes_iff.1 gone with ⟨i, found, dangling⟩ | ⟨choice, vacuous⟩
  · cases s <;> cases found
    exact ⟨rfl, fun j same => by cases same; exact dangling, fun body inside => by cases inside⟩
  · obtain ⟨unseen, lone⟩ := Stmt.plain_of_isChoice choice
    refine ⟨unseen, fun i found => ?_, fun body inside => ?_⟩
    · rw [lone] at found
      cases found
    · exact Block.isSilent_of_tidy (vacuous body inside)

/-! ### Tidy blocks -/

/-- The rules that a tidied block obeys, at every depth. -/
structure Block.IsTidy (defined : List Name) (b : Block) : Prop where
  /-- No sequence is empty. -/
  full : ∀ c ∈ b.sequences, c ≠ []
  /-- Nothing but defined functions is invoked. -/
  closed : ∀ n ∈ b.targets, n ∈ defined
  /-- Some alternative of each choice is more than `tau`. -/
  varied : ∀ s ∈ b.statements, s.isChoice = true → ∃ body ∈ s.bodies, body.isTau = false

/-- The rules of a tidy block at one statement that stands in it. -/
structure Stmt.IsTidy (defined : List Name) (s : Stmt) : Prop where
  /-- Its target is defined. -/
  bound : ∀ i, s.invocation? = some i → i.target ∈ defined
  /-- Not all of its alternatives are `tau`. -/
  varied : s.isChoice = true → ∃ body ∈ s.bodies, body.isTau = false
  /-- Its bodies are tidy. -/
  bodies : ∀ body ∈ s.bodies, body.IsTidy defined

/-- A block is tidy when it is not empty and the statements that stand directly in it are tidy. -/
theorem Block.isTidy_iff {defined : List Name} {b : Block} :
    b.IsTidy defined ↔ b ≠ [] ∧ ∀ s ∈ b, s.IsTidy defined := by
  constructor
  · intro tidy
    refine ⟨tidy.full b List.mem_cons_self, fun s inside => ?_⟩
    have here : s ∈ b.statements := Block.mem_statements.2 ⟨s, inside, .inl rfl⟩
    have below : ∀ body ∈ s.bodies, ∀ t ∈ Block.statements body, t ∈ b.statements :=
      fun body within t deep => Block.mem_statements.2 ⟨s, inside, .inr ⟨body, within, deep⟩⟩
    refine ⟨?_, ?_, fun body within => ⟨?_, ?_, ?_⟩⟩
    · intro i found
      exact tidy.closed i.target (Block.mem_targets.2 ⟨s, here, i, found, rfl⟩)
    · exact tidy.varied s here
    · intro c deep
      have inner := Block.mem_inner.2 ⟨s, inside, body, within, deep⟩
      exact tidy.full c (List.mem_cons_of_mem b inner)
    · intro n target
      obtain ⟨t, deep, i, found, rfl⟩ := Block.mem_targets.1 target
      exact tidy.closed i.target (Block.mem_targets.2 ⟨t, below body within t deep, i, found, rfl⟩)
    · exact fun t deep => tidy.varied t (below body within t deep)
  · rintro ⟨nonempty, all⟩
    refine ⟨fun c deep => ?_, fun n target => ?_, fun t deep => ?_⟩
    · rcases List.mem_cons.1 deep with rfl | inner
      · exact nonempty
      · obtain ⟨s, inside, body, within, found⟩ := Block.mem_inner.1 inner
        exact ((all s inside).bodies body within).full c found
    · obtain ⟨t, deep, i, found, rfl⟩ := Block.mem_targets.1 target
      obtain ⟨s, inside, rfl | ⟨body, within, deeper⟩⟩ := Block.mem_statements.1 deep
      · exact (all _ inside).bound i found
      · exact ((all s inside).bodies body within).closed i.target
          (Block.mem_targets.2 ⟨t, deeper, i, found, rfl⟩)
    · obtain ⟨s, inside, rfl | ⟨body, within, deeper⟩⟩ := Block.mem_statements.1 deep
      · exact (all _ inside).varied
      · exact ((all s inside).bodies body within).varied t deeper

/-- `tau` alone obeys the rules whatever is defined. -/
theorem Stmt.isTidy_tau (defined : List Name) : Stmt.tau.IsTidy defined :=
  ⟨fun _ found => (nomatch found), fun choice => (nomatch choice), fun _ inside => nomatch inside⟩

/-- A statement that does not vanish is tidy once its bodies are. -/
theorem Stmt.isTidy_mapBodies {defined : List Name} {s : Stmt}
    (stays : ¬ s.vanishes defined = true)
    (bodies : ∀ body ∈ s.bodies, (body.tidy defined).IsTidy defined) :
    (s.mapBodies (Block.tidy defined)).IsTidy defined := by
  refine ⟨fun i found => ?_, fun choice => ?_, fun body inside => ?_⟩
  · rw [Stmt.invocation?_mapBodies] at found
    by_contra dangling
    exact stays (Stmt.vanishes_iff.2 (.inl ⟨i, found, dangling⟩))
  · rw [Stmt.isChoice_mapBodies] at choice
    by_contra vacuous
    refine stays (Stmt.vanishes_iff.2 (.inr ⟨choice, fun body inside => ?_⟩))
    by_contra more
    refine vacuous ⟨body.tidy defined, ?_, ?_⟩
    · rw [Stmt.bodies_mapBodies]
      exact List.mem_map_of_mem inside
    · exact Bool.eq_false_iff.2 fun lone => more (Block.isTau_iff.1 lone)
  · rw [Stmt.bodies_mapBodies] at inside
    obtain ⟨original, within, rfl⟩ := List.mem_map.1 inside
    exact bodies original within

/-- The block is tidy if its survivors are, since `tau` is all that is ever filled in. -/
theorem Block.isTidy_tidy_of_survivors {defined : List Name} {b : Block}
    (survive : ∀ s ∈ b.survivors defined, s.IsTidy defined) : (b.tidy defined).IsTidy defined := by
  refine Block.isTidy_iff.2 ⟨Block.orTau_ne_nil _, fun s inside => ?_⟩
  by_cases empty : b.survivors defined = []
  · rw [Block.tidy, empty] at inside
    rw [List.mem_singleton.1 inside]
    exact Stmt.isTidy_tau defined
  · rw [Block.tidy, Block.orTau_of_ne_nil empty] at inside
    exact survive s inside

/-- Tidying leaves a tidy block, whatever it starts from. -/
theorem Block.isTidy_tidy (defined : List Name) (b : Block) :
    (b.tidy defined).IsTidy defined := by
  refine Block.isTidy_tidy_of_survivors ?_
  induction b using Block.induction with
  | nil => exact fun s inside => absurd inside List.not_mem_nil
  | cons s b bodies rest =>
    rw [Block.survivors_cons]
    split
    · exact rest
    · intro t inside
      rcases List.mem_cons.1 inside with rfl | later
      · exact Stmt.isTidy_mapBodies ‹_› fun body within =>
          Block.isTidy_tidy_of_survivors (bodies body within)
      · exact rest t later

/-- A tidy statement does not vanish if tidying leaves its bodies alone. -/
theorem Stmt.IsTidy.not_vanishes {defined : List Name} {s : Stmt} (tidy : s.IsTidy defined)
    (same : ∀ body ∈ s.bodies, body.tidy defined = body) : ¬ s.vanishes defined = true := by
  intro gone
  rcases Stmt.vanishes_iff.1 gone with ⟨i, found, dangling⟩ | ⟨choice, vacuous⟩
  · exact dangling (tidy.bound i found)
  · obtain ⟨body, within, more⟩ := tidy.varied choice
    rw [← same body within, vacuous body within] at more
    cases more

/-- A tidy block is the result of tidying it: no rule applies at any depth. -/
theorem Block.tidy_eq_self {defined : List Name} {b : Block} (tidy : b.IsTidy defined) :
    b.tidy defined = b := by
  obtain ⟨nonempty, all⟩ := Block.isTidy_iff.1 tidy
  suffices same : b.survivors defined = b by
    rw [Block.tidy, same, Block.orTau_of_ne_nil nonempty]
  clear tidy nonempty
  induction b using Block.induction with
  | nil => rfl
  | cons s b bodies rest =>
    have head := all s List.mem_cons_self
    have inner : ∀ body ∈ s.bodies, body.tidy defined = body := by
      intro body within
      obtain ⟨nonempty, deeper⟩ := Block.isTidy_iff.1 (head.bodies body within)
      rw [Block.tidy, bodies body within deeper, Block.orTau_of_ne_nil nonempty]
    rw [Block.survivors_cons, if_neg (head.not_vanishes inner), Stmt.mapBodies_eq_self inner,
      rest fun t later => all t (List.mem_cons_of_mem _ later)]

/-! ### Tidying again -/

/-- The `tau` that stands for nothing does not change what tidying leaves. -/
theorem Block.tidy_orTau (defined : List Name) (b : Block) :
    b.orTau.tidy defined = b.tidy defined := by
  cases b with
  | nil => rfl
  | cons s b => rfl

/-- What vanishes does so with fewer names defined, if its bodies come down to the same. -/
theorem Stmt.vanishes_of_vanishes {few many : List Name} {s : Stmt}
    (fewer : ∀ n ∈ few, n ∈ many)
    (bodies : ∀ body ∈ s.bodies, (body.tidy many).tidy few = body.tidy few)
    (gone : s.vanishes many = true) : s.vanishes few = true := by
  rcases Stmt.vanishes_iff.1 gone with ⟨i, found, dangling⟩ | ⟨choice, vacuous⟩
  · exact Stmt.vanishes_iff.2 (.inl ⟨i, found, fun known => dangling (fewer i.target known)⟩)
  · refine Stmt.vanishes_iff.2 (.inr ⟨choice, fun body inside => ?_⟩)
    rw [← bodies body inside, vacuous body inside]
    rfl

/-- Whether a statement vanishes does not depend on whether its bodies were tidied before. -/
theorem Stmt.vanishes_mapBodies {few many : List Name} {s : Stmt}
    (bodies : ∀ body ∈ s.bodies, (body.tidy many).tidy few = body.tidy few) :
    (s.mapBodies (Block.tidy many)).vanishes few = s.vanishes few := by
  have inner : (s.bodies.all fun body => ((body.tidy many).tidy few).isTau) =
      s.bodies.all fun body => (body.tidy few).isTau := by
    rw [Bool.eq_iff_iff, List.all_eq_true, List.all_eq_true]
    exact forall₂_congr fun body inside => by rw [bodies body inside]
  rw [Stmt.vanishes, Stmt.invocation?_mapBodies, Stmt.isChoice_mapBodies, Stmt.bodies_mapBodies,
    List.all_map, Function.comp_def, inner, Stmt.vanishes]

/-- Tidying twice comes down to the second time if it does so for what survives. -/
theorem Block.tidy_tidy_of_survivors {few many : List Name} {b : Block}
    (same : (b.survivors many).survivors few = b.survivors few) :
    (b.tidy many).tidy few = b.tidy few := by
  calc (b.survivors many).orTau.tidy few
    _ = (b.survivors many).tidy few := Block.tidy_orTau few _
    _ = b.tidy few := congrArg Block.orTau same

/-- Tidying by many names and later by some of them is tidying by the latter at once. -/
theorem Block.tidy_tidy {few many : List Name} (fewer : ∀ n ∈ few, n ∈ many) (b : Block) :
    (b.tidy many).tidy few = b.tidy few := by
  refine Block.tidy_tidy_of_survivors ?_
  induction b using Block.induction with
  | nil => rfl
  | cons s b bodies rest =>
    have inner : ∀ body ∈ s.bodies, (body.tidy many).tidy few = body.tidy few :=
      fun body inside => Block.tidy_tidy_of_survivors (bodies body inside)
    rw [Block.survivors_cons many, Block.survivors_cons few]
    by_cases gone : s.vanishes many = true
    · rw [if_pos gone, if_pos (Stmt.vanishes_of_vanishes fewer inner gone), rest]
    · rw [if_neg gone, Block.survivors_cons few, Stmt.vanishes_mapBodies inner,
        Stmt.mapBodies_mapBodies inner, rest]

end BehaviouralTypes
