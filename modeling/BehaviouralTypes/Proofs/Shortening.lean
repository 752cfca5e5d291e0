import BehaviouralTypes.Proofs.Interleaving
import BehaviouralTypes.Proofs.Nesting

/-!
# Shortened programs

A program shortens another when its bodies are those of the other with idle statements left out,
at any depth, and `tau` put in anywhere. The shortened program follows every run of the other
(`Program.Shortens.follow_run`): what is left out does nothing that can be noticed, so the shortened
thread just waits. The other retraces every run of the shortened one
(`Program.Shortens.retrace_run`) if it can run what was left out to its end. The threads that are
spawned on the way stay behind as spare threads and never need to move.
-/

namespace BehaviouralTypes

/-- The second block is the first with idle statements left out and `tau` put in, at any depth. What
is kept invokes known names only. -/
inductive Block.Shortens (idle : Stmt → Prop) (known : Name → Prop) : Block → Block → Prop
  /-- Nothing is left of nothing. -/
  | nil : Shortens idle known [] []
  /-- An idle statement is left out. -/
  | drop {s : Stmt} {b c : Block} :
      idle s → Shortens idle known b c → Shortens idle known (s :: b) c
  /-- A `tau` is put in. -/
  | pause {b c : Block} : Shortens idle known b c → Shortens idle known b (.tau :: c)
  /-- A statement is kept, with its bodies shortened. -/
  | keep {s : Stmt} {b c : Block} (change : Block → Block) :
      (∀ i, s.invocation? = some i → known i.target) →
      (∀ body ∈ s.bodies, Shortens idle known body (change body)) →
      Shortens idle known b c → Shortens idle known (s :: b) (s.mapBodies change :: c)

namespace Block.Shortens

variable {idle : Stmt → Prop} {known : Name → Prop} {b c d e : Block}

/-- Shortenings in a row are a shortening. -/
theorem append (front : Shortens idle known b c) (back : Shortens idle known d e) :
    Shortens idle known (b ++ d) (c ++ e) := by
  induction front with
  | nil => exact back
  | drop calm _ ih => exact .drop calm ih
  | pause _ ih => exact .pause ih
  | keep change bound bodies _ _ ih => exact .keep change bound bodies ih

/-- Idle statements in front are left out. -/
theorem append_idle (calm : ∀ s ∈ b, idle s) (back : Shortens idle known d e) :
    Shortens idle known (b ++ d) e := by
  induction b with
  | nil => exact back
  | cons s b ih =>
    exact .drop (calm s List.mem_cons_self)
      (ih fun t later => calm t (List.mem_cons_of_mem s later))

/-- A block that invokes known names only shortens to itself. -/
theorem refl (bound : ∀ n ∈ b.targets, known n) : Shortens idle known b b := by
  induction b using Block.induction with
  | nil => exact .nil
  | cons s b bodies rest =>
    have here : ∀ t ∈ Block.statements (s :: b), ∀ i, t.invocation? = some i → known i.target :=
      fun t inside i found => bound i.target (Block.mem_targets.2 ⟨t, inside, i, found, rfl⟩)
    have inner : ∀ body ∈ s.bodies, Shortens idle known body (id body) := by
      intro body within
      refine bodies body within fun n target => ?_
      obtain ⟨t, deep, i, found, rfl⟩ := Block.mem_targets.1 target
      exact here t (Block.mem_statements_of_body within deep) i found
    have later : Shortens idle known b b := by
      refine rest fun n target => ?_
      obtain ⟨t, deep, i, found, rfl⟩ := Block.mem_targets.1 target
      exact here t (Block.mem_statements_of_tail deep) i found
    have same : s.mapBodies id = s := Stmt.mapBodies_eq_self fun _ _ => rfl
    have kept := Shortens.keep id (here s (Block.head_mem_statements s b)) inner later
    rwa [same] at kept

end Block.Shortens

/-- Whether no thread has anything but idle statements to run. -/
def Threads.Idle (idle : Stmt → Prop) (threads : Threads) : Prop :=
  ∀ b ∈ threads, ∀ s ∈ b, idle s

namespace Threads.Idle

variable {idle : Stmt → Prop} {first second : Threads} {b : Block}

/-- No threads are idle. -/
theorem zero : Threads.Idle idle 0 :=
  fun _ inside => absurd inside (Multiset.notMem_zero _)

/-- A thread of idle statements is idle. -/
theorem single (calm : ∀ s ∈ b, idle s) : Threads.Idle idle {b} := by
  intro d inside
  rwa [Multiset.mem_singleton.1 inside]

/-- Idle threads beside idle threads are idle. -/
theorem add (calm : Threads.Idle idle first) (calm' : Threads.Idle idle second) :
    Threads.Idle idle (first + second) := by
  intro b inside
  rcases Multiset.mem_add.1 inside with here | there
  · exact calm b here
  · exact calm' b there

end Threads.Idle

/-- The threads of one program shorten to those of another, apart from spare threads that are
idle. -/
def Threads.Shorten (idle : Stmt → Prop) (known : Name → Prop) (before after : Threads) : Prop :=
  ∃ kept spare, before = kept + spare ∧ Multiset.Rel (Block.Shortens idle known) kept after ∧
    Threads.Idle idle spare

namespace Threads.Shorten

variable {idle : Stmt → Prop} {known : Name → Prop} {before after others more : Threads}
  {b c : Block}

/-- Idle threads shorten to none. -/
theorem of_idle (calm : Threads.Idle idle before) : Threads.Shorten idle known before 0 :=
  ⟨0, before, (Multiset.zero_add before).symm, .zero, calm⟩

/-- Shortenings side by side are a shortening. -/
theorem add (first : Threads.Shorten idle known before after)
    (second : Threads.Shorten idle known others more) :
    Threads.Shorten idle known (before + others) (after + more) := by
  obtain ⟨kept, spare, rfl, related, calm⟩ := first
  obtain ⟨kept', spare', rfl, related', calm'⟩ := second
  refine ⟨kept + kept', spare + spare', ?_, related.add related', calm.add calm'⟩
  rw [Multiset.add_assoc, Multiset.add_assoc, ← Multiset.add_assoc spare,
    Multiset.add_comm spare kept', Multiset.add_assoc]

/-- A thread and the others are shortened side by side. -/
theorem cons (head : Block.Shortens idle known b c)
    (tail : Threads.Shorten idle known before after) :
    Threads.Shorten idle known (b ::ₘ before) (c ::ₘ after) := by
  obtain ⟨kept, spare, rfl, related, calm⟩ := tail
  exact ⟨b ::ₘ kept, spare, (Multiset.cons_add b kept spare).symm, .cons head related, calm⟩

/-- A thread that stands alone is shortened by itself. -/
theorem single (head : Block.Shortens idle known b c) : Threads.Shorten idle known {b} {c} :=
  cons head (of_idle .zero)

/-- A thread of the longer program is spare or shortens to one of the other. -/
theorem cons_left (related : Threads.Shorten idle known (b ::ₘ before) after) :
    ((∀ s ∈ b, idle s) ∧ Threads.Shorten idle known before after) ∨
      ∃ c rest, after = c ::ₘ rest ∧ Block.Shortens idle known b c ∧
        Threads.Shorten idle known before rest := by
  obtain ⟨kept, spare, total, related, calm⟩ := related
  have inside : b ∈ kept + spare := total ▸ Multiset.mem_cons_self b before
  rcases Multiset.mem_add.1 inside with here | there
  · obtain ⟨rest, rfl⟩ := Multiset.exists_cons_of_mem here
    rw [Multiset.cons_add, Multiset.cons_inj_right] at total
    obtain ⟨c, more, short, others, rfl⟩ := Multiset.rel_cons_left.1 related
    exact .inr ⟨c, more, rfl, short, rest, spare, total, others, calm⟩
  · obtain ⟨rest, rfl⟩ := Multiset.exists_cons_of_mem there
    rw [Multiset.add_cons, Multiset.cons_inj_right] at total
    refine .inl ⟨calm b (Multiset.mem_cons_self b rest), kept, rest, total, related, ?_⟩
    exact fun d later => calm d (Multiset.mem_cons_of_mem later)

/-- Every thread of the shorter program comes from one of the other. -/
theorem cons_right (related : Threads.Shorten idle known before (c ::ₘ after)) :
    ∃ b rest, before = b ::ₘ rest ∧ Block.Shortens idle known b c ∧
      Threads.Shorten idle known rest after := by
  obtain ⟨kept, spare, rfl, related, calm⟩ := related
  obtain ⟨b, rest, short, others, rfl⟩ := Multiset.rel_cons_right.1 related
  exact ⟨b, rest + spare, Multiset.cons_add b rest spare, short, rest, spare, rfl, others, calm⟩

end Threads.Shorten

namespace Program

variable {idle : Stmt → Prop} {known : Name → Prop} {p q : Program} {b b' c c' : Block}
  {label : Option Stmt} {started : Threads}

/-- The statements that do nothing noticeable in the program, nor lead to anything else. -/
structure Idles (p : Program) (idle : Stmt → Prop) : Prop where
  /-- They are no actions. -/
  unseen : ∀ s, idle s → s.isObservable = false
  /-- Their bodies hold such statements only. -/
  bodies : ∀ s, idle s → ∀ body ∈ s.bodies, ∀ t ∈ body, idle t
  /-- The functions that they invoke do such statements only. -/
  invoked : ∀ s i f, idle s → s.invocation? = some i → p.find? i.target = some f →
    ∀ t ∈ f.body, idle t

/-- The second program is the first with idle statements left out. Functions may be gone if they do
nothing else, or if they are not known to what is kept. -/
structure Shortens (idle : Stmt → Prop) (known : Name → Prop) (p q : Program) : Prop where
  /-- What is left out does nothing noticeable. -/
  idles : p.Idles idle
  /-- No definition is new. -/
  lost : ∀ n, p.find? n = none → q.find? n = none
  /-- A known function that is still defined has a shortened body. -/
  kept : ∀ n f g, known n → p.find? n = some f → q.find? n = some g →
    Block.Shortens idle known f.body g.body
  /-- A known function that is gone did nothing but idle statements. -/
  gone : ∀ n f, known n → p.find? n = some f → q.find? n = none → ∀ t ∈ f.body, idle t

/-- A thread moves from an idle statement without being noticed, and on to idle statements. -/
theorem Idles.moves {s : Stmt} {rest : Block} (idles : p.Idles idle) (calm : idle s)
    (move : p.Moves (s :: rest) label b' started) :
    label = none ∧ (∃ front, b' = front ++ rest ∧ ∀ t ∈ front, idle t) ∧
      Threads.Idle idle started := by
  cases move with
  | act seen =>
    rw [idles.unseen s calm] at seen
    cases seen
  | tau => exact ⟨rfl, ⟨[], rfl, List.forall_mem_nil _⟩, .zero⟩
  | skip missing => exact ⟨rfl, ⟨[], rfl, List.forall_mem_nil _⟩, .zero⟩
  | @call i f _ found =>
    exact ⟨rfl, ⟨f.body, rfl, idles.invoked _ i f calm rfl found⟩, .zero⟩
  | @spawn i f _ found =>
    exact ⟨rfl, ⟨[], rfl, List.forall_mem_nil _⟩, .single (idles.invoked _ i f calm rfl found)⟩
  | @choose _ body _ inside =>
    exact ⟨rfl, ⟨body, rfl, idles.bodies s calm body inside⟩, .zero⟩

/-- A spare thread moves without being noticed and leaves spare threads. -/
theorem Idles.spare (idles : p.Idles idle) (calm : ∀ s ∈ b, idle s)
    (move : p.Moves b label b' started) :
    label = none ∧ Threads.Shorten idle known (b' ::ₘ started) 0 := by
  cases b with
  | nil => cases move
  | cons s rest =>
    obtain ⟨silent, ⟨front, rfl, quiet⟩, others⟩ := idles.moves (calm s List.mem_cons_self) move
    have thread : ∀ t ∈ front ++ rest, idle t := by
      intro t within
      rcases List.mem_append.1 within with first | later
      · exact quiet t first
      · exact calm t (List.mem_cons_of_mem s later)
    have threads := (Threads.Idle.single thread).add others
    rw [Multiset.singleton_add] at threads
    exact ⟨silent, .of_idle threads⟩

/-! ### From the program to the shortened one -/

/-- The shortened program does at a kept statement what the program does there. -/
theorem Shortens.follow_kept {s : Stmt} {rest tail : Block} {change : Block → Block}
    (short : Shortens idle known p q) (bound : ∀ i, s.invocation? = some i → known i.target)
    (bodies : ∀ body ∈ s.bodies, Block.Shortens idle known body (change body))
    (later : Block.Shortens idle known rest tail) (move : p.Moves (s :: rest) label b' started) :
    ∃ threads, q.Run {s.mapBodies change :: tail} label.toList threads ∧
      Threads.Shorten idle known (b' ::ₘ started) threads := by
  cases move with
  | act seen =>
    have same : s.mapBodies change = s := Stmt.mapBodies_eq_self fun body inside => by
      rw [Stmt.bodies_of_isObservable seen] at inside
      cases inside
    rw [same]
    exact ⟨_, (Moves.act seen).run, .single later⟩
  | tau => exact ⟨_, Moves.tau.run, .single later⟩
  | skip missing => exact ⟨_, (Moves.skip (short.lost _ missing)).run, .single later⟩
  | @call i f _ found =>
    cases still : q.find? i.target with
    | none =>
      have calm := short.gone i.target f (bound i rfl) found still
      exact ⟨_, (Moves.skip still).run, .single (.append_idle calm later)⟩
    | some g =>
      have body := short.kept i.target f g (bound i rfl) found still
      exact ⟨_, (Moves.call still).run, .single (body.append later)⟩
  | @spawn i f _ found =>
    cases still : q.find? i.target with
    | none =>
      have calm := short.gone i.target f (bound i rfl) found still
      exact ⟨_, (Moves.skip still).run, .cons later (.of_idle (.single calm))⟩
    | some g =>
      have body := short.kept i.target f g (bound i rfl) found still
      exact ⟨_, (Moves.spawn still).run, .cons later (.single body)⟩
  | @choose _ body _ inside =>
    have offered : change body ∈ (s.mapBodies change).bodies := by
      rw [Stmt.bodies_mapBodies]
      exact List.mem_map_of_mem inside
    exact ⟨_, (Moves.choose offered).run, .single ((bodies body inside).append later)⟩

/-- A thread of the shortened program follows each move of the thread that it comes from. -/
theorem Shortens.follow (short : Shortens idle known p q) (block : Block.Shortens idle known b c)
    (move : p.Moves b label b' started) : ∃ threads, q.Run {c} label.toList threads ∧
      Threads.Shorten idle known (b' ::ₘ started) threads := by
  induction block with
  | nil => cases move
  | @drop s rest tail calm later _ =>
    obtain ⟨silent, ⟨front, rfl, quiet⟩, others⟩ := short.idles.moves calm move
    rw [silent]
    exact ⟨_, .stop {tail}, .cons (.append_idle quiet later) (.of_idle others)⟩
  | @pause rest tail _ ih =>
    obtain ⟨threads, run, related⟩ := ih move
    exact ⟨threads, Run.append Moves.tau.run run, related⟩
  | keep change bound bodies later _ _ => exact short.follow_kept bound bodies later move

/-- **The shortened program follows.** It shows what the program shows. -/
theorem Shortens.follow_run {before after before' : Threads} {trace : List Stmt}
    (short : Shortens idle known p q) (related : Threads.Shorten idle known before after)
    (run : p.Run before trace before') :
    ∃ after', q.Run after trace after' ∧ Threads.Shorten idle known before' after' := by
  induction run generalizing after with
  | stop threads => exact ⟨after, .stop after, related⟩
  | step step _ ih =>
    cases step with
    | @thread b b' label started others move =>
      rcases related.cons_left with ⟨calm, waiting⟩ | ⟨c, rest, rfl, block, waiting⟩
      · -- A spare thread moved, so the shortened program waits.
        obtain ⟨silent, spare⟩ := short.idles.spare calm move
        have next := spare.add waiting
        rw [Multiset.cons_add, Multiset.zero_add] at next
        obtain ⟨after', run, final⟩ := ih next
        rw [silent]
        exact ⟨after', run, final⟩
      · obtain ⟨threads, first, moved⟩ := short.follow block move
        have next := moved.add waiting
        rw [Multiset.cons_add] at next
        obtain ⟨after', run, final⟩ := ih next
        exact ⟨after', Run.append (first.frame rest) run, final⟩

/-- Threads without anything but idle statements show nothing. -/
theorem Shortens.trace_eq_nil {before after : Threads} {trace : List Stmt}
    (short : Shortens idle known p q) (calm : Threads.Idle idle before)
    (run : p.Run before trace after) : trace = [] := by
  obtain ⟨threads, nothing, -⟩ := short.follow_run (.of_idle calm) run
  generalize empty : (0 : Threads) = start at nothing
  cases nothing with
  | stop => rfl
  | step step _ =>
    cases step with
    | thread _ => exact absurd empty (Multiset.zero_ne_cons)

/-! ### From the shortened program back -/

/-- Whether a thread can run the block to its end without being noticed. It may leave spare threads
behind. -/
def Flushes (p : Program) (idle : Stmt → Prop) (b : Block) : Prop :=
  ∀ rest, ∃ spare, p.Run {b ++ rest} [] (rest ::ₘ spare) ∧ Threads.Idle idle spare

/-- A run that a thread can take after flushing a block can be taken with the block in front. -/
theorem Flushes.before {trace : List Stmt} {rest : Block} {threads after : Threads}
    (flushes : p.Flushes idle b) (run : p.Run {rest} trace threads)
    (related : Threads.Shorten idle known threads after) :
    ∃ threads', p.Run {b ++ rest} trace threads' ∧ Threads.Shorten idle known threads' after := by
  obtain ⟨spare, flush, calm⟩ := flushes rest
  have left : Threads.Shorten idle known spare 0 := .of_idle calm
  have joined := related.add left
  rw [Multiset.add_zero] at joined
  exact ⟨threads + spare, Run.append flush (run.frame spare), joined⟩

/-- The program does at a kept statement what the shortened one does there. -/
theorem Shortens.retrace_kept {s : Stmt} {rest tail : Block} {change : Block → Block}
    (short : Shortens idle known p q) (flush : ∀ d, (∀ t ∈ d, idle t) → p.Flushes idle d)
    (bound : ∀ i, s.invocation? = some i → known i.target)
    (bodies : ∀ body ∈ s.bodies, Block.Shortens idle known body (change body))
    (later : Block.Shortens idle known rest tail)
    (move : q.Moves (s.mapBodies change :: tail) label c' started) :
    ∃ threads, p.Run {s :: rest} label.toList threads ∧
      Threads.Shorten idle known threads (c' ::ₘ started) := by
  generalize changed : s.mapBodies change = t at move
  cases move with
  | act seen =>
    have same := Stmt.eq_of_mapBodies_eq changed (Stmt.bodies_of_isObservable seen)
    rw [same]
    exact ⟨_, (Moves.act seen).run, .single later⟩
  | tau =>
    have same := Stmt.eq_of_mapBodies_eq changed rfl
    rw [same]
    exact ⟨_, Moves.tau.run, .single later⟩
  | @skip mode i _ missing =>
    have same := Stmt.eq_of_mapBodies_eq changed rfl
    subst same
    cases found : p.find? i.target with
    | none => exact ⟨_, (Moves.skip found).run, .single later⟩
    | some f =>
      have calm := short.gone i.target f (bound i rfl) found missing
      cases mode with
      | call =>
        obtain ⟨threads, run, related⟩ := (flush f.body calm).before (.stop {rest}) (.single later)
        exact ⟨threads, Run.append (Moves.call found).run run, related⟩
      | spawn =>
        exact ⟨_, (Moves.spawn found).run, .cons later (.of_idle (.single calm))⟩
  | @call i g _ still =>
    have same := Stmt.eq_of_mapBodies_eq changed rfl
    subst same
    cases found : p.find? i.target with
    | none => rw [short.lost i.target found] at still; cases still
    | some f =>
      have body := short.kept i.target f g (bound i rfl) found still
      exact ⟨_, (Moves.call found).run, .single (body.append later)⟩
  | @spawn i g _ still =>
    have same := Stmt.eq_of_mapBodies_eq changed rfl
    subst same
    cases found : p.find? i.target with
    | none => rw [short.lost i.target found] at still; cases still
    | some f =>
      have body := short.kept i.target f g (bound i rfl) found still
      exact ⟨_, (Moves.spawn found).run, .cons later (.single body)⟩
  | @choose _ offered _ inside =>
    rw [← changed, Stmt.bodies_mapBodies] at inside
    obtain ⟨body, within, rfl⟩ := List.mem_map.1 inside
    exact ⟨_, (Moves.choose within).run, .single ((bodies body within).append later)⟩

/-- A thread retraces each move of the thread that it shortens to. -/
theorem Shortens.retrace (short : Shortens idle known p q)
    (flush : ∀ d, (∀ t ∈ d, idle t) → p.Flushes idle d) (block : Block.Shortens idle known b c)
    (move : q.Moves c label c' started) : ∃ threads, p.Run {b} label.toList threads ∧
      Threads.Shorten idle known threads (c' ::ₘ started) := by
  induction block with
  | nil => cases move
  | @drop s rest tail calm _ ih =>
    obtain ⟨threads, run, related⟩ := ih move
    exact (flush [s] (List.forall_mem_singleton.2 calm)).before run related
  | @pause rest tail later _ =>
    cases move with
    | act seen => cases seen
    | tau => exact ⟨{rest}, .stop {rest}, .single later⟩
    | choose inside => cases inside
  | keep change bound bodies later _ _ => exact short.retrace_kept flush bound bodies later move

/-- **The program retraces.** It shows what the shortened program shows, provided that it can run
what was left out to its end. -/
theorem Shortens.retrace_run {before after after' : Threads} {trace : List Stmt}
    (short : Shortens idle known p q) (flush : ∀ d, (∀ t ∈ d, idle t) → p.Flushes idle d)
    (related : Threads.Shorten idle known before after) (run : q.Run after trace after') :
    ∃ before', p.Run before trace before' ∧ Threads.Shorten idle known before' after' := by
  induction run generalizing before with
  | stop threads => exact ⟨before, .stop before, related⟩
  | step step _ ih =>
    cases step with
    | thread move =>
      obtain ⟨b, rest, rfl, block, waiting⟩ := related.cons_right
      obtain ⟨threads, first, moved⟩ := short.retrace flush block move
      have next := moved.add waiting
      rw [Multiset.cons_add] at next
      obtain ⟨before', run, final⟩ := ih next
      exact ⟨before', Run.append (first.frame rest) run, final⟩

end Program

end BehaviouralTypes
