import BehaviouralTypes.Proofs.Tidying
import Mathlib.Algebra.BigOperators.Group.List.Basic
import Mathlib.Algebra.GroupWithZero.Nat
import Mathlib.Order.WellFounded

/-!
# Tidying by single steps

Tidying can be taken apart into steps that anybody may make anywhere in a block: drop an invocation
that dangles, drop a choice that offers nothing but `tau`, write `tau` into an empty sequence
(`Block.Rewrites`). A step does not change what tidying leaves, and the statements still to be
dropped become one fewer exactly if the step drops one (`Block.Rewrites.tidy`,
`Block.Rewrites.dropped`). A block to which no step applies is tidy. So the order of the steps does
not matter, and the one scan of a tidying does all of them (`Block.rewrites_tidy`).
-/

namespace BehaviouralTypes

/-! ### Steps -/

/-- The three sorts of step. -/
inductive Rule where
  /-- An invocation of an undefined name is dropped. -/
  | dangling
  /-- A choice that offers nothing but `tau` is dropped. -/
  | vacuous
  /-- An empty sequence becomes `tau`. -/
  | filler
deriving DecidableEq, Repr

/-- Whether a step of that sort drops a statement. -/
def Rule.drops : Rule → Bool
  | dangling | vacuous => true
  | filler => false

/-- The two statements differ in one alternative, which is the first block in the one and the second
block in the other. -/
inductive Stmt.Exchanges (body other : Block) : Stmt → Stmt → Prop
  /-- The first alternative of a branch. -/
  | yes (kind : BranchKind) (no : Block) :
      Exchanges body other (.branch kind body no) (.branch kind other no)
  /-- The second alternative of a branch. -/
  | no (kind : BranchKind) (yes : Block) :
      Exchanges body other (.branch kind yes body) (.branch kind yes other)
  /-- Any alternative of a selection. -/
  | case (before after : Choices) :
      Exchanges body other (.select (before ++ body :: after)) (.select (before ++ other :: after))

/-- One step of that sort, at any depth, when these names are defined. -/
inductive Block.Rewrites (defined : List Name) : Rule → Block → Block → Prop
  /-- An invocation of an undefined name is dropped. -/
  | dangling {mode : Mode} {i : Invocation} (before after : Block) : i.target ∉ defined →
      Rewrites defined .dangling (before ++ .invoke mode i :: after) (before ++ after)
  /-- A choice in which every alternative is `tau` alone is dropped. -/
  | vacuous {s : Stmt} (before after : Block) : s.isChoice = true →
      (∀ body ∈ s.bodies, body = [.tau]) →
      Rewrites defined .vacuous (before ++ s :: after) (before ++ after)
  /-- An empty sequence becomes `tau`. -/
  | filler : Rewrites defined .filler [] [.tau]
  /-- A step in an alternative of a choice. -/
  | inside {rule : Rule} {body other : Block} {s t : Stmt} (before after : Block) :
      Rewrites defined rule body other → s.Exchanges body other t →
      Rewrites defined rule (before ++ s :: after) (before ++ t :: after)

/-- Steps one after the other, of these sorts. -/
inductive Block.RewritesAll (defined : List Name) : List Rule → Block → Block → Prop
  /-- No step. -/
  | nil (b : Block) : RewritesAll defined [] b b
  /-- One step before others. -/
  | cons {rule : Rule} {rules : List Rule} {b c d : Block} : Block.Rewrites defined rule b c →
      RewritesAll defined rules c d → RewritesAll defined (rule :: rules) b d

/-- Whether no step is left to be made. -/
def Block.IsNormal (defined : List Name) (b : Block) : Prop :=
  ∀ rule c, ¬ Block.Rewrites defined rule b c

/-! ### Tidying and counting in context -/

variable {defined : List Name} {s t : Stmt} {b body other : Block}

/-- What survives of a block survives part by part. -/
theorem Block.survivors_append (defined : List Name) (b c : Block) :
    Block.survivors defined (b ++ c) = b.survivors defined ++ c.survivors defined := by
  induction b with
  | nil => rw [List.nil_append, Block.survivors_nil, List.nil_append]
  | cons s b ih => rw [List.cons_append, Block.survivors, Block.survivors, ih, List.append_assoc]

/-- A statement in the middle of a block matters to tidying by what is left of it. -/
theorem Block.tidy_middle (defined : List Name) (before after : Block) (s : Stmt) :
    Block.tidy defined (before ++ s :: after) =
      (before.survivors defined ++
        ((s.tidy? defined).toList ++ after.survivors defined)).orTau := by
  rw [Block.tidy, Block.survivors_append, Block.survivors]

/-- Two parts are tidied together by what survives of each. -/
theorem Block.tidy_append (defined : List Name) (before after : Block) :
    Block.tidy defined (before ++ after) =
      (before.survivors defined ++ after.survivors defined).orTau := by
  rw [Block.tidy, Block.survivors_append]

/-- What is dropped is counted part by part. -/
theorem Block.dropped_append (defined : List Name) (b c : Block) :
    Block.dropped defined (b ++ c) = b.dropped defined + c.dropped defined := by
  induction b with
  | nil => rw [List.nil_append, Block.dropped, Nat.zero_add]
  | cons s b ih => rw [List.cons_append, Block.dropped, Block.dropped, ih, Nat.add_assoc]

/-- What is dropped of alternatives is the sum of what each loses. -/
theorem Choices.dropped_eq (defined : List Name) (cases : Choices) :
    Choices.dropped defined cases = (cases.map (Block.dropped defined)).sum := by
  induction cases with
  | nil => rw [Choices.dropped, List.map_nil, List.sum_nil]
  | cons block cases ih => rw [Choices.dropped, ih, List.map_cons, List.sum_cons]

/-- Tidying leaves nothing of a statement exactly if it vanishes. -/
theorem Stmt.isNone_tidy? (defined : List Name) (s : Stmt) :
    (s.tidy? defined).isNone = s.vanishes defined := by
  rw [Stmt.tidy?_eq]
  cases s.vanishes defined <;> rfl

/-- Of a statement what its bodies lose is dropped, and itself if it vanishes. -/
theorem Stmt.dropped_eq (defined : List Name) (s : Stmt) :
    s.dropped defined =
      (s.bodies.map (Block.dropped defined)).sum + if s.vanishes defined then 1 else 0 := by
  cases s with
  | tau => rfl
  | act action => rfl
  | invoke mode invocation => simp [Stmt.dropped, Stmt.bodies, Stmt.isNone_tidy?]
  | branch kind yes no => simp [Stmt.dropped, Stmt.bodies, Stmt.isNone_tidy?]
  | select cases => simp [Stmt.dropped, Stmt.bodies, Stmt.isNone_tidy?, Choices.dropped_eq]

/-- If nothing is dropped in the bodies, it is the statement itself or nothing. -/
theorem Stmt.dropped_of_bodies (nothing : ∀ body ∈ s.bodies, body.dropped defined = 0) :
    s.dropped defined = if s.vanishes defined then 1 else 0 := by
  have zero : (s.bodies.map (Block.dropped defined)).sum = 0 := by
    refine List.sum_eq_zero fun n counted => ?_
    obtain ⟨body, inside, rfl⟩ := List.mem_map.1 counted
    exact nothing body inside
  rw [Stmt.dropped_eq, zero, Nat.zero_add]

/-- A choice that offers nothing but `tau` vanishes, and nothing is dropped in it. -/
theorem Stmt.vanishes_of_bodies (choice : s.isChoice = true)
    (empty : ∀ body ∈ s.bodies, body = [.tau]) :
    s.vanishes defined = true ∧ s.dropped defined = 1 := by
  have vanishes : s.vanishes defined = true := by
    refine Stmt.vanishes_iff.2 (.inr ⟨choice, fun body inside => ?_⟩)
    rw [empty body inside]
    rfl
  refine ⟨vanishes, ?_⟩
  rw [Stmt.dropped_of_bodies, if_pos vanishes]
  intro body inside
  rw [empty body inside]
  rfl

/-- The sequences inside a block are those in its parts. -/
theorem Block.inner_append (b c : Block) : Block.inner (b ++ c) = b.inner ++ c.inner := by
  induction b with
  | nil => rw [List.nil_append, Block.inner, List.nil_append]
  | cons s b ih => rw [List.cons_append, Block.inner, Block.inner, ih, List.append_assoc]

/-- The number of empty sequences in the block. -/
def Block.gaps (b : Block) : Nat := b.sequences.countP (·.isEmpty)

/-- The empty sequences of a block that is not empty are those of the bodies in it. -/
theorem Block.gaps_middle (before after : Block) (s : Stmt) :
    Block.gaps (before ++ s :: after) = before.inner.countP (·.isEmpty) +
      ((s.bodies.map Block.gaps).sum + after.inner.countP (·.isEmpty)) := by
  have full : (before ++ s :: after).isEmpty = false := by cases before <;> rfl
  rw [Block.gaps, Block.sequences, List.countP_cons_of_neg (by simp [full]), Block.inner_append,
    Block.inner_cons, List.countP_append, List.countP_append, List.countP_flatMap]
  rfl

/-! ### What a step does not change -/

/-- An exchange changes one body and leaves the others. -/
theorem Stmt.Exchanges.bodies (exchange : s.Exchanges body other t) :
    ∃ before after, s.bodies = before ++ body :: after ∧ t.bodies = before ++ other :: after := by
  cases exchange with
  | yes kind no => exact ⟨[], [no], rfl, rfl⟩
  | no kind yes => exact ⟨[yes], [], rfl, rfl⟩
  | case before after => exact ⟨before, after, rfl, rfl⟩

/-- Every alternative of a statement can be exchanged. -/
theorem Stmt.exists_exchanges (inside : body ∈ s.bodies) (other : Block) :
    ∃ t, s.Exchanges body other t := by
  cases s with
  | tau | act | invoke => cases inside
  | branch kind yes no =>
    simp only [Stmt.bodies, List.mem_cons, List.not_mem_nil, or_false] at inside
    rcases inside with rfl | rfl
    · exact ⟨_, .yes kind no⟩
    · exact ⟨_, .no kind yes⟩
  | select cases =>
    obtain ⟨before, after, rfl⟩ := List.append_of_mem (show body ∈ cases from inside)
    exact ⟨_, .case before after⟩

/-- What is left of a statement depends on what is left of its bodies. -/
theorem Stmt.Exchanges.tidy? (exchange : s.Exchanges body other t)
    (same : other.tidy defined = body.tidy defined) : t.tidy? defined = s.tidy? defined := by
  cases exchange <;>
    simp [Stmt.tidy?_eq, Stmt.vanishes, Stmt.invocation?, Stmt.isChoice, Stmt.bodies,
      Stmt.mapBodies, same]

/-- If the exchange saves an alternative from dropping some statements, it saves the whole statement
from dropping as many. -/
theorem Stmt.Exchanges.dropped {n : Nat} (exchange : s.Exchanges body other t)
    (same : other.tidy defined = body.tidy defined)
    (fewer : body.dropped defined = other.dropped defined + n) :
    s.dropped defined = t.dropped defined + n := by
  have vanish : t.vanishes defined = s.vanishes defined := by
    rw [← Stmt.isNone_tidy?, ← Stmt.isNone_tidy?, exchange.tidy? same]
  obtain ⟨before, after, first, second⟩ := exchange.bodies
  simp only [Stmt.dropped_eq, first, second, vanish, List.map_append, List.map_cons,
    List.sum_append, List.sum_cons, fewer]
  omega

namespace Block

variable {rule : Rule} {rules : List Rule} {c : Block}

/-- A step does not change what tidying leaves. -/
theorem Rewrites.tidy (step : b.Rewrites defined rule c) : c.tidy defined = b.tidy defined := by
  induction step with
  | @dangling mode i before after missing =>
    have gone : (Stmt.invoke mode i).tidy? defined = none := by
      simp [Stmt.tidy?, missing]
    rw [tidy_middle, gone, tidy_append]
    rfl
  | @vacuous s before after choice empty =>
    have gone : s.tidy? defined = none := by
      rw [Stmt.tidy?_eq, if_pos (Stmt.vanishes_of_bodies choice empty).1]
    rw [tidy_middle, gone, tidy_append]
    rfl
  | filler => rfl
  | inside before after _ exchange ih => rw [tidy_middle, tidy_middle, exchange.tidy? ih]

/-- A step that drops a statement leaves one fewer to be dropped, and a filler changes nothing
about that. -/
theorem Rewrites.dropped (step : b.Rewrites defined rule c) :
    b.dropped defined = c.dropped defined + if rule.drops then 1 else 0 := by
  induction step with
  | @dangling mode i before after missing =>
    have one : (Stmt.invoke mode i).dropped defined = 1 := by
      simp [Stmt.dropped, Stmt.tidy?, missing]
    rw [dropped_append, dropped_append, Block.dropped, one, Rule.drops, if_pos rfl]
    omega
  | @vacuous s before after choice empty =>
    have one : s.dropped defined = 1 := (Stmt.vanishes_of_bodies choice empty).2
    rw [dropped_append, dropped_append, Block.dropped, one, Rule.drops, if_pos rfl]
    omega
  | filler => rfl
  | inside before after step exchange ih =>
    have fewer := exchange.dropped step.tidy ih
    rw [dropped_append, dropped_append, Block.dropped, Block.dropped, fewer]
    omega

/-- A filler leaves one empty sequence fewer. -/
theorem Rewrites.gaps (step : b.Rewrites defined rule c) (fills : rule.drops = false) :
    b.gaps = c.gaps + 1 := by
  induction step with
  | dangling => cases fills
  | vacuous => cases fills
  | filler => rfl
  | inside before after _ exchange ih =>
    obtain ⟨left, right, first, second⟩ := exchange.bodies
    simp only [gaps_middle, first, second, List.map_append, List.map_cons, List.sum_append,
      List.sum_cons, ih fills]
    omega

/-! ### Termination -/

/-- The statements still to be dropped, and then the empty sequences. -/
def rank (defined : List Name) (b : Block) : Nat × Nat := (b.dropped defined, b.gaps)

/-- Every step lowers the rank. -/
theorem Rewrites.rank_lt (step : b.Rewrites defined rule c) :
    Prod.Lex (· < ·) (· < ·) (c.rank defined) (b.rank defined) := by
  have fewer := step.dropped
  cases drops : rule.drops with
  | true =>
    rw [drops, if_pos rfl] at fewer
    exact .left _ _ (by omega)
  | false =>
    rw [drops, if_neg Bool.false_ne_true, Nat.add_zero] at fewer
    have filled := step.gaps drops
    rw [rank, rank, fewer]
    exact .right _ (by omega)

/-- No run of steps goes on for ever. -/
theorem wellFounded_rewrites (defined : List Name) :
    WellFounded fun c b : Block => ∃ rule, b.Rewrites defined rule c := by
  have ranks : WellFounded (Prod.Lex (α := Nat) (β := Nat) (· < ·) (· < ·)) :=
    (Prod.lex Nat.lt_wfRel Nat.lt_wfRel).wf
  refine Subrelation.wf ?_ (InvImage.wf (rank defined) ranks)
  rintro c b ⟨rule, step⟩
  exact step.rank_lt

/-- Steps can be made until none is left. -/
theorem exists_isNormal (defined : List Name) (b : Block) :
    ∃ rules c, b.RewritesAll defined rules c ∧ c.IsNormal defined := by
  induction b using (wellFounded_rewrites defined).induction with
  | _ b ih =>
    by_cases normal : b.IsNormal defined
    · exact ⟨[], b, .nil b, normal⟩
    · simp only [IsNormal, not_forall, not_not] at normal
      obtain ⟨rule, c, step⟩ := normal
      obtain ⟨rules, d, steps, last⟩ := ih c ⟨rule, step⟩
      exact ⟨rule :: rules, d, .cons step steps, last⟩

/-! ### Blocks without a step -/

/-- A tidy block admits no step. -/
theorem IsTidy.isNormal (tidy : b.IsTidy defined) : b.IsNormal defined := by
  intro rule c step
  induction step with
  | dangling before after missing =>
    have here := (isTidy_iff.1 tidy).2 _ List.mem_append_cons_self
    exact missing (here.bound _ rfl)
  | vacuous before after choice empty =>
    have here := (isTidy_iff.1 tidy).2 _ List.mem_append_cons_self
    obtain ⟨body, inside, more⟩ := here.varied choice
    rw [empty body inside] at more
    cases more
  | filler => exact (isTidy_iff.1 tidy).1 rfl
  | inside before after _ exchange ih =>
    have here := (isTidy_iff.1 tidy).2 _ List.mem_append_cons_self
    obtain ⟨left, right, first, -⟩ := exchange.bodies
    refine ih (here.bodies _ ?_)
    rw [first]
    exact List.mem_append_cons_self

/-- A block that admits no step is tidy once its bodies are as far as they admit none. -/
theorem isTidy_of_isNormal_of_bodies (normal : b.IsNormal defined)
    (bodies : ∀ s ∈ b, ∀ body ∈ s.bodies, body.IsNormal defined → body.IsTidy defined) :
    b.IsTidy defined := by
  refine isTidy_iff.2 ⟨fun empty => ?full, fun s inside => ?_⟩
  case full =>
    subst empty
    exact normal _ _ .filler
  obtain ⟨before, after, rfl⟩ := List.append_of_mem inside
  refine ⟨fun i found => ?bound, fun choice => ?varied, fun body within => ?bodies⟩
  case bound =>
    by_contra missing
    cases s <;> cases found
    exact normal _ _ (.dangling before after missing)
  case varied =>
    by_contra same
    refine normal _ _ (.vacuous before after choice fun body within => ?_)
    by_contra more
    exact same ⟨body, within, Bool.eq_false_iff.2 fun lone => more (isTau_iff.1 lone)⟩
  case bodies =>
    refine bodies s inside body within fun rule other step => ?_
    obtain ⟨t, exchange⟩ := Stmt.exists_exchanges within other
    exact normal _ _ (.inside before after step exchange)

/-- A block that admits no step is tidy. -/
theorem isTidy_of_isNormal (normal : b.IsNormal defined) : b.IsTidy defined := by
  refine isTidy_of_isNormal_of_bodies normal ?_
  -- The tail of a normal block may be empty and so not normal: only the bodies carry the induction.
  clear normal
  induction b using Block.induction with
  | nil => exact fun s inside => absurd inside List.not_mem_nil
  | cons s b bodies rest =>
    intro t inside body within normal
    rcases List.mem_cons.1 inside with rfl | later
    · exact isTidy_of_isNormal_of_bodies normal (bodies body within)
    · exact rest t later body within normal

/-- Nothing is dropped from a tidy block. -/
theorem IsTidy.dropped (tidy : b.IsTidy defined) : b.dropped defined = 0 := by
  have all := (isTidy_iff.1 tidy).2
  clear tidy
  induction b using Block.induction with
  | nil => rfl
  | cons s b bodies rest =>
    have head := all s List.mem_cons_self
    have stays : s.vanishes defined = false :=
      Bool.eq_false_iff.2 <| head.not_vanishes fun body within =>
        tidy_eq_self (head.bodies body within)
    have nothing : s.dropped defined = 0 := by
      rw [Stmt.dropped_of_bodies, stays, if_neg Bool.false_ne_true]
      exact fun body within => bodies body within (isTidy_iff.1 (head.bodies body within)).2
    rw [Block.dropped, nothing, rest fun t later => all t (List.mem_cons_of_mem s later)]

/-! ### Steps in any order -/

/-- Steps leave the result of tidying alone, and tidying drops what they drop and what it drops from
the block that they lead to. -/
theorem RewritesAll.tidy (steps : b.RewritesAll defined rules c) :
    c.tidy defined = b.tidy defined ∧
      b.dropped defined = c.dropped defined + rules.countP Rule.drops := by
  induction steps with
  | nil b => exact ⟨rfl, rfl⟩
  | @cons rule rules b c d step _ ih =>
    refine ⟨ih.1.trans step.tidy, ?_⟩
    rw [step.dropped, ih.2, List.countP_cons]
    omega

/-- Steps that leave nothing to be done lead to the tidied block, by as many drops as tidying
counts. -/
theorem RewritesAll.eq_tidy (steps : b.RewritesAll defined rules c)
    (normal : c.IsNormal defined) :
    c = b.tidy defined ∧ rules.countP Rule.drops = b.dropped defined := by
  have tidy := isTidy_of_isNormal normal
  obtain ⟨same, counted⟩ := steps.tidy
  rw [tidy_eq_self tidy] at same
  rw [tidy.dropped, Nat.zero_add] at counted
  exact ⟨same, counted.symm⟩

/-- **One scan reaches the unique normal form.** From no block do steps go on for ever. The tidied
block is reached by steps and admits none, and whatever steps lead to a block that admits none, in
whatever order they are made, that block is the tidied one, and the steps that drop a statement are
as many as tidying counts. -/
theorem rewrites_tidy (defined : List Name) (b : Block) :
    (¬ ∃ run : Nat → Block, run 0 = b ∧
        ∀ k, ∃ rule, (run k).Rewrites defined rule (run (k + 1))) ∧
      (∃ rules, b.RewritesAll defined rules (b.tidy defined)) ∧
      (b.tidy defined).IsNormal defined ∧
      ∀ rules c, b.RewritesAll defined rules c → c.IsNormal defined →
        c = b.tidy defined ∧ rules.countP Rule.drops = b.dropped defined := by
  refine ⟨fun ⟨run, _, steps⟩ => ?_, ?_, (isTidy_tidy defined b).isNormal,
    fun rules c steps normal => steps.eq_tidy normal⟩
  · have chains := wellFounded_iff_isEmpty_descending_chain.1 (wellFounded_rewrites defined)
    exact chains.false ⟨run, steps⟩
  · obtain ⟨rules, c, steps, normal⟩ := exists_isNormal defined b
    obtain ⟨rfl, -⟩ := steps.eq_tidy normal
    exact ⟨rules, steps⟩

/-- A choice that becomes empty, a selection without alternatives and an invocation that stays. -/
def vanishingAndKept : Block :=
  [.branch .condition [.invoke .call ⟨"gone", []⟩] [], .select [], .invoke .spawn ⟨"kept", []⟩]

/-- The selection goes first, then the branch is worked off from right to left. -/
theorem rewrites_tidy_right_to_left :
    vanishingAndKept.RewritesAll ["kept"] [.vacuous, .filler, .dangling, .filler, .vacuous]
        [.invoke .spawn ⟨"kept", []⟩] ∧
      IsNormal ["kept"] [.invoke .spawn ⟨"kept", []⟩] ∧
      [.invoke .spawn ⟨"kept", []⟩] = vanishingAndKept.tidy ["kept"] ∧
      3 = vanishingAndKept.dropped ["kept"] := by
  have selection : vanishingAndKept.Rewrites ["kept"] .vacuous
      [.branch .condition [.invoke .call ⟨"gone", []⟩] [], .invoke .spawn ⟨"kept", []⟩] :=
    .vacuous [_] [_] rfl (List.forall_mem_nil _)
  have right : Rewrites ["kept"] .filler
      [.branch .condition [.invoke .call ⟨"gone", []⟩] [], .invoke .spawn ⟨"kept", []⟩]
      [.branch .condition [.invoke .call ⟨"gone", []⟩] [.tau], .invoke .spawn ⟨"kept", []⟩] :=
    .inside [] [_] .filler (.no .condition _)
  have call : Rewrites ["kept"] .dangling
      [.branch .condition [.invoke .call ⟨"gone", []⟩] [.tau], .invoke .spawn ⟨"kept", []⟩]
      [.branch .condition [] [.tau], .invoke .spawn ⟨"kept", []⟩] :=
    .inside [] [_] (.dangling [] [] (by decide)) (.yes .condition _)
  have left : Rewrites ["kept"] .filler
      [.branch .condition [] [.tau], .invoke .spawn ⟨"kept", []⟩]
      [.branch .condition [.tau] [.tau], .invoke .spawn ⟨"kept", []⟩] :=
    .inside [] [_] .filler (.yes .condition _)
  have branch : Rewrites ["kept"] .vacuous
      [.branch .condition [.tau] [.tau], .invoke .spawn ⟨"kept", []⟩]
      [.invoke .spawn ⟨"kept", []⟩] :=
    .vacuous [] [_] rfl (by decide)
  have steps := RewritesAll.cons selection (.cons right (.cons call (.cons left
    (.cons branch (.nil _)))))
  have normal : IsNormal ["kept"] [.invoke .spawn ⟨"kept", []⟩] :=
    IsTidy.isNormal ⟨by decide, by decide, by decide⟩
  obtain ⟨last, counted⟩ := (rewrites_tidy ["kept"] vanishingAndKept).2.2.2 _ _ steps normal
  exact ⟨steps, normal, last, counted⟩

end Block

end BehaviouralTypes
