import BehaviouralTypes.Proofs.Silence
import Mathlib.Data.List.Infix
import Mathlib.Logic.Function.Iterate

/-!
# The rounds of the exclusion

A plain round examines every function in order and looks at all exclusions made so far, those of the
same round included (`Program.round`). The search looks at the latest exclusions only and passes
over the functions that are out, and still it goes through the same candidates round by round
(`Candidates.Standing.names_rounds`). Every round but the last excludes somebody and nobody comes
back, so there is at most one round more than there are functions that are not silent
(`Program.silenceRounds_le`). Functions that each call the next one attain the bound
(`Program.silenceRounds_ladder`). `Program.silenceRounds_tight` has all of this.
-/

namespace BehaviouralTypes

/-- Whether a body is silent is a matter of its targets. -/
theorem Block.isSilent_congr {loud heard : List Name} {b : Block}
    (same : ∀ n ∈ b.targets, n ∈ loud ↔ n ∈ heard) : b.isSilent loud = b.isSilent heard := by
  rw [Bool.eq_iff_iff, Block.isSilent_iff, Block.isSilent_iff]
  refine and_congr_right fun _ => forall₂_congr fun n target => ?_
  rw [same n target]

/-! ### Plain rounds -/

namespace Program

/-- The defined names that are no candidates. -/
def excluded (p : Program) (quiet : List Name) : List Name := p.names.filter (· ∉ quiet)

/-- The candidates after one function has been examined: its name is struck out unless all that it
does is to invoke candidates and names without a definition. For a function that is no candidate
this changes nothing. -/
def examine (p : Program) (quiet : List Name) (f : Func) : List Name :=
  if f.body.isSilent (p.excluded quiet) then quiet else quiet.filter (· ≠ f.name)

/-- The candidates after every function has been examined in order. -/
def round (p : Program) (quiet : List Name) : List Name := p.functions.foldl p.examine quiet

variable {p : Program} {quiet : List Name} {n : Name}

/-- The excluded names are the defined ones that are not quiet. -/
theorem mem_excluded : n ∈ p.excluded quiet ↔ n ∈ p.names ∧ n ∉ quiet := by
  rw [excluded, List.mem_filter, decide_eq_true_eq]

/-- Examining a function only strikes out names. -/
theorem examine_sublist (p : Program) (quiet : List Name) (f : Func) :
    (p.examine quiet f).Sublist quiet := by
  unfold examine
  split
  · exact List.Sublist.refl quiet
  · exact List.filter_sublist

/-- A round only strikes out names. -/
theorem round_sublist (p : Program) (quiet : List Name) : (p.round quiet).Sublist quiet := by
  unfold round
  induction p.functions generalizing quiet with
  | nil => exact List.Sublist.refl quiet
  | cons f rest ih => exact (ih (p.examine quiet f)).trans (examine_sublist p quiet f)

end Program

namespace Candidates

variable {p : Program} {c : Candidates} {loud heard quiet : List Name} {functions : List Func}

/-! ### One round of the search -/

/-- A round is a matter of the names that the examined functions invoke. -/
theorem sweep_congr (same : ∀ f ∈ functions, ∀ n ∈ f.body.targets, n ∈ loud ↔ n ∈ heard) :
    sweep loud functions = sweep heard functions := by
  induction functions generalizing loud heard with
  | nil => rfl
  | cons f rest ih =>
    obtain ⟨here, later⟩ := List.forall_mem_cons.1 same
    have verdict : f.body.isSilent loud = f.body.isSilent heard := Block.isSilent_congr here
    have struck : sweep (f.name :: loud) rest = sweep (f.name :: heard) rest := by
      refine ih fun g inside n target => ?_
      rw [List.mem_cons, List.mem_cons, later g inside n target]
    rw [sweep, sweep, verdict, struck, ih later]

/-- Whoever is excluded was examined. -/
theorem loud_sweep_sublist (loud : List Name) (functions : List Func) :
    (sweep loud functions).loud.Sublist (functions.map (·.name)) := by
  fun_induction sweep loud functions with
  | case1 loud => exact List.Sublist.refl _
  | case2 loud f rest silent after ih => exact ih.cons f.name
  | case3 loud f rest noisy after ih => exact ih.cons_cons f.name

/-- Among functions with different names, those remain that are not excluded. -/
theorem quiet_sweep (distinct : (functions.map (·.name)).Nodup) : (sweep loud functions).quiet =
    functions.filter (·.name ∉ (sweep loud functions).loud) := by
  fun_induction sweep loud functions with
  | case1 loud => rfl
  | case2 loud f rest silent after ih =>
    obtain ⟨fresh, distinct⟩ := List.nodup_cons.1 distinct
    have stays : f.name ∉ after.loud := fun out => fresh ((loud_sweep_sublist loud rest).subset out)
    rw [List.filter_cons_of_pos (by simpa using stays), ← ih distinct]
  | case3 loud f rest noisy after ih =>
    obtain ⟨fresh, distinct⟩ := List.nodup_cons.1 distinct
    rw [List.filter_cons_of_neg (by simp)]
    refine (ih distinct).trans (List.filter_congr fun g inside => ?_)
    have other : g.name ≠ f.name := fun same => fresh (List.mem_map.2 ⟨g, inside, same⟩)
    simp only [List.mem_cons, other, false_or]
    rfl

/-- Examining functions in order strikes out what a round of the search over the candidates among
them excludes. -/
theorem foldl_examine (distinct : (functions.map (·.name)).Nodup)
    (known : ∀ f ∈ functions, f.name ∈ p.names) : functions.foldl p.examine quiet =
      quiet.filter (· ∉ (sweep (p.excluded quiet) (functions.filter (·.name ∈ quiet))).loud) := by
  induction functions generalizing quiet with
  | nil => exact (List.filter_eq_self.2 fun n _ => rfl).symm
  | cons f rest ih =>
    obtain ⟨fresh, distinct⟩ := List.nodup_cons.1 distinct
    obtain ⟨defined, known⟩ := List.forall_mem_cons.1 known
    rw [List.foldl_cons, ih distinct known]
    by_cases candidate : f.name ∈ quiet
    · have among : (f :: rest).filter (·.name ∈ quiet) = f :: rest.filter (·.name ∈ quiet) :=
        List.filter_cons_of_pos (decide_eq_true candidate)
      rw [among, sweep, Program.examine]
      split
      · rfl
      · have others : rest.filter (·.name ∈ quiet.filter (· ≠ f.name)) =
            rest.filter (·.name ∈ quiet) := by
          refine List.filter_congr fun g inside => ?_
          have other : g.name ≠ f.name := fun same => fresh (List.mem_map.2 ⟨g, inside, same⟩)
          simp [other]
        have heard : sweep (p.excluded (quiet.filter (· ≠ f.name))) (rest.filter (·.name ∈ quiet)) =
            sweep (f.name :: p.excluded quiet) (rest.filter (·.name ∈ quiet)) := by
          refine sweep_congr fun g _ n _ => ?_
          rw [Program.mem_excluded, List.mem_cons, Program.mem_excluded, List.mem_filter,
            decide_eq_true_eq]
          by_cases same : n = f.name
          · simp [same, defined]
          · simp [same]
        rw [others, heard, List.filter_filter]
        refine List.filter_congr fun n _ => ?_
        simp [not_or, Bool.and_comm]
    · have untouched : p.examine quiet f = quiet := by
        unfold Program.examine
        split
        · rfl
        · refine List.filter_eq_self.2 fun n inside => decide_eq_true ?_
          rintro rfl
          exact candidate inside
      have among : (f :: rest).filter (·.name ∈ quiet) = rest.filter (·.name ∈ quiet) :=
        List.filter_cons_of_neg (by simpa using candidate)
      rw [among, untouched]

/-! ### The search goes through plain rounds -/

/-- The names of the remaining functions. -/
def names (c : Candidates) : List Name := c.quiet.map (·.name)

/-- What the search keeps from round to round besides the bounds of `Sound`. -/
structure Standing (p : Program) (c : Candidates) : Prop extends Sound p c where
  /-- The remaining functions are those of their names, in the order of the program. -/
  ordered : p.functions.filter (·.name ∈ c.names) = c.quiet
  /-- Nobody who was excluded of late remains. -/
  apart : ∀ n ∈ c.loud, n ∉ c.names

/-- The first candidates are standing. -/
theorem standing_candidates (p : Program) : Standing p p.candidates where
  toSound := sound_candidates p
  ordered := List.filter_eq_self.2 fun _ inside => decide_eq_true (Program.name_mem_names inside)
  apart _ excluded := absurd excluded List.not_mem_nil

/-- Standing candidates have different names. -/
theorem Standing.distinct (standing : Standing p c) : c.names.Nodup := by
  rw [names, ← standing.ordered]
  exact p.nodup.sublist (List.filter_sublist.map _)

/-- A round leaves the names that it does not exclude. -/
theorem Standing.names_next (standing : Standing p c) :
    c.next.names = c.names.filter (· ∉ c.next.loud) := by
  have remaining : c.next.quiet = c.quiet.filter (·.name ∉ c.next.loud) :=
    quiet_sweep standing.distinct
  rw [names, remaining, names, List.filter_map]
  rfl

/-- A round leaves standing candidates. -/
theorem Standing.next (standing : Standing p c) : Standing p c.next where
  toSound := standing.toSound.next
  ordered := by
    have remaining : c.next.quiet = c.quiet.filter (·.name ∉ c.next.loud) :=
      quiet_sweep standing.distinct
    rw [remaining, ← standing.ordered, List.filter_filter, standing.names_next]
    refine List.filter_congr fun f _ => ?_
    simp [Bool.and_comm]
  apart n excluded := by
    rw [standing.names_next, List.mem_filter, decide_eq_true_eq]
    exact fun remains => remains.2 excluded

/-- A plain round over the remaining names leaves those that a round of the search leaves. Whatever
a remaining function invokes remains or was excluded of late, so the earlier exclusions that the
search does not look at make no difference. -/
theorem Standing.round_names (standing : Standing p c) : p.round c.names = c.next.names := by
  have known : ∀ f ∈ p.functions, f.name ∈ p.names := fun f inside => Program.name_mem_names inside
  have heard : sweep (p.excluded c.names) c.quiet = c.next := by
    refine sweep_congr fun f remains n target => ?_
    rw [Program.mem_excluded]
    constructor
    · rintro ⟨defined, out⟩
      obtain ⟨g, inside, rfl⟩ := Program.mem_names.1 defined
      rcases standing.closed f remains g inside target with stays | late
      · exact absurd (List.mem_map_of_mem stays) out
      · exact late
    · exact fun late => ⟨(standing.live n late).defined, standing.apart n late⟩
  rw [Program.round, foldl_examine p.nodup known, standing.ordered, heard, standing.names_next]

/-! ### All rounds -/

/-- After each round of the search there remains what as many plain rounds leave. -/
theorem Standing.names_rounds (standing : Standing p c) : c.rounds.map names =
    (List.range c.rounds.length).map fun i => p.round^[i + 1] c.names := by
  fun_induction rounds c with
  | case1 c after fewer ih =>
    rw [List.map_cons, ih standing.next, List.length_cons, List.range_succ_eq_map, List.map_cons,
      List.map_map, Function.iterate_one, standing.round_names]
    refine congrArg _ (List.map_congr_left fun i _ => ?_)
    rw [Function.comp_apply, Function.iterate_succ_apply p.round (i + 1), standing.round_names]
  | case2 c after same => exact congrArg ([·]) standing.round_names.symm

/-- Every round before the last strikes out a name. -/
theorem Standing.exists_mem_iterate (standing : Standing p c) {i : Nat}
    (before : i + 1 < c.rounds.length) :
    ∃ n ∈ p.round^[i] c.names, n ∉ p.round^[i + 1] c.names := by
  fun_induction rounds c generalizing i with
  | case1 c after fewer ih =>
    cases i with
    | zero =>
      have shorter : (c.names.filter (· ∉ c.next.loud)).length < c.names.length := by
        rw [← standing.names_next, names, names, List.length_map, List.length_map]
        exact fewer
      obtain ⟨n, inside, struck⟩ := List.length_filter_lt_length_iff_exists.1 shorter
      refine ⟨n, inside, ?_⟩
      rw [Function.iterate_one, standing.round_names, standing.names_next, List.mem_filter]
      exact fun left => struck left.2
    | succ i =>
      rw [Function.iterate_succ_apply p.round (i + 1),
        Function.iterate_succ_apply p.round i c.names, standing.round_names]
      exact ih standing.next (Nat.lt_of_succ_lt_succ before)
  | case2 c after same =>
    rw [List.length_singleton] at before
    omega

/-- If a round leaves as many functions as there were, it leaves the same. -/
theorem names_next_of_not_lt (same : ¬ c.next.quiet.length < c.quiet.length) :
    c.next.names = c.names := by
  have part : c.next.quiet.Sublist c.quiet := sweep_sublist c.loud c.quiet
  rw [names, names, part.eq_of_length_le (Nat.not_lt.1 same)]

/-- The search settles on standing candidates. -/
theorem Standing.settled (standing : Standing p c) : Standing p c.settled := by
  fun_induction rounds c with
  | case1 c after fewer ih =>
    rw [settled_eq, if_pos fewer]
    exact ih standing.next
  | case2 c after same =>
    rw [settled_eq, if_neg same]
    exact standing.next

/-- A further round leaves the outcome of the search alone. -/
theorem Standing.round_settled (standing : Standing p c) :
    p.round c.settled.names = c.settled.names := by
  fun_induction rounds c with
  | case1 c after fewer ih =>
    rw [settled_eq, if_pos fewer]
    exact ih standing.next
  | case2 c after same =>
    rw [settled_eq, if_neg same, names_next_of_not_lt same, standing.round_names]
    exact names_next_of_not_lt same

/-- The rounds before the last lead to the outcome. -/
theorem Standing.exists_iterate (standing : Standing p c) :
    ∃ last, c.rounds.length = last + 1 ∧ p.round^[last] c.names = c.settled.names := by
  fun_induction rounds c with
  | case1 c after fewer ih =>
    obtain ⟨last, count, outcome⟩ := ih standing.next
    refine ⟨last + 1, congrArg (· + 1) count, ?_⟩
    rw [Function.iterate_succ_apply, standing.round_names, settled_eq, if_pos fewer]
    exact outcome
  | case2 c after same =>
    refine ⟨0, rfl, ?_⟩
    rw [settled_eq, if_neg same, names_next_of_not_lt same]
    rfl

/-- Each round but the last takes a function away from those that remain in the end. -/
theorem length_rounds_le (c : Candidates) :
    c.rounds.length + c.settled.quiet.length ≤ c.quiet.length + 1 := by
  fun_induction rounds c with
  | case1 c after fewer ih =>
    rw [settled_eq, if_pos fewer, List.length_cons]
    have bound : after.rounds.length + c.next.settled.quiet.length ≤ after.quiet.length + 1 := ih
    omega
  | case2 c after same =>
    rw [settled_eq, if_neg same]
    have part : c.next.quiet.length ≤ c.quiet.length := (sweep_sublist c.loud c.quiet).length_le
    simp only [List.length_singleton]
    omega

end Candidates

namespace Program

variable {p : Program} {quiet : List Name}

/-- Each of the plain rounds only strikes out names. -/
theorem iterate_round_sublist (p : Program) (quiet : List Name) (i : Nat) :
    (p.round^[i + 1] quiet).Sublist (p.round^[i] quiet) := by
  rw [Function.iterate_succ_apply']
  exact round_sublist p _

/-- The functions are the silent ones and the others. -/
theorem length_functions_eq (p : Program) : p.functions.length =
    p.candidates.settled.quiet.length + (p.functions.filter (·.name ∉ p.silent)).length := by
  have quiet : p.functions.filter (·.name ∈ p.silent) = p.candidates.settled.quiet :=
    (Candidates.standing_candidates p).settled.ordered
  rw [← quiet, List.length_eq_length_filter_add (·.name ∈ p.silent)]
  simp only [decide_not]

/-! ### Ladders -/

/-- The name of a rung. -/
def rungName (i : Nat) : Name := String.ofList (List.replicate (i + 1) 'r')

/-- Different rungs have different names. -/
theorem rungName_injective : Function.Injective rungName := by
  intro i j same
  have lengths := congrArg List.length (String.ofList_injective same)
  rw [List.length_replicate, List.length_replicate] at lengths
  exact Nat.succ.inj lengths

/-- A rung calls the one below it, and the lowest one acts. -/
def rung : Nat → Func
  | 0 => ⟨rungName 0, [], [.act (.perform .send "ground")]⟩
  | i + 1 => ⟨rungName (i + 1), [], [.invoke .call ⟨rungName i, []⟩]⟩

/-- A rung has the name of its number. -/
theorem name_rung (i : Nat) : (rung i).name = rungName i := by
  cases i <;> rfl

/-- That many rungs from the given one upwards, the highest first. -/
def rungs (first count : Nat) : List Func := (List.range' first count).reverse.map rung

/-- One more rung is above the others. -/
theorem rungs_succ (first count : Nat) :
    rungs first (count + 1) = rung (first + count) :: rungs first count := by
  rw [rungs, List.range'_concat, List.reverse_concat, List.map_cons, Nat.one_mul]
  rfl

/-- A program in which the search learns of one exclusion in a round. -/
def ladder (height : Nat) : Program where
  functions := rungs 0 height
  nodup := by
    have named : (fun f : Func => f.name) ∘ rung = rungName := funext name_rung
    rw [rungs, List.map_map, named]
    exact (List.nodup_reverse.2 List.nodup_range').map rungName_injective

/-- A round over rungs excludes the lowest one if it alone is not silent at its beginning. -/
theorem sweep_rungs {loud : List Name} {first : Nat}
    (noisy : (rung first).body.isSilent loud = false)
    (calm : ∀ i, first < i → (rung i).body.isSilent loud = true) (count : Nat) :
    Candidates.sweep loud (rungs first (count + 1)) =
      ⟨[rungName first], rungs (first + 1) count⟩ := by
  induction count with
  | zero =>
    have lowest : rungs first (0 + 1) = [rung first] := rfl
    rw [lowest, Candidates.sweep, noisy, ← name_rung]
    rfl
  | succ count ih =>
    have higher := calm (first + (count + 1)) (by omega)
    have shifted : first + (count + 1) = first + 1 + count := by omega
    rw [rungs_succ, Candidates.sweep, higher, ih, rungs_succ (first + 1), shifted]
    rfl

/-- If the lowest rung alone is not silent at the beginning, the search needs a round for every rung
and one more. -/
theorem length_rounds_rungs {loud : List Name} {first : Nat}
    (noisy : (rung first).body.isSilent loud = false)
    (calm : ∀ i, first < i → (rung i).body.isSilent loud = true) (count : Nat) :
    (Candidates.mk loud (rungs first count)).rounds.length = count + 1 := by
  induction count generalizing loud first with
  | zero =>
    rw [Candidates.rounds]
    rfl
  | succ count ih =>
    have next : (Candidates.mk loud (rungs first (count + 1))).next =
        ⟨[rungName first], rungs (first + 1) count⟩ := sweep_rungs noisy calm count
    have fewer : (rungs (first + 1) count).length < (rungs first (count + 1)).length := by
      simp [rungs]
    have above : (rung (first + 1)).body.isSilent [rungName first] = false := by
      simp [rung, Stmt.isSilent]
    have further : ∀ i, first + 1 < i → (rung i).body.isSilent [rungName first] = true := by
      intro i higher
      obtain ⟨j, rfl⟩ := Nat.exists_eq_add_of_lt higher
      have other : rungName (first + 1 + j) ≠ rungName first :=
        rungName_injective.ne (by omega)
      simp [rung, Stmt.isSilent, other]
    rw [Candidates.rounds, next, if_pos fewer, List.length_cons, ih above further]

/-- The search needs a round for every rung and one more. -/
theorem silenceRounds_ladder (height : Nat) : (ladder height).silenceRounds = height + 1 := by
  refine length_rounds_rungs (by decide) (fun i higher => ?_) height
  obtain ⟨j, rfl⟩ := Nat.exists_eq_add_of_lt higher
  simp [rung, Stmt.isSilent]

/-! ### The bound -/

/-- The search takes at most one round more than there are functions that are not silent. -/
theorem silenceRounds_le (p : Program) :
    p.silenceRounds ≤ (p.functions.filter (·.name ∉ p.silent)).length + 1 := by
  have counted := p.candidates.length_rounds_le
  have parts := p.length_functions_eq
  simp only [candidates] at counted parts
  rw [silenceRounds, candidates]
  omega

/-- Every rung leads to the action at the bottom. -/
theorem length_loud_ladder (height : Nat) :
    ((ladder height).functions.filter (·.name ∉ (ladder height).silent)).length = height := by
  have rounds := silenceRounds_le (ladder height)
  have parts : (ladder height).functions.length = height := by simp [ladder, rungs]
  have part := List.length_filter_le (fun f : Func => f.name ∉ (ladder height).silent)
    (ladder height).functions
  rw [silenceRounds_ladder] at rounds
  omega

/-- **The search is short.** It takes at most one round more than there are functions that are not
silent, and sometimes as many. After each of its rounds there remain the names that as many plain
rounds leave. Every round but the last strikes out a name and no round brings one back, and the last
round and any further one leave the silent functions as they are. -/
theorem silenceRounds_tight :
    (∀ p : Program,
      p.silenceRounds ≤ (p.functions.filter (·.name ∉ p.silent)).length + 1 ∧
      p.candidates.rounds.map Candidates.names =
        (List.range p.silenceRounds).map (fun i => p.round^[i + 1] p.names) ∧
      (∀ i, i + 1 < p.silenceRounds → ∃ n ∈ p.round^[i] p.names, n ∉ p.round^[i + 1] p.names) ∧
      (∀ i, (p.round^[i + 1] p.names).Sublist (p.round^[i] p.names)) ∧
      (∃ last, p.silenceRounds = last + 1 ∧ p.round^[last] p.names = p.silent) ∧
      p.round p.silent = p.silent) ∧
    ∀ k, ∃ p : Program, (p.functions.filter (·.name ∉ p.silent)).length = k ∧
      p.silenceRounds = k + 1 := by
  refine ⟨fun p => ?_, fun k => ⟨ladder k, length_loud_ladder k, silenceRounds_ladder k⟩⟩
  have standing := Candidates.standing_candidates p
  exact ⟨silenceRounds_le p, standing.names_rounds, fun i => standing.exists_mem_iterate,
    iterate_round_sublist p p.names, standing.exists_iterate, standing.round_settled⟩

end Program

end BehaviouralTypes
