import BehaviouralTypes.Proofs.Erasing
import BehaviouralTypes.Proofs.Outcome

/-!
# What a program shows is preserved

Every pass shortens the program, and a shortened program follows the runs of the other. So no
sequence of passes loses anything that can be noticed from the entry, and the simplification as a
whole does not either. An entry that a pass removes had nothing to show.
-/

namespace BehaviouralTypes

namespace Program

variable {p q : Program} {entry : Name} {trace : List Stmt}

/-- Whether the program shows these actions from the entry; without a definition of the entry there
must be none. -/
def Shows (p : Program) (entry : Name) (trace : List Stmt) : Prop :=
  (p.defines entry = true → p.IsTrace entry trace) ∧ (p.defines entry = false → trace = [])

/-- An entry with a trace is defined. -/
theorem IsTrace.defines (shown : p.IsTrace entry trace) : p.defines entry = true := by
  obtain ⟨f, found, -⟩ := shown
  exact defines_iff.2 (mem_names_iff_find?.2 ⟨f, found⟩)

/-- What is a trace from the entry is shown from it. -/
theorem IsTrace.shows (shown : p.IsTrace entry trace) : p.Shows entry trace := by
  refine ⟨fun _ => shown, fun missing => ?_⟩
  rw [shown.defines] at missing
  cases missing

/-- Without a definition there is none to look up. -/
theorem defines_eq_false_iff : p.defines entry = false ↔ p.find? entry = none := by
  rw [← Bool.not_eq_true, defines_iff, find?_eq_none_iff]

/-- What a program shows from a known entry is shown by the shortened one. -/
theorem Shortens.shows {idle : Stmt → Prop} {known : Name → Prop}
    (short : Shortens idle known p q) (here : known entry) (shows : p.Shows entry trace) :
    q.Shows entry trace := by
  cases found : p.find? entry with
  | none =>
    have empty := shows.2 (defines_eq_false_iff.2 found)
    refine ⟨fun defined => ?_, fun _ => empty⟩
    rw [defines_eq_false_iff.2 (short.lost entry found)] at defined
    cases defined
  | some f =>
    have defined := defines_iff.2 (mem_names_iff_find?.2 ⟨f, found⟩)
    obtain ⟨f', same, threads, run⟩ := shows.1 defined
    rw [found] at same
    cases same
    cases still : q.find? entry with
    | none =>
      have calm := short.gone entry f here found still
      have empty := short.trace_eq_nil (.single calm) run
      refine ⟨fun left => ?_, fun _ => empty⟩
      rw [defines_eq_false_iff.2 still] at left
      cases left
    | some g =>
      have start : Threads.Shorten idle known {f.body} {g.body} :=
        .single (short.kept entry f g here found still)
      obtain ⟨threads', run', -⟩ := short.follow_run start run
      exact IsTrace.shows ⟨g, still, threads', run'⟩

/-- Passes in any order preserve what is shown from the entry. -/
theorem Shows.runAll (passes : List Pass) (shows : p.Shows entry trace) :
    (Pass.runAll (some entry) p passes).program.Shows entry trace := by
  have each : ∀ p : Program, p.Each fun _ => True := fun _ _ _ _ _ => trivial
  induction passes generalizing p with
  | nil => exact shows
  | cons pass rest ih =>
    obtain ⟨noisy, known, here, short⟩ := pass.shortens entry (each p)
    have next := short.shows here shows
    rw [Pass.runAll]
    split
    · exact next
    · exact ih next

/-- **Nothing noticeable is lost.** What a program shows from its entry is shown after any sequence
of passes, and after the simplification, as long as the entry is still defined. If it is not, there
was nothing to show. -/
theorem shows_of_isTrace (p : Program) (entry : Name) (trace : List Stmt)
    (shown : p.IsTrace entry trace) :
    (∀ passes : List Pass, (Pass.runAll (some entry) p passes).program.Shows entry trace) ∧
      ∀ prefs : Preferences, prefs.entry = entry →
        ∃ q, (p.simplify prefs).result = .ok q ∧ q.Shows entry trace := by
  refine ⟨fun passes => shown.shows.runAll passes, ?_⟩
  rintro prefs rfl
  have start : prefs.entryIn p = some prefs.entry := if_pos shown.defines
  have shows := shown.shows.runAll (p.schedule prefs)
  rw [← start, (runAll_schedule prefs p).1] at shows
  exact ⟨p.simplified prefs, result_simplify prefs p, shows⟩

/-- A program that starts a thread without effect and sends on a channel. -/
def withIdleThread : Program :=
  ⟨[⟨"main", [], [.invoke .spawn ⟨"idle", []⟩, .act (.perform .send "signal")]⟩,
    ⟨"idle", [], [.invoke .call ⟨"idle", []⟩]⟩], by decide⟩

/-- The thread without effect goes, and the entry sends as before. -/
theorem shows_of_isTrace_idle_thread :
    withIdleThread.IsTrace "main" [.act (.perform .send "signal")] ∧
      ∃ q, (withIdleThread.simplify { entry := "main" }).result = .ok q ∧
        q.IsTrace "main" [.act (.perform .send "signal")] := by
  have shown : withIdleThread.IsTrace "main" [.act (.perform .send "signal")] := by
    exact ⟨_, rfl, _, .step (.thread (.spawn rfl)) (.step (.thread (.act rfl)) (.stop _))⟩
  obtain ⟨q, simplified, shows⟩ :=
    (shows_of_isTrace withIdleThread "main" _ shown).2 { entry := "main" } rfl
  refine ⟨shown, q, simplified, ?_⟩
  cases defined : q.defines "main" with
  | true => exact shows.1 defined
  | false => cases shows.2 defined

end Program

end BehaviouralTypes
