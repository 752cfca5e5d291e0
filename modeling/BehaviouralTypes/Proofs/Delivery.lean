import BehaviouralTypes.CommandLine.Directory
import BehaviouralTypes.Proofs.Arguments
import BehaviouralTypes.Proofs.Outcome

/-!
# All or nothing

The options of a run are those that its list of arguments asks for
(`Options.meets_of_ofArguments?`). A run in a directory then depends on three things: an input that
is text, a program that the text describes, and a place where the result can be written. If it has
them it delivers the result to exactly one place (`Options.runIn_of_feasible`), since a
simplification never fails; if it lacks one it leaves the standard output empty and every file alone
(`Options.runIn_of_not_feasible`). What is delivered depends on the input text and the options only,
and not on where the text comes from or where the result goes (`Options.runIn_all_or_nothing`).
-/

namespace BehaviouralTypes

/-! ### Files -/

namespace Directory

variable {d after : Directory} {path text : String} {name other : String} {contents : ByteArray}

/-- Whether any text can be written to the path. -/
def IsWritable (d : Directory) (path : String) : Prop :=
  ∀ text, ∃ after, d.write path text = .ok after

/-- A file that was put somewhere is found there. -/
theorem lookup_put (name : String) (contents : ByteArray) (files : List (String × ByteArray)) :
    (put name contents files).lookup name = some contents := by
  induction files with
  | nil => simp [put]
  | cons file files ih =>
    obtain ⟨known, old⟩ := file
    unfold put
    split
    · simp
    · next different =>
      rw [List.lookup_cons, beq_false_of_ne (Ne.symm different)]
      exact ih

/-- Putting a file somewhere leaves the others as they are. -/
theorem lookup_put_of_ne (different : other ≠ name) (contents : ByteArray)
    (files : List (String × ByteArray)) :
    (put name contents files).lookup other = files.lookup other := by
  induction files with
  | nil => simp [put, List.lookup_cons, beq_false_of_ne different]
  | cons file files ih =>
    obtain ⟨known, old⟩ := file
    unfold put
    split
    · next same => simp [List.lookup_cons, same, beq_false_of_ne different]
    · rw [List.lookup_cons, List.lookup_cons, ih]

/-- Writing puts the text under the name that the path leads to and leaves the other files alone. -/
theorem write_eq_ok (written : d.write path text = .ok after) :
    ∃ name, d.locate path = .entry name ∧ after.find? name = some text.toUTF8 ∧
      ∀ other, other ≠ name → after.find? other = d.find? other := by
  unfold write at written
  split at written
  · next name place =>
    cases written
    exact ⟨name, place, lookup_put name _ _, fun other different => lookup_put_of_ne different _ _⟩
  · cases written

/-- Whatever leads to a file can be written to. -/
theorem isWritable_of_locate (place : d.locate path = .entry name) : d.IsWritable path := by
  intro text
  exact ⟨_, by rw [write, place]⟩

/-- Whether a path can be written to does not depend on the text. -/
theorem isWritable_of_write (written : d.write path text = .ok after) : d.IsWritable path := by
  obtain ⟨name, place, -⟩ := write_eq_ok written
  exact isWritable_of_locate place

/-- It is enough to try with one text. -/
theorem isWritable_iff : d.IsWritable path ↔ (d.write path "").toOption.isSome := by
  constructor
  · intro writable
    obtain ⟨after, written⟩ := writable ""
    rw [written]
    rfl
  · intro some
    cases written : d.write path "" with
    | ok after => exact isWritable_of_write written
    | error e =>
      rw [written] at some
      cases some

instance : Decidable (d.IsWritable path) := decidable_of_iff' _ isWritable_iff

end Directory

/-! ### Runs -/

namespace Options

variable {o : Options} {d : Directory} {input : ByteArray} {outcome : Outcome} {text path : String}
  {p q : Program}

/-- The input text of a run in the directory, if there is an input and it is text. -/
def text? (o : Options) (d : Directory) (input : ByteArray) : Option String :=
  if o.stdin then String.fromUTF8? input
  else o.file.bind fun path => (d.read path).toOption.bind String.fromUTF8?

/-- The program in the form that the user wants. -/
def rendering (o : Options) (q : Program) : String := if o.json then q.jsonText else q.fileText

/-- What a run that started in the directory ends in when it delivers the text. -/
inductive Delivers (o : Options) (d : Directory) (text : String) : Outcome × Directory → Prop
  /-- The text is on the standard output, and no file is created or changed. -/
  | printed (log : List Event) : o.out = none → Delivers o d text (⟨text, log, none⟩, d)
  /-- The text is the contents of the file that the user names, the standard output is empty, and no
  other file is created or changed. -/
  | stored {path name : String} {after : Directory} (log : List Event) : o.out = some path →
      d.locate path = .entry name → after.find? name = some text.toUTF8 →
      (∀ other, other ≠ name → after.find? other = d.find? other) →
      Delivers o d text (⟨"", log, none⟩, after)

/-! #### Reading -/

/-- The bytes that were read are this text exactly if they encode it. -/
theorem decode_eq_ok_iff {attempt : String} {bytes : Except SystemError ByteArray} :
    decode attempt bytes = .ok text ↔ bytes.toOption.bind String.fromUTF8? = some text := by
  cases bytes with
  | error e => simp [decode, Except.toOption]
  | ok bytes => cases h : String.fromUTF8? bytes <;> simp [decode, Except.toOption, h]

/-- Reading leaves the directory alone, and it gives the input text if there is one. -/
theorem run_input (o : Options) (d : Directory) (input : ByteArray) :
    ∃ result, (o.input (Directory.host input)).run d = (result, d) ∧
      ∀ text, result = .ok text ↔ o.text? d input = some text := by
  unfold Options.input text?
  split
  · exact ⟨_, rfl, fun text => decode_eq_ok_iff⟩
  · cases o.file with
    | none => exact ⟨_, rfl, fun text => by simp⟩
    | some path => exact ⟨_, rfl, fun text => decode_eq_ok_iff⟩

/-- A run that finds its input text makes of it what it can, and delivers that. -/
theorem runIn_of_text? (found : o.text? d input = some text) :
    o.runIn d input = (o.deliver (Directory.host input) (o.process text)).run d := by
  obtain ⟨result, reads, decides⟩ := run_input o d input
  rw [(decides text).2 found] at reads
  rw [runIn, run, StateT.run_bind, reads]
  rfl

/-- A run without an input text ends at once. -/
theorem runIn_of_text?_eq_none (missing : o.text? d input = none) :
    ∃ e, o.runIn d input = (.failed [] e, d) := by
  obtain ⟨result, reads, decides⟩ := run_input o d input
  cases result with
  | error e =>
    refine ⟨e, ?_⟩
    rw [runIn, run, StateT.run_bind, reads]
    rfl
  | ok text =>
    rw [(decides text).1 rfl] at missing
    cases missing

/-! #### Making the result -/

/-- A text that describes no program makes the run fail. -/
theorem process_of_error {e : TextError} (refused : Program.ofText text = .error e) :
    ∃ e, o.process text = .failed [] e := by
  rw [process, refused]
  exact ⟨_, rfl⟩

/-- The simplification never stands in the way of a program that was read. -/
theorem process_of_ok (described : Program.ofText text = .ok p) :
    ∃ log, o.process text = ⟨o.rendering (p.simplified o.preferences), log, none⟩ := by
  simp only [process, described, Program.result_simplify]
  exact ⟨_, rfl⟩

/-! #### Delivering it -/

/-- A run that has failed delivers nothing. -/
theorem deliver_failed {log : List Event} {e : Explanation} :
    (o.deliver (Directory.host input) (.failed log e)).run d = (.failed log e, d) := by
  cases out : o.out <;> simp [deliver, Outcome.failed, out] <;> rfl

/-- A run that has a text delivers it where it can be written. -/
theorem deliver_of_isWritable {log : List Event}
    (writable : ∀ path, o.out = some path → d.IsWritable path) :
    o.Delivers d text ((o.deliver (Directory.host input) ⟨text, log, none⟩).run d) := by
  cases out : o.out with
  | none =>
    have same : (o.deliver (Directory.host input) ⟨text, log, none⟩).run d =
        (⟨text, log, none⟩, d) := by
      simp [deliver, out]
      rfl
    rw [same]
    exact .printed log out
  | some path =>
    obtain ⟨after, written⟩ := writable path out text
    obtain ⟨name, place, there, others⟩ := Directory.write_eq_ok written
    have same : (o.deliver (Directory.host input) ⟨text, log, none⟩).run d =
        (⟨"", log, none⟩, after) := by
      simp [deliver, out, Directory.host, written]
      rfl
    rw [same]
    exact .stored log out place there others

/-- A run that has a text fails where it cannot be written. -/
theorem deliver_of_not_isWritable {log : List Event} (out : o.out = some path)
    (closed : ¬ d.IsWritable path) :
    ∃ e, (o.deliver (Directory.host input) ⟨text, log, none⟩).run d = (.failed log e, d) := by
  cases written : d.write path text with
  | ok after => exact absurd (Directory.isWritable_of_write written) closed
  | error e =>
    refine ⟨⟨[s!"Failed to write output to {path}"], .system e⟩, ?_⟩
    simp [deliver, out, Directory.host, written]
    rfl

/-! #### Whole runs -/

/-- A run that delivers has not failed. -/
theorem Delivers.failure? {result : Outcome × Directory} (delivers : o.Delivers d text result) :
    result.1.failure? = none := by
  cases delivers with
  | printed log out => rfl
  | stored log out place there others => rfl

/-- A run that finds all it depends on delivers the simplified program. -/
theorem runIn_of_feasible (found : o.text? d input = some text)
    (described : Program.ofText text = .ok p)
    (writable : ∀ path, o.out = some path → d.IsWritable path) :
    o.Delivers d (o.rendering (p.simplified o.preferences)) (o.runIn d input) := by
  obtain ⟨log, made⟩ := process_of_ok (o := o) described
  rw [runIn_of_text? found, made]
  exact deliver_of_isWritable writable

/-- A run that lacks something leaves no trace but its report. -/
theorem runIn_of_not_feasible (lacking : ¬ ∃ text p, o.text? d input = some text ∧
      Program.ofText text = .ok p ∧ ∀ path, o.out = some path → d.IsWritable path) :
    ∃ log e, o.runIn d input = (.failed log e, d) := by
  cases found : o.text? d input with
  | none =>
    obtain ⟨e, ended⟩ := runIn_of_text?_eq_none found
    exact ⟨[], e, ended⟩
  | some text =>
    rw [runIn_of_text? found]
    cases described : Program.ofText text with
    | error e =>
      obtain ⟨e, refused⟩ := process_of_error (o := o) described
      rw [refused]
      exact ⟨[], e, deliver_failed⟩
    | ok p =>
      have closed : ¬ ∀ path, o.out = some path → d.IsWritable path :=
        fun writable => lacking ⟨text, p, found, described, writable⟩
      simp only [not_forall] at closed
      obtain ⟨path, out, unwritable⟩ := closed
      obtain ⟨log, made⟩ := process_of_ok (o := o) described
      rw [made]
      exact ⟨log, deliver_of_not_isWritable out unwritable⟩

/-- A run succeeds exactly if it lacks nothing. -/
theorem failure?_eq_none_iff : (o.runIn d input).1.failure? = none ↔
    ∃ text p, o.text? d input = some text ∧ Program.ofText text = .ok p ∧
      ∀ path, o.out = some path → d.IsWritable path := by
  constructor
  · intro fine
    by_contra lacking
    obtain ⟨log, e, ended⟩ := runIn_of_not_feasible lacking
    rw [ended] at fine
    cases fine
  · rintro ⟨text, p, found, described, writable⟩
    exact (runIn_of_feasible found described writable).failure?

/-- A run that fails prints nothing and leaves every file alone. -/
theorem runIn_of_failure (failed : (o.runIn d input).1.failure? ≠ none) :
    (o.runIn d input).1.output = "" ∧ (o.runIn d input).2 = d := by
  obtain ⟨log, e, ended⟩ := runIn_of_not_feasible (mt failure?_eq_none_iff.2 failed)
  rw [ended]
  exact ⟨rfl, rfl⟩

/-- **All or nothing.** The options of an accepted list of arguments are those that it asks for:
where the text comes from and the result goes, its form, and what the simplification is asked to do.
The run succeeds exactly if its input can be read as text, the text describes a program, and the
file for the result, if one is named, can be written. Then the simplified program goes to one place
only: to the standard output while no file changes, or to that file while the standard output stays
empty. Otherwise the standard output is empty and no file is created or changed. Two runs with the
same text and preferences that both succeed deliver the same, wherever they read from and write
to. -/
theorem runIn_all_or_nothing (arguments : List String) (o : Options)
    (accepted : ofArguments? arguments = some o) (d : Directory) (input : ByteArray) :
    ((∃ requests, Request.Spelled none arguments requests) ∧
        ∀ requests, Request.Spelled none arguments requests →
          (requests.map Request.subject).Nodup ∧ o.Meets requests) ∧
      ((o.runIn d input).1.failure? = none ↔ ∃ text p, o.text? d input = some text ∧
        Program.ofText text = .ok p ∧ ∀ path, o.out = some path → d.IsWritable path) ∧
      ((o.runIn d input).1.failure? = none → ∃ text p q, o.text? d input = some text ∧
        Program.ofText text = .ok p ∧ (p.simplify o.preferences).result = .ok q ∧
        o.Delivers d (o.rendering q) (o.runIn d input)) ∧
      ((o.runIn d input).1.failure? ≠ none →
        (o.runIn d input).1.output = "" ∧ (o.runIn d input).2 = d) ∧
      ∀ (other : Options) (d' : Directory) (input' : ByteArray), other.json = o.json →
        other.preferences = o.preferences → other.text? d' input' = o.text? d input →
        (o.runIn d input).1.failure? = none → (other.runIn d' input').1.failure? = none →
        ∃ result, o.Delivers d result (o.runIn d input) ∧
          other.Delivers d' result (other.runIn d' input') := by
  refine ⟨⟨spelled_of_ofArguments? accepted, fun requests => meets_of_ofArguments? accepted⟩,
    failure?_eq_none_iff, fun fine => ?_, runIn_of_failure, ?_⟩
  · obtain ⟨text, p, found, described, writable⟩ := failure?_eq_none_iff.1 fine
    exact ⟨text, p, p.simplified o.preferences, found, described, Program.result_simplify _ p,
      runIn_of_feasible found described writable⟩
  · intro other d' input' json preferences text fine fine'
    obtain ⟨read, p, found, described, writable⟩ := failure?_eq_none_iff.1 fine
    obtain ⟨read', p', found', described', writable'⟩ := failure?_eq_none_iff.1 fine'
    rw [text, found, Option.some.injEq] at found'
    subst found'
    rw [described, Except.ok.injEq] at described'
    subst described'
    have delivered := runIn_of_feasible (text.trans found) described writable'
    rw [rendering, json, preferences] at delivered
    exact ⟨_, runIn_of_feasible found described writable, delivered⟩

/-- A run that overwrites its input, a run that passes on what it is given, and a run that would
overwrite its input if that were a program. The value of a setting follows its name once, and the
other time it is attached to it. -/
theorem runIn_all_or_nothing_overwriting :
    let text := "def main(x): call idle(); send x; def idle(): tau;"
    let p : Program := ⟨[⟨"main", [.plain "x"],
      [.invoke .call ⟨"idle", []⟩, .act (.perform .send "x")]⟩, ⟨"idle", [], [.tau]⟩], by decide⟩
    let d : Directory := ⟨[("notes", .empty), ("in.migo", text.toUTF8)]⟩
    let broken : Directory := ⟨[("in.migo", "def main(x): send".toUTF8)]⟩
    let overwriting : Options := ⟨false, false, some "in.migo", some "in.migo", { entry := "main" }⟩
    let passing : Options := ⟨true, false, none, none, { entry := "main" }⟩
    ofArguments? ["--entry", "main", "-oin.migo", "in.migo"] = some overwriting ∧
      ofArguments? ["-semain"] = some passing ∧
      Program.ofText text = .ok p ∧ (overwriting.runIn d .empty).1.failure? = none ∧
      (passing.runIn broken text.toUTF8).1.failure? = none ∧
      (∃ result, overwriting.Delivers d result (overwriting.runIn d .empty) ∧
        passing.Delivers broken result (passing.runIn broken text.toUTF8)) ∧
      (overwriting.runIn broken .empty).1.failure? ≠ none ∧
      (overwriting.runIn broken .empty).2 = broken := by
  intro text p d broken overwriting passing
  have overwrites : ofArguments? ["--entry", "main", "-oin.migo", "in.migo"] =
      some overwriting := by decide +kernel
  have passes : ofArguments? ["-semain"] = some passing := by decide +kernel
  have filed : overwriting.text? d .empty = some text := by decide +kernel
  have typed : passing.text? broken text.toUTF8 = some text := by decide +kernel
  have described : Program.ofText text = .ok p := by decide +kernel
  have writable : d.IsWritable "in.migo" := by decide +kernel
  obtain ⟨-, succeeds, -, -, delivers⟩ := runIn_all_or_nothing _ _ overwrites d .empty
  obtain ⟨-, succeeds', -⟩ := runIn_all_or_nothing _ _ passes broken text.toUTF8
  obtain ⟨-, fails, -, alone, -⟩ := runIn_all_or_nothing _ _ overwrites broken .empty
  have overwritten := succeeds.2 ⟨text, p, filed, described, fun path out => by
    cases out
    exact writable⟩
  have passed := succeeds'.2 ⟨text, p, typed, described, fun path out => by cases out⟩
  have same := delivers passing broken text.toUTF8 rfl rfl (typed.trans filed.symm) overwritten
    passed
  have failed : (overwriting.runIn broken .empty).1.failure? ≠ none := by
    intro fine
    obtain ⟨read, q, found, accepted, -⟩ := fails.1 fine
    have unfinished : overwriting.text? broken .empty = some "def main(x): send" := by
      decide +kernel
    rw [unfinished, Option.some.injEq] at found
    have refused : (Program.ofText "def main(x): send").toOption = none := by decide +kernel
    rw [found, accepted] at refused
    cases refused
  exact ⟨overwrites, passes, described, overwritten, passed, same, failed, (alone failed).2⟩

end Options

end BehaviouralTypes
