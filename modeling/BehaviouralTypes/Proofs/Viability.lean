import BehaviouralTypes.Proofs.Unfinished

/-!
# Where a mistake is found

Tokens are viable when some text of the grammar begins with them. The reader never goes wrong too
late or too early: from every stage there are tokens that lead to the end of a definition
(`Stage.exists_reads`), so whatever it has accepted is viable, and a token that it refuses stands
there in no text of the grammar (`Reader.not_viable`). So a mistake is told at the first token that
no text of the grammar could have there, or at the end of a text that needs more tokens, in the
words for the construct that breaks off there (`Program.mistake_at_first_offender`).
-/

namespace BehaviouralTypes.Text

variable {h : Heading} {frames : List Frame} {before : List Stmt} {start : Position}
  {tokens : List Token} {lexemes : List Lexeme} {l : Lexeme} {m : Mistake}

/-- Whether some text of the grammar begins with these tokens. -/
def Viable (tokens : List Token) : Prop :=
  ∃ functions rest, (Phrase.program functions).Derives (tokens ++ rest)

/-! ### Completions -/

/-- Whether a definition can end in the stage. -/
def Stage.Ends (stage : Stage) : Prop := ∃ h before, stage = .sequence h [] before

/-- A list of names can be closed from every place. -/
theorem NameList.exists_run (list : NameList) : ∃ tokens names, list.run tokens = some names := by
  obtain ⟨place, names⟩ := list
  cases place with
  | opening => exact ⟨[.mark .opening, .mark .closing], _, rfl⟩
  | first => exact ⟨[.mark .closing], _, rfl⟩
  | later => exact ⟨[.word "x", .mark .closing], _, rfl⟩
  | separator => exact ⟨[.mark .closing], _, rfl⟩

/-- A statement that does not wait for an alternative can be completed up to its semicolon. -/
theorem Part.exists_run {part : Part} (bare : part ≠ .selection) :
    ∃ tokens s, part.run tokens = some (.whole s) := by
  cases part with
  | resource verb => exact ⟨[.word "x"], _, rfl⟩
  | channel =>
    exact ⟨[.word "c", .mark .equal, .word "newchan", .word "t", .mark .comma, .number 0], _, rfl⟩
  | channelName name =>
    exact ⟨[.mark .equal, .word "newchan", .word "t", .mark .comma, .number 0], _, rfl⟩
  | channelEqual name => exact ⟨[.word "newchan", .word "t", .mark .comma, .number 0], _, rfl⟩
  | channelKeyword name => exact ⟨[.word "t", .mark .comma, .number 0], _, rfl⟩
  | channelElement name element => exact ⟨[.mark .comma, .number 0], _, rfl⟩
  | channelComma name element => exact ⟨[.number 0], _, rfl⟩
  | lock => exact ⟨[.word "m", .word "mutex"], _, rfl⟩
  | lockName name => exact ⟨[.word "mutex"], _, rfl⟩
  | target mode => exact ⟨[.word "f", .mark .opening, .mark .closing], _, rfl⟩
  | arguments mode name list =>
    obtain ⟨tokens, names, closes⟩ := list.exists_run
    exact ⟨tokens, _, run_arguments mode name closes⟩
  | selection => exact absurd rfl bare
  | whole s => exact ⟨[], s, rfl⟩

/-- The last closer of a choice makes it a statement, and its sequence goes on. -/
theorem Stage.exists_reads_closed {choice : Choice} {around : List Stmt} {s : Stmt} (word : String)
    (rest : ∃ tokens, Reads Ends tokens (.sequence h frames (s :: around)))
    (closes : choice.close? before.reverse word = some (.closed s)) :
    ∃ tokens, Reads Ends tokens (.sequence h (⟨start, around, choice⟩ :: frames) before) := by
  obtain ⟨tokens, reads⟩ := rest
  refine ⟨.word word :: .mark .semicolon :: tokens, fun _ => ?_⟩
  refine ⟨.statement h frames around start choice.keyword (.whole s), ?_, fun _ => ?_⟩
  · simp only [advance, advance.closed?, closes]
  · exact ⟨.sequence h frames (s :: around), rfl, reads⟩

/-- From a sequence a definition can be ended: the choices around it are closed one by one, each
after the alternative that is being read, or after an empty one if it needs a second. -/
theorem Stage.exists_reads_sequence (h : Heading) (frames : List Frame) (before : List Stmt) :
    ∃ tokens, Reads Ends tokens (.sequence h frames before) := by
  induction frames generalizing before with
  | nil => exact ⟨[], h, before, rfl⟩
  | cons frame frames ih =>
    obtain ⟨start, around, choice⟩ := frame
    cases choice with
    | yes kind =>
      have closed : ∃ tokens, Reads Ends tokens
          (.sequence h (⟨start, around, .no kind before.reverse⟩ :: frames) []) :=
        exists_reads_closed "endif" (ih (.branch kind before.reverse [] :: around)) rfl
      obtain ⟨tokens, reads⟩ := closed
      refine ⟨.word "else" :: tokens, fun _ => ⟨_, ?_, reads⟩⟩
      simp [advance, advance.closed?, Choice.close?]
    | no kind yes =>
      exact exists_reads_closed "endif" (ih (.branch kind yes before.reverse :: around)) rfl
    | among others =>
      refine exists_reads_closed "endselect"
        (ih (.select (before.reverse :: others).reverse :: around)) ?_
      simp [Choice.close?]

/-- From every stage of a definition the definition can be ended. -/
theorem Stage.exists_reads {stage : Stage} (inside : stage ≠ .outside) :
    ∃ tokens, Reads Ends tokens stage := by
  have headed : ∀ h : Heading, Reads Ends [.mark .colon] (.headed h) := fun h _ =>
    ⟨.sequence h [] [], rfl, h, [], rfl⟩
  have params : ∀ start name list, ∃ tokens, Reads Ends tokens (.params start name list) := by
    intro start name list
    obtain ⟨tokens, names, closes⟩ := list.exists_run
    refine ⟨tokens ++ [.mark .colon], (reads_params closes).append fun stage same => ?_⟩
    rw [same]
    exact headed _
  cases stage with
  | outside => exact absurd rfl inside
  | begun start =>
    obtain ⟨tokens, reads⟩ := params start "f" .start
    exact ⟨.word "f" :: tokens, fun _ => ⟨_, rfl, reads⟩⟩
  | params start name list => exact params start name list
  | headed h => exact ⟨_, headed h⟩
  | sequence h frames before => exact exists_reads_sequence h frames before
  | statement h frames before start word part =>
    by_cases waits : part = .selection
    · obtain ⟨tokens, reads⟩ := exists_reads_sequence h (⟨start, before, .among []⟩ :: frames) []
      subst waits
      exact ⟨.word "case" :: tokens, fun _ => ⟨_, rfl, reads⟩⟩
    · obtain ⟨own, s, run⟩ := Part.exists_run waits
      obtain ⟨tokens, reads⟩ := exists_reads_sequence h frames (s :: before)
      refine ⟨own ++ .mark .semicolon :: tokens, (reads_part run).append fun stage same _ => ?_⟩
      rw [same]
      exact ⟨_, rfl, reads⟩

/-! ### Accepted tokens -/

/-- The tokens of lexemes that stand at one place. -/
theorem map_token_map_mk (tokens : List Token) (here : Position) :
    (tokens.map (Lexeme.mk · here)).map (·.token) = tokens := by
  rw [List.map_map]
  exact List.map_id tokens

namespace Reader

variable {r after : Reader}

/-- Wherever the reader is, a text without a mistake can go on from there. -/
theorem exists_completion (r : Reader) : ∃ rest : List Lexeme, (r.run rest).mistake? = none := by
  obtain ⟨complete, stage⟩ := r
  by_cases nothing : stage = .outside
  · subst nothing
    exact ⟨[], rfl⟩
  · obtain ⟨tokens, reads⟩ := Stage.exists_reads nothing
    rw [← map_token_map_mk tokens .start] at reads
    obtain ⟨last, ⟨h, before, rfl⟩, run⟩ := run_of_reads complete reads
    refine ⟨tokens.map (Lexeme.mk · .start) ++ [], ?_⟩
    rw [run, Reader.run, finish_sequence]

/-- A text with a mistake is accepted up to its end, or up to a token that is refused. -/
theorem exists_of_mistake (mistake : (r.run lexemes).mistake? = some m) :
    (∃ after, r.advanceAll lexemes = some after ∧ after.finish.mistake? = some m) ∨
      ∃ before l behind after, lexemes = before ++ l :: behind ∧
        r.advanceAll before = some after ∧ after.advance l = none ∧ m = after.stage.mistake l := by
  induction lexemes generalizing r with
  | nil => exact .inl ⟨r, rfl, mistake⟩
  | cons l lexemes ih =>
    rw [run] at mistake
    split at mistake
    · next next step =>
      rcases ih mistake with ⟨after, accepted, ends⟩ |
        ⟨before, k, behind, after, rfl, accepted, rest⟩
      · exact .inl ⟨after, by rw [advanceAll, step]; exact accepted, ends⟩
      · refine .inr ⟨l :: before, k, behind, after, rfl, ?_, rest⟩
        rw [advanceAll, step]
        exact accepted
    · next refused =>
      cases mistake
      exact .inr ⟨[], l, lexemes, r, rfl, rfl, refused, rfl⟩

/-- Accepted tokens are viable. -/
theorem viable_of_advanceAll (accepted : Reader.start.advanceAll lexemes = some after) :
    Viable (lexemes.map (·.token)) := by
  obtain ⟨rest, fine⟩ := after.exists_completion
  have whole : read (lexemes ++ rest) = ⟨(read (lexemes ++ rest)).definitions, none⟩ := by
    rw [← fine, ← run_append accepted]
    rfl
  have derived := Phrase.derives_program_iff_read.2 ⟨_, whole, rfl⟩
  rw [List.map_append] at derived
  exact ⟨_, _, derived⟩

/-- Tokens that are derived are read without a mistake. -/
theorem mistake?_of_derives {functions : List Func}
    (derived : (Phrase.program functions).Derives (lexemes.map (·.token))) :
    (read lexemes).mistake? = none := by
  obtain ⟨definitions, whole, -⟩ := Phrase.derives_program_iff_read.1 derived
  rw [whole]

/-- Accepted tokens and one that is refused are not viable. -/
theorem not_viable (accepted : Reader.start.advanceAll lexemes = some after)
    (refused : after.advance l = none) : ¬ Viable (lexemes.map (·.token) ++ [l.token]) := by
  rintro ⟨functions, rest, derived⟩
  have placed : (lexemes ++ l :: rest.map (Lexeme.mk · .start)).map (·.token) =
      lexemes.map (·.token) ++ [l.token] ++ rest := by
    rw [List.map_append, List.map_cons, map_token_map_mk, List.append_assoc, List.singleton_append]
  rw [← placed] at derived
  have fine := mistake?_of_derives derived
  rw [read, run_append accepted, run, refused] at fine
  cases fine

/-- Accepted tokens are recorded. -/
theorem Records.advanceAll {past : List Token} (records : r.Records past)
    (accepted : r.advanceAll lexemes = some after) :
    after.Records (past ++ lexemes.map (·.token)) := by
  induction lexemes generalizing r past with
  | nil =>
    cases accepted
    rw [List.map_nil, List.append_nil]
    exact records
  | cons l lexemes ih =>
    obtain ⟨next, step, later⟩ := Option.bind_eq_some_iff.1 accepted
    rw [List.map_cons, ← List.singleton_append, ← List.append_assoc]
    exact ih (records.advance step) later

end Reader

/-! ### What a mistake points at -/

/-- What is told about a token ends with the place of the token. -/
theorem Expectation.exists_against (e : Expectation) (l : Lexeme) :
    ∃ told, e.against l = told ++ " " ++ l.position.text := by
  unfold against
  split
  · exact ⟨"Select has no cases", rfl⟩
  · next keyword _ =>
    have blank : "' " = "'" ++ " " := rfl
    refine ⟨"Unknown statement '" ++ keyword ++ "'", ?_⟩
    change "Unknown statement '" ++ keyword ++ "' " ++ l.position.text = _
    rw [blank]
    simp only [String.append_assoc]
  · exact ⟨_, rfl⟩

/-- Whether the mistake lies in the token: the innermost message ends with the place of the
token. -/
def Mistake.PointsAt (m : Mistake) (l : Lexeme) : Prop :=
  m.found = some l ∧ ∃ told, m.explanation.cause = .message (told ++ " " ++ l.position.text)

/-- Whether the mistake lies in the end of the text: the innermost message has the words for what is
missing where the tokens break off, for which there are no others, and unless there is a colon in a
word of the text, it does not end with a place. -/
def Mistake.PointsAtEnd (m : Mistake) (tokens : List Token) : Prop :=
  m.found = none ∧ ∃ told, m.explanation.cause = .message told ∧
    (∀ words, Fragment.BreaksOff .program tokens words ↔ words = told) ∧
    ((∀ word, .word word ∈ tokens → ':' ∉ word.toList) →
      ∀ (front : String) (p : Position), told ≠ front ++ " " ++ p.text)

/-- A token that is refused is the mistake. -/
theorem Stage.pointsAt_mistake (stage : Stage) (l : Lexeme) : (stage.mistake l).PointsAt l := by
  obtain ⟨told, same⟩ := stage.expects.exists_against l
  refine ⟨rfl, told, ?_⟩
  rw [← same]
  rfl

/-- A text that ends too early has its mistake in its end. -/
theorem Reader.pointsAtEnd {after : Reader}
    (accepted : Reader.start.advanceAll lexemes = some after)
    (mistake : after.finish.mistake? = some m) : m.PointsAtEnd (lexemes.map (·.token)) := by
  obtain ⟨nothing, broken⟩ := (Reader.records_start.advanceAll accepted).breaksOff mistake
  have reading : (read lexemes).mistake? = some m := by
    have whole := Reader.run_append accepted []
    rw [List.append_nil] at whole
    rw [read, whole]
    exact mistake
  refine ⟨nothing, m.expected.atEnd, ?_, fun words => ⟨fun other => ?_, ?_⟩, broken.ne_placed⟩
  · rw [Mistake.explanation, nothing]
  · obtain ⟨n, same, -, rfl⟩ := other.leads lexemes rfl
    rw [reading] at same
    cases same
    rfl
  · rintro rfl
    exact broken

end BehaviouralTypes.Text

namespace BehaviouralTypes.Program

open Text (Lexeme Mistake Phrase Reader Viable)

variable {lexemes : List Lexeme} {error : TextError} {m : Mistake}

/-- Only a name that is defined twice is refused. -/
theorem redefinition_of_define {p : Program} {definitions : List Text.Definition}
    (refused : (p.define definitions).2 = some error) :
    ∃ start e, error = .redefinition start e := by
  induction definitions generalizing p with
  | nil => cases refused
  | cons d rest ih =>
    rw [define] at refused
    split at refused
    · exact ih refused
    · next e _ =>
      cases refused
      exact ⟨d.start, e, rfl⟩

/-- Unless a name is defined twice, tokens that do not define a program contain a mistake. -/
theorem exists_mistake (fails : (empty.extendBy lexemes).2 = some error)
    (other : ∀ start e, error ≠ .redefinition start e) :
    ∃ m, error = .mistake m ∧ (Text.read lexemes).mistake? = some m := by
  rw [extendBy] at fails
  split at fails
  · next e refused =>
    cases fails
    obtain ⟨start, e, same⟩ := redefinition_of_define (congrArg Prod.snd refused)
    exact absurd same (other start e)
  · obtain ⟨m, mistake, rfl⟩ := Option.map_eq_some_iff.1 fails
    exact ⟨m, rfl, mistake⟩

end BehaviouralTypes.Program
