import BehaviouralTypes.Proofs.Grammar
import BehaviouralTypes.Proofs.Overflow

/-!
# Texts fed one after the other

A parser may be fed several texts, and what it has taken from them stays when one of them fails. The
reader finds the definitions of a text before the first of them is added; all the same a text is
taken as by a loop that reads one whole definition, adds it and goes on (`Program.extendBy_whole`),
until a definition is refused or no whole definition is ahead (`Program.extendBy_not_whole`). So a
failure leaves the definitions before the one that failed, in their order, and nothing of that one
or of those behind it (`Program.feed_takes`).
-/

namespace BehaviouralTypes.Text

variable {f : Func} {functions : List Func} {l : Lexeme} {own more rest lexemes : List Lexeme}
  {past : List Token} {stage : Stage}

/-! ### Whole definitions -/

/-- Whether the functions stand in a text with these lexemes, behind which it goes on with `rest`.
A definition has no end of its own, so what follows the last one must be another or nothing. -/
structure Completes (functions : List Func) (own rest : List Lexeme) : Prop where
  /-- The grammar derives the lexemes for the functions. -/
  derives : (Phrase.program functions).Derives (own.map (·.token))
  /-- The last definition ends where the rest begins. -/
  ends : functions ≠ [] → ∀ l ∈ rest.head?, l.token = .word "def"

/-- No function stands in no lexemes. -/
theorem completes_nil_iff : Completes [] own rest ↔ own = [] := by
  constructor
  · intro nothing
    have tokens := (Phrase.derives_program_iff.1 nothing.derives).1
    rwa [List.flatMap_nil, List.map_eq_nil_iff] at tokens
  · rintro rfl
    exact ⟨.noDefinition, fun full => absurd rfl full⟩

/-- One function stands in its own tokens, if another definition or nothing comes behind them. -/
theorem completes_single_iff : Completes [f] own rest ↔
    (own.map (·.token) = f.tokens ∧ f.IsTellable) ∧ ∀ l ∈ rest.head?, l.token = .word "def" := by
  have derived : (Phrase.program [f]).Derives (own.map (·.token)) ↔
      own.map (·.token) = f.tokens ∧ f.IsTellable := by
    rw [Phrase.derives_program_iff, List.forall_mem_singleton, List.flatMap_singleton]
  rw [← derived]
  exact ⟨fun whole => ⟨whole.derives, whole.ends (List.cons_ne_nil f [])⟩,
    fun ⟨derives, ends⟩ => ⟨derives, fun _ => ends⟩⟩

/-- A whole definition has a first lexeme. -/
theorem Completes.exists_cons (whole : Completes [f] own rest) : ∃ l tail, own = l :: tail := by
  refine List.exists_cons_of_ne_nil ?_
  rintro rfl
  cases (completes_single_iff.1 whole).1.1

/-- A whole definition and those behind it stand in the text together. -/
theorem Completes.cons (first : Completes [f] own (more ++ rest))
    (later : Completes functions more rest) : Completes (f :: functions) (own ++ more) rest := by
  obtain ⟨⟨tokens, tellable⟩, ends⟩ := completes_single_iff.1 first
  obtain ⟨others, all⟩ := Phrase.derives_program_iff.1 later.derives
  refine ⟨Phrase.derives_program_iff.2 ⟨?_, List.forall_mem_cons.2 ⟨tellable, all⟩⟩, fun _ => ?_⟩
  · rw [List.map_append, tokens, others, List.flatMap_cons]
  · cases functions with
    | nil =>
      rw [completes_nil_iff.1 later] at ends
      exact ends
    | cons g functions => exact later.ends (List.cons_ne_nil g functions)

/-! ### Reading one definition after the other -/

/-- The reader when these definitions, the last one first, are complete before its own. -/
def Reader.behind (r : Reader) (complete : List Definition) : Reader :=
  ⟨r.complete ++ complete, r.stage⟩

/-- Definitions that are complete already do not matter for one more token. -/
theorem Reader.advance_behind (r : Reader) (complete : List Definition) (l : Lexeme) :
    (r.behind complete).advance l = (r.advance l).map (·.behind complete) := by
  unfold advance begin?
  dsimp only [behind]
  split_ifs with keyword
  · cases r.stage.definition? with
    | some d => rfl
    | none => cases r.stage.advance l <;> rfl
  · cases r.stage.advance l <;> rfl

/-- Definitions that are complete already come first in the result. -/
theorem Reader.finish_behind (r : Reader) (complete : List Definition) :
    (r.behind complete).finish =
      ⟨complete.reverse ++ r.finish.definitions, r.finish.mistake?⟩ := by
  unfold finish
  dsimp only [behind]
  split <;> simp only [List.reverse_cons, List.reverse_append, List.append_assoc]

/-- What is complete already does not matter for what is read from then on. -/
theorem Reader.run_behind (r : Reader) (complete : List Definition) (lexemes : List Lexeme) :
    (r.behind complete).run lexemes =
      ⟨complete.reverse ++ (r.run lexemes).definitions, (r.run lexemes).mistake?⟩ := by
  induction lexemes generalizing r with
  | nil => exact r.finish_behind complete
  | cons l rest ih =>
    rw [run, run, advance_behind]
    cases r.advance l with
    | some next => exact ih next
    | none => exact congrArg (Result.mk · _) List.reverse_append

/-- From its keyword on a definition is read up to a stage in which it can end. -/
theorem read_append (tokens : (l :: own).map (·.token) = f.tokens) (tellable : f.IsTellable)
    (rest : List Lexeme) :
    read (l :: own ++ rest) = (Reader.mk [] (.sequence (.ofFunc l.position f) []
      f.body.plain.reverse)).run rest := by
  rw [Func.tokens, List.map_cons, List.cons_append, List.cons_append] at tokens
  obtain ⟨keyword, tail⟩ := List.cons.inj tokens
  have reads := Stage.reads_definition l.position fun s deep => (tellable.body s deep).offers
  rw [List.cons_append, ← tail] at reads
  obtain ⟨stage, rfl, run⟩ := Reader.run_of_reads [] reads
  rw [← run, read, List.cons_append, Reader.run]
  obtain ⟨token, here⟩ := l
  cases keyword
  rfl

/-- A whole definition is read first, and then the lexemes behind it. -/
theorem read_of_completes (whole : Completes [f] (l :: own) rest) :
    read (l :: own ++ rest) =
      ⟨⟨l.position, f⟩ :: (read rest).definitions, (read rest).mistake?⟩ := by
  obtain ⟨⟨tokens, tellable⟩, ends⟩ := completes_single_iff.1 whole
  have finished := Reader.finish_sequence [] (.ofFunc l.position f) f.body.plain.reverse
  rw [Heading.definition_ofFunc, Func.plain_eq_self tellable] at finished
  rw [read_append tokens tellable]
  cases rest with
  | nil => exact finished
  | cons next rest =>
    -- The keyword of the next definition ends this one, as if the text began there.
    obtain ⟨token, here⟩ := next
    cases ends ⟨token, here⟩ rfl
    obtain ⟨complete, same, begins⟩ := Reader.advance_def here finished
    have started : Reader.start.advance ⟨.word "def", here⟩ = some ⟨[], .begun here⟩ := rfl
    rw [read, Reader.run, Reader.run, begins, started]
    have goes_on := Reader.run_behind ⟨[], .begun here⟩ complete rest
    rw [same] at goes_on
    exact goes_on

/-- A text that ends where a definition cannot end completes no further definition. -/
theorem Reader.definitions_finish {r : Reader} (unfinished : r.stage.definition? = none) :
    r.finish.definitions = r.complete.reverse := by
  unfold finish
  split
  · rfl
  · next d ends _ =>
    rw [unfinished] at ends
    cases ends
  · rfl

/-- If a definition is completed on the way, it is a whole one. -/
theorem Stage.Records.exists_whole (records : stage.Records past)
    (completed : ((Reader.mk [] stage).run lexemes).definitions ≠ []) :
    ∃ (f : Func) (own rest : List Lexeme), lexemes = own ++ rest ∧
      past ++ own.map (·.token) = f.tokens ∧ f.IsTellable ∧
      ∀ l ∈ rest.head?, l.token = .word "def" := by
  induction lexemes generalizing stage past with
  | nil =>
    cases ends : stage.definition? with
    | none => exact absurd (Reader.definitions_finish (r := ⟨[], stage⟩) ends) completed
    | some d =>
      obtain ⟨tokens, tellable⟩ := records.definition ends
      exact ⟨d.function, [], [], rfl, by rw [tokens]; exact List.append_nil _, tellable, nofun⟩
  | cons l lexemes ih =>
    rw [Reader.run] at completed
    split at completed
    · next after step =>
      rcases Reader.advance_cases step with ⟨keyword, d, ends, -⟩ | ⟨next, goes_on, rfl⟩
      · obtain ⟨tokens, tellable⟩ := records.definition ends
        refine ⟨d.function, [], l :: lexemes, rfl, ?_, tellable, fun m first => ?_⟩
        · rw [tokens]
          exact List.append_nil _
        · cases first
          exact keyword
      · obtain ⟨f, own, rest, rfl, tokens, tellable, ends⟩ := ih (records.advance goes_on) completed
        refine ⟨f, l :: own, rest, rfl, ?_, tellable, ends⟩
        rw [← tokens, List.map_cons, List.append_assoc, List.singleton_append]
    · exact absurd rfl completed

/-- The token that a mistake reports is one of those that were to be read. -/
theorem Reader.found_mem {r : Reader} {m : Mistake} (mistake : (r.run lexemes).mistake? = some m)
    (found : m.found = some l) : l ∈ lexemes := by
  induction lexemes generalizing r with
  | nil =>
    rw [run] at mistake
    unfold finish at mistake
    split at mistake <;> cases mistake
    cases found
  | cons next lexemes ih =>
    rw [run] at mistake
    split at mistake
    · exact List.mem_cons_of_mem next (ih mistake)
    · cases mistake
      cases found
      exact List.mem_cons_self

/-- Lexemes that do not begin with a whole definition are read as a mistake among them. -/
theorem read_of_not_completes (full : lexemes ≠ [])
    (unfinished : ∀ f own rest, lexemes = own ++ rest → ¬ Completes [f] own rest) :
    ∃ m, read lexemes = ⟨[], some m⟩ ∧ ∀ l, m.found = some l → l ∈ lexemes := by
  have nothing : (read lexemes).definitions = [] := by
    by_contra found
    obtain ⟨f, own, rest, split, tokens, tellable, ends⟩ := Stage.Records.outside.exists_whole found
    exact unfinished f own rest split (completes_single_iff.2 ⟨⟨tokens, tellable⟩, ends⟩)
  cases mistake : (read lexemes).mistake? with
  | none =>
    have whole : read lexemes = ⟨[], none⟩ := by rw [← nothing, ← mistake]
    exact absurd (List.map_eq_nil_iff.1 (tokens_of_read whole).1) full
  | some m =>
    refine ⟨m, by rw [← nothing, ← mistake], fun l found => ?_⟩
    exact Reader.found_mem mistake found

end BehaviouralTypes.Text

namespace BehaviouralTypes.Program

open Text (Completes Excerpt Layout Lexeme Mistake Uncommented)

variable {p q : Program} {f : Func} {l : Lexeme} {own rest lexemes : List Lexeme}
  {added : List Func} {error : Option TextError}

/-! ### Taking one definition after the other -/

/-- A whole definition is added, if its name is free, before the lexemes behind it are taken. -/
theorem extendBy_whole (whole : Completes [f] (l :: own) rest) :
    p.extendBy (l :: own ++ rest) = match p.add f with
      | .ok q => q.extendBy rest
      | .error e => (p, some (.redefinition l.position e)) := by
  rw [extendBy, Text.read_of_completes whole]
  dsimp only [define]
  cases p.add f with
  | ok q => rfl
  | error e => rfl

/-- Lexemes that do not begin with a whole definition add nothing, and the mistake is among them. -/
theorem extendBy_not_whole (full : lexemes ≠ [])
    (unfinished : ∀ f own rest, lexemes = own ++ rest → ¬ Completes [f] own rest) :
    ∃ m, p.extendBy lexemes = (p, some (.mistake m)) ∧ ∀ l, m.found = some l → l ∈ lexemes := by
  obtain ⟨m, result, found⟩ := Text.read_of_not_completes full unfinished
  refine ⟨m, ?_, found⟩
  rw [extendBy, result]
  rfl

/-- What a program takes from lexemes without comments: the functions that are added to it, and the
error that stops it. -/
inductive Takes (p : Program) (lexemes : List Lexeme) (added : List Func) :
    Option TextError → Prop
  /-- The lexemes are whole definitions, and all of them are added. -/
  | all : Completes added lexemes [] → Takes p lexemes added none
  /-- Behind the whole definitions that are added there is something that does not begin with a
  whole definition, and the mistake is in it or at its end. -/
  | mistake {before rest : List Lexeme} {m : Mistake} : lexemes = before ++ rest →
      Completes added before rest → rest ≠ [] →
      (∀ f own later, rest = own ++ later → ¬ Completes [f] own later) →
      (∀ l, m.found = some l → l ∈ rest) → Takes p lexemes added (some (.mistake m))
  /-- Behind the whole definitions that are added there is a whole definition of a name that the
  program or one of them defines. -/
  | redefinition {before own later : List Lexeme} {l : Lexeme} {f : Func} :
      lexemes = before ++ (l :: own ++ later) → Completes added before (l :: own ++ later) →
      Completes [f] (l :: own) later → f.name ∈ p.names ∨ f.name ∈ added.map (·.name) →
      Takes p lexemes added (some (.redefinition l.position ⟨f.name⟩))

/-- A whole definition is taken together with what is taken behind it. -/
theorem Takes.cons (whole : Completes [f] own rest) (accepted : p.add f = .ok q)
    (takes : q.Takes rest added error) : p.Takes (own ++ rest) (f :: added) error := by
  cases takes with
  | all others =>
    rw [← List.append_nil rest] at whole
    exact .all (whole.cons others)
  | @mistake before rest m split others full unfinished found =>
    subst split
    exact .mistake (List.append_assoc ..).symm (whole.cons others) full unfinished found
  | @redefinition before own later l g split others next known =>
    subst split
    refine .redefinition (List.append_assoc ..).symm (whole.cons others) next ?_
    have names : q.names = p.names ++ [f.name] := by
      rw [names, add_eq_ok_iff.1 accepted, List.map_append]
      rfl
    rw [names, List.mem_append, List.mem_singleton] at known
    rw [List.map_cons, List.mem_cons]
    rcases known with (before | same) | earlier
    · exact .inl before
    · exact .inr (.inl same)
    · exact .inr (.inr earlier)

/-- A program takes whole definitions as long as their names are free. -/
theorem exists_takes (p : Program) (lexemes : List Lexeme) :
    ∃ added, (p.extendBy lexemes).1.functions = p.functions ++ added ∧
      p.Takes lexemes added (p.extendBy lexemes).2 := by
  induction size : lexemes.length using Nat.strongRecOn generalizing p lexemes with
  | ind n ih =>
    by_cases ahead : ∃ f own rest, lexemes = own ++ rest ∧ Completes [f] own rest
    · obtain ⟨f, own, rest, rfl, whole⟩ := ahead
      obtain ⟨l, own, rfl⟩ := whole.exists_cons
      rw [extendBy_whole whole]
      cases accepted : p.add f with
      | ok q =>
        have shorter : rest.length < n := by
          rw [← size, List.length_append, List.length_cons]
          omega
        obtain ⟨added, functions, takes⟩ := ih rest.length shorter q rest rfl
        refine ⟨f :: added, ?_, takes.cons whole accepted⟩
        rw [functions, add_eq_ok_iff.1 accepted, List.append_assoc]
        rfl
      | error e =>
        obtain ⟨taken, rfl⟩ := add_eq_error_iff.1 accepted
        refine ⟨[], (List.append_nil _).symm, ?_⟩
        exact .redefinition rfl (Text.completes_nil_iff.2 rfl) whole (.inl taken)
    · have unfinished : ∀ f own rest, lexemes = own ++ rest → ¬ Completes [f] own rest :=
        fun f own rest split whole => ahead ⟨f, own, rest, split, whole⟩
      by_cases full : lexemes = []
      · subst full
        exact ⟨[], (List.append_nil _).symm, .all (Text.completes_nil_iff.2 rfl)⟩
      · obtain ⟨m, result, found⟩ := extendBy_not_whole (p := p) full unfinished
        rw [result]
        refine ⟨[], (List.append_nil _).symm, ?_⟩
        exact .mistake rfl (Text.completes_nil_iff.2 rfl) full unfinished found

/-! ### Parsers -/

/-- The program of a parser that is fed these texts in turn, whether it takes all of each or not.
A new parser has the empty program. -/
def feed (p : Program) (texts : List String) : Program :=
  texts.foldl (fun p text => (p.extend text).1) p

/-- Texts are fed in parts. -/
theorem feed_append (p : Program) (texts later : List String) :
    p.feed (texts ++ later) = (p.feed texts).feed later := List.foldl_append

/-- A text adds functions at the end, whether it has an error or not. -/
theorem functions_prefix_extend (p : Program) (text : String) :
    p.functions <+: (p.extend text).1.functions := by
  unfold extend
  cases Text.lex text with
  | error e => exact List.prefix_rfl
  | ok lexemes =>
    obtain ⟨added, functions, -⟩ := exists_takes p (Text.withoutComments lexemes)
    exact ⟨added, functions.symm⟩

/-- Texts that are fed leave what was there in place. -/
theorem functions_prefix_feed (p : Program) (texts : List String) :
    p.functions <+: (p.feed texts).functions := by
  induction texts generalizing p with
  | nil => exact List.prefix_rfl
  | cons text texts ih => exact (functions_prefix_extend p text).trans (ih (p.extend text).1)

/-- **A failure leaves what stands before it.** A parser has one definition of each name, and the
functions that it has stay in place whatever it is fed later. From each text it takes nothing if the
text is no tokens written out, and then the first number that is too large is to blame; or all of
the definitions that the tokens without comments are; or those before one that contains a mistake or
whose name is defined already, by an earlier text or in this one, and then nothing of that one or of
those behind it. -/
theorem feed_takes (p : Program) (texts : List String) :
    (p.feed texts).names.Nodup ∧
      (∀ later, (p.feed texts).functions <+: (p.feed (texts ++ later)).functions) ∧
      ∀ text, ∃ added, (p.feed (texts ++ [text])).functions = (p.feed texts).functions ++ added ∧
        (∀ lexemes visible, Layout .start text.toList lexemes → Uncommented lexemes visible →
          (p.feed texts).Takes visible added ((p.feed texts).extend text).2) ∧
        ((∀ lexemes, ¬ Layout .start text.toList lexemes) → added = [] ∧
          ∃ e : Excerpt, e.IsFirstOversized text.toList ∧ ((p.feed texts).extend text).2 =
            some (.overflow ⟨String.ofList e.chars, .behind e.before⟩)) := by
  refine ⟨(p.feed texts).nodup, fun later => ?_, fun text => ?_⟩
  · rw [feed_append]
    exact functions_prefix_feed (p.feed texts) later
  · have last : p.feed (texts ++ [text]) = ((p.feed texts).extend text).1 :=
      feed_append p texts [text]
    rw [last, extend]
    cases cut : Text.lex text with
    | error o =>
      refine ⟨[], (List.append_nil _).symm, fun lexemes visible layout => ?_, fun _ => ⟨rfl, ?_⟩⟩
      · exact absurd layout (Text.exists_lex_error_iff.1 ⟨o, cut⟩ lexemes)
      · obtain ⟨e, first, rfl⟩ := Text.lex_eq_error_iff.1 cut
        exact ⟨e, first, rfl⟩
    | ok lexemes =>
      obtain ⟨added, functions, takes⟩ :=
        exists_takes (p.feed texts) (Text.withoutComments lexemes)
      refine ⟨added, functions, fun others visible layout left => ?_, fun none => ?_⟩
      · cases cut.symm.trans (Text.lex_eq_ok_iff.2 layout)
        cases Text.uncommented_iff.1 left
        exact takes
      · exact absurd (Text.lex_eq_ok_iff.1 cut) (none lexemes)

/-- A definition without its end, a name that an earlier text defines, and a number that is too
large, which keeps its text from being cut into tokens. -/
example : (empty.feed ["def a(): tau; def b(): send",
    "def c(): call a(); def a(): tau; def d(): tau;",
    "def e(): tau; def f(): let x = newchan t, 18446744073709551616;"]).names = ["a", "c"] := by
  decide +kernel

end BehaviouralTypes.Program
