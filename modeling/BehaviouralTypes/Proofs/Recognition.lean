import BehaviouralTypes.Proofs.Tokens
import BehaviouralTypes.Text.Reader

/-!
# Reading the tokens of a program

A reader accepts the tokens of any program whose selections offer something, wherever in a text the
tokens stand, and what it has read in the end is the plain form of the program
(`Text.read_of_tokens`). The statements of a block are read one after the other inside any open
choices, so the induction is that of blocks.
-/

namespace BehaviouralTypes.Text

variable {h : Heading} {frames : List Frame} {before : List Stmt} {start : Position}
  {word : String} {part : Part} {token : Token} {tokens : List Token} {goal : Stage → Prop}

/-! ### Lists of names -/

/-- The names of the list after these tokens, if the last of them ends it. -/
def NameList.run (list : NameList) : List Token → Option (List Name)
  | [] => none
  | token :: rest => match list.advance token, rest with
    | some (.more list), rest => list.run rest
    | some (.closed names), [] => some names
    | _, _ => none

/-- From a place where a name is allowed, names with commas between them are read. -/
theorem NameList.run_listed {place : ListPlace} (name : Name) (rest done : List Name)
    (allowed : place = .first ∨ place = .later) :
    NameList.run ⟨place, done⟩ (listed (name :: rest) ++ [.mark .closing]) =
      some (done.reverse ++ name :: rest) := by
  induction rest generalizing name done place with
  | nil => rcases allowed with rfl | rfl <;> simp [listed, NameList.run, NameList.advance]
  | cons next rest ih =>
    have later := ih next (name :: done) (.inr rfl)
    have tokens : listed (name :: next :: rest) ++ [.mark .closing] =
        .word name :: .mark .comma :: (listed (next :: rest) ++ [.mark .closing]) := rfl
    rw [tokens]
    rcases allowed with rfl | rfl
    · simpa [NameList.run, NameList.advance] using later
    · simpa [NameList.run, NameList.advance] using later

/-- Names in parentheses are read. -/
theorem NameList.run_parenthesised (names : List Name) :
    NameList.start.run (parenthesised names) = some names := by
  cases names with
  | nil => rfl
  | cons name rest => exact NameList.run_listed name rest [] (.inl rfl)

/-! ### Statements without choices -/

/-- The part of a statement after these tokens. -/
def Part.run (part : Part) : List Token → Option Part
  | [] => some part
  | token :: rest => (part.advance token).bind (·.run rest)

/-- An invocation is whole when what it hands over has been read. -/
theorem Part.run_arguments {list : NameList} {names : List Name} (mode : Mode) (target : Name)
    (closes : list.run tokens = some names) :
    (Part.arguments mode target list).run tokens =
      some (.whole (.invoke mode ⟨target, names.map .plain⟩)) := by
  induction tokens generalizing list with
  | nil => cases closes
  | cons token rest ih =>
    unfold NameList.run at closes
    split at closes
    · next step =>
      simp only [Part.run, Part.advance, step, Option.bind_some]
      exact ih closes
    · next step =>
      cases closes
      simp only [Part.run, Part.advance, step, Option.bind_some]
    · cases closes

/-- The keyword of a verb begins its statement. -/
theorem beginning?_verb (verb : Verb) :
    beginning? verb.keyword = some (.part (.resource verb)) := by
  cases verb <;> rfl

/-- The keyword of an invocation begins it. -/
theorem beginning?_mode (mode : Mode) : beginning? mode.keyword = some (.part (.target mode)) := by
  cases mode <;> rfl

/-- The keyword of a branch begins its first alternative. -/
theorem beginning?_branch (kind : BranchKind) :
    beginning? kind.keyword = some (.choice (.yes kind)) := by
  cases kind <;> rfl

/-- The keyword that the statement begins with. -/
def keyword : Stmt → String
  | .tau => "tau"
  | .act (.newChannel _ _ _) => "let"
  | .act (.newLock _ _) => "letsync"
  | .act (.perform verb _) => verb.keyword
  | .invoke mode _ => mode.keyword
  | .branch kind _ _ => kind.keyword
  | .select _ => "select"

/-- The tokens of a statement begin with its keyword. -/
theorem head?_opened (s : Stmt) : s.opened.head? = some (.word (keyword s)) := by
  cases s with
  | act action => cases action <;> rfl
  | tau | invoke | branch | select => rfl

/-- The plain form of a statement begins with the same keyword. -/
theorem keyword_plain (s : Stmt) : keyword s.plain = keyword s := by
  cases s <;> rfl

/-- A statement without choices is its keyword and what has to follow it. -/
theorem exists_run_of_not_isChoice {s : Stmt} (bare : s.isChoice = false) :
    ∃ rest part, s.opened = .word (keyword s) :: rest ∧
      beginning? (keyword s) = some (.part part) ∧ part.run rest = some (.whole s.plain) := by
  cases s with
  | tau => exact ⟨[], .whole .tau, rfl, rfl, rfl⟩
  | act action =>
    cases action with
    | newChannel name element capacity =>
      refine ⟨_, .channel, rfl, rfl, ?_⟩
      simp [Part.run, Part.advance, Stmt.plain]
    | newLock kind name =>
      refine ⟨_, .lock, rfl, rfl, ?_⟩
      cases kind <;> simp [Part.run, Part.advance, Stmt.plain, LockKind.keyword]
    | perform verb name =>
      exact ⟨[.word name], .resource verb, rfl, beginning?_verb verb, rfl⟩
  | invoke mode invocation =>
    refine ⟨invocation.tokens, .target mode, rfl, beginning?_mode mode, ?_⟩
    have closes := NameList.run_parenthesised (invocation.bindings.map (·.caller))
    have plain : (invocation.bindings.map (·.caller)).map Binding.plain =
        invocation.bindings.map fun b => .plain b.caller := List.map_map
    rw [Stmt.plain, Invocation.plain, ← plain]
    exact Part.run_arguments mode invocation.target closes
  | branch kind yes no => cases bare
  | select cases => cases bare

/-! ### Stages -/

/-- Whether these tokens lead from the stage to such a stage, wherever in a text they stand. -/
def Stage.Reads (goal : Stage → Prop) : List Token → Stage → Prop
  | [], stage => goal stage
  | token :: rest, stage =>
    ∀ here, ∃ next, stage.advance ⟨token, here⟩ = some next ∧ Reads goal rest next

/-- Tokens are read in parts. -/
theorem Stage.Reads.append {mid : Stage → Prop} {more : List Token} {stage : Stage}
    (first : Reads mid tokens stage) (rest : ∀ stage, mid stage → Reads goal more stage) :
    Reads goal (tokens ++ more) stage := by
  induction tokens generalizing stage with
  | nil => exact rest stage first
  | cons token tokens ih =>
    intro here
    obtain ⟨next, step, later⟩ := first here
    exact ⟨next, step, ih later⟩

/-- What leads to such a stage leads to any stage that such a stage is. -/
theorem Stage.Reads.mono {mid : Stage → Prop} {stage : Stage} (reads : Reads mid tokens stage)
    (such : ∀ stage, mid stage → goal stage) : Reads goal tokens stage := by
  induction tokens generalizing stage with
  | nil => exact such stage reads
  | cons token tokens ih =>
    intro here
    obtain ⟨next, step, later⟩ := reads here
    exact ⟨next, step, ih later⟩

/-- Inside a statement a token that the part accepts is accepted. -/
theorem Stage.advance_statement {after : Part} (here : Position)
    (step : part.advance token = some after) :
    (Stage.statement h frames before start word part).advance ⟨token, here⟩ =
      some (.statement h frames before start word after) := by
  unfold Stage.advance
  dsimp only
  split
  · cases step
  · cases step
  · rw [step]
    rfl

/-- What a statement reads by itself it reads in a definition. -/
theorem Stage.reads_part {after : Part} (run : part.run tokens = some after) :
    Reads (· = .statement h frames before start word after) tokens
      (.statement h frames before start word part) := by
  induction tokens generalizing part with
  | nil =>
    cases run
    exact rfl
  | cons token rest ih =>
    intro here
    obtain ⟨next, step, later⟩ := Option.bind_eq_some_iff.1 run
    exact ⟨_, advance_statement here step, ih later⟩

/-- A keyword that begins a statement ends no alternative. -/
theorem Stage.closed?_eq_none {begun : Beginning} (begins : beginning? word = some begun) :
    advance.closed? h before word frames = none := by
  have other : ∀ closer, beginning? closer = none → word ≠ closer := by
    rintro closer nothing rfl
    rw [nothing] at begins
    cases begins
  have not_else := other "else" rfl
  have not_endif := other "endif" rfl
  have not_case := other "case" rfl
  have not_endselect := other "endselect" rfl
  cases frames with
  | nil => rfl
  | cons frame frames =>
    rw [advance.closed?]
    cases frame.choice <;>
      simp only [Choice.close?, not_else, not_endif, not_case, not_endselect, if_false]

/-- In a sequence a keyword begins its statement. -/
theorem Stage.advance_part (here : Position) (begins : beginning? word = some (.part part)) :
    (Stage.sequence h frames before).advance ⟨.word word, here⟩ =
      some (.statement h frames before here word part) := by
  simp only [Stage.advance, closed?_eq_none begins, begins]

/-- In a sequence a keyword opens its choice. -/
theorem Stage.advance_choice {choice : Choice} (here : Position)
    (begins : beginning? word = some (.choice choice)) :
    (Stage.sequence h frames before).advance ⟨.word word, here⟩ =
      some (.sequence h (⟨here, before, choice⟩ :: frames) []) := by
  simp only [Stage.advance, closed?_eq_none begins, begins]

/-- Whether the stage stands before the semicolon of the statement. -/
def Stage.Whole (h : Heading) (frames : List Frame) (before : List Stmt) (s : Stmt)
    (stage : Stage) : Prop :=
  ∃ start, stage = .statement h frames before start (keyword s) (.whole s)

/-- Whether the stage stands at the end of the last of these alternatives of a selection. -/
def Stage.Among (h : Heading) (frames : List Frame) (before : List Stmt) (cases : List Block)
    (stage : Stage) : Prop :=
  ∃ start done last, (last :: done).reverse = cases ∧
    stage = .sequence h (⟨start, before, .among done⟩ :: frames) last.reverse

/-! ### Choices -/

/-- Whether the tokens of the block are read in a sequence, wherever it stands. -/
def BlockReads (b : Block) : Prop :=
  ∀ h frames before, Stage.Reads (· = .sequence h frames (b.plain.reverse ++ before)) b.tokens
    (.sequence h frames before)

/-- A block in an alternative is read from its beginning. -/
theorem BlockReads.alternative {b : Block} {more : List Token} (block : BlockReads b)
    (rest : Stage.Reads goal more (.sequence h frames b.plain.reverse)) :
    Stage.Reads goal (b.tokens ++ more) (.sequence h frames []) := by
  refine (block h frames []).append fun stage same => ?_
  rw [same, List.append_nil]
  exact rest

/-- A branch is read if its blocks are. -/
theorem reads_branch {kind : BranchKind} {yes no : Block} (first : BlockReads yes)
    (second : BlockReads no) :
    Stage.Reads (Stage.Whole h frames before (.branch kind yes.plain no.plain))
      (Stmt.branch kind yes no).opened (.sequence h frames before) := by
  simp only [Stmt.opened, List.cons_append, List.append_assoc]
  intro here
  refine ⟨_, Stage.advance_choice here (beginning?_branch kind), first.alternative ?_⟩
  intro _
  refine ⟨.sequence h (⟨here, before, .no kind yes.plain⟩ :: frames) [], ?_,
    second.alternative ?_⟩
  · simp [Stage.advance, Stage.advance.closed?, Choice.close?]
  · intro _
    refine ⟨.statement h frames before here kind.keyword (.whole (.branch kind yes.plain no.plain)),
      ?_, here, rfl⟩
    simp [Stage.advance, Stage.advance.closed?, Choice.close?, Choice.keyword]

/-- In an alternative of a selection, the block of it and the alternatives after it are read. -/
theorem reads_alternatives {block : Block} {cases : List Block} (done : List Block)
    (own : BlockReads block) (all : ∀ b ∈ cases, BlockReads b) :
    Stage.Reads (Stage.Among h frames before
        (done.reverse ++ block.plain :: cases.map Block.plain))
      (block.tokens ++ Choices.tokens cases)
      (.sequence h (⟨start, before, .among done⟩ :: frames) []) := by
  induction cases generalizing block done with
  | nil => exact own.alternative ⟨start, done, block.plain, List.reverse_cons, rfl⟩
  | cons next cases ih =>
    simp only [Choices.tokens, List.cons_append]
    refine own.alternative ?_
    intro _
    refine ⟨.sequence h (⟨start, before, .among (block.plain :: done)⟩ :: frames) [], ?_, ?_⟩
    · simp [Stage.advance, Stage.advance.closed?, Choice.close?]
    · have later := ih (block.plain :: done) (all next List.mem_cons_self)
        fun b inside => all b (List.mem_cons_of_mem next inside)
      simpa only [List.reverse_cons, List.append_assoc, List.cons_append, List.nil_append,
        List.map_cons] using later

/-- A selection is read up to the end of its last alternative if it has alternatives and each of
them is read. -/
theorem reads_cases {cases : List Block} (offers : cases ≠ [])
    (all : ∀ b ∈ cases, BlockReads b) :
    Stage.Reads (Stage.Among h frames before (Choices.plain cases))
      (.word "select" :: Choices.tokens cases) (.sequence h frames before) := by
  cases cases with
  | nil => exact absurd rfl offers
  | cons block cases =>
    simp only [Choices.tokens, List.cons_append]
    intro here
    refine ⟨_, Stage.advance_part here rfl, fun _ => ?_⟩
    refine ⟨.sequence h (⟨here, before, .among []⟩ :: frames) [], rfl, ?_⟩
    have later : ∀ b ∈ cases, BlockReads b :=
      fun b inside => all b (List.mem_cons_of_mem block inside)
    simpa only [Choices.plain, Choices.plain_eq, List.reverse_nil, List.nil_append] using
      reads_alternatives [] (all block List.mem_cons_self) later

/-- A selection is read if it has alternatives and each of them is read. -/
theorem reads_select {cases : List Block} (offers : cases ≠ [])
    (all : ∀ b ∈ cases, BlockReads b) :
    Stage.Reads (Stage.Whole h frames before (.select (Choices.plain cases)))
      (Stmt.select cases).opened (.sequence h frames before) := by
  refine (reads_cases offers all).append ?_
  rintro _ ⟨start, done, last, same, rfl⟩ _
  refine ⟨_, ?_, start, rfl⟩
  simp [Stage.advance, Stage.advance.closed?, Choice.close?, Choice.keyword, keyword, ← same]

/-! ### Blocks -/

/-- A statement is read up to its semicolon if its bodies are read. -/
theorem reads_opened {s : Stmt} (offers : s ≠ .select [])
    (bodies : ∀ body ∈ s.bodies, BlockReads body) :
    Stage.Reads (Stage.Whole h frames before s.plain) s.opened (.sequence h frames before) := by
  by_cases choice : s.isChoice = true
  · cases s with
    | branch kind yes no =>
      exact reads_branch (bodies yes List.mem_cons_self)
        (bodies no (List.mem_cons_of_mem _ List.mem_cons_self))
    | select cases =>
      exact reads_select (fun none => offers (congrArg Stmt.select none)) bodies
    | tau | act | invoke => cases choice
  · obtain ⟨rest, part, opened, begins, run⟩ :=
      exists_run_of_not_isChoice (Bool.eq_false_iff.2 choice)
    rw [opened]
    intro here
    refine ⟨_, Stage.advance_part here begins, ?_⟩
    refine (Stage.reads_part run).mono fun stage same => ⟨here, ?_⟩
    rw [same, keyword_plain]

/-- The tokens of a block are read if its selections offer something. -/
theorem blockReads {b : Block} (offers : ∀ s ∈ b.statements, s ≠ .select []) : BlockReads b := by
  refine Block.induction_of_forall ?nil ?cons b offers
  case nil => exact fun h frames before => rfl
  case cons =>
    intro s b own bodies later h frames before
    refine (reads_opened own bodies).append fun stage => ?_
    rintro ⟨start, rfl⟩ _
    refine ⟨.sequence h frames (s.plain :: before), rfl, ?_⟩
    simpa only [Block.plain, List.reverse_cons, List.append_assoc, List.cons_append,
      List.nil_append] using later h frames (s.plain :: before)

/-! ### Definitions -/

/-- The parameters of a definition are read up to the end of its heading. -/
theorem Stage.reads_params {list : NameList} {names : List Name} {name : Name}
    (closes : list.run tokens = some names) :
    Reads (· = .headed ⟨start, name, names⟩) tokens (.params start name list) := by
  induction tokens generalizing list with
  | nil => cases closes
  | cons token rest ih =>
    intro here
    unfold NameList.run at closes
    split at closes
    · next step => exact ⟨_, by simp only [Stage.advance, step], ih closes⟩
    · next step =>
      cases closes
      exact ⟨_, by simp only [Stage.advance, step], rfl⟩
    · cases closes

/-- The heading of a definition is read from its keyword on. -/
theorem Stage.reads_heading {names : List Name} {more : List Token} (name : Name)
    (rest : Reads goal more (.headed ⟨start, name, names⟩)) :
    Reads goal (.word name :: parenthesised names ++ more) (.begun start) := by
  intro _
  refine ⟨.params start name .start, rfl, ?_⟩
  refine (reads_params (NameList.run_parenthesised names)).append fun stage same => ?_
  rw [same]
  exact rest

/-- The heading of the function in a text, where its keyword stands there. -/
def Heading.ofFunc (start : Position) (f : Func) : Heading :=
  ⟨start, f.name, f.params.map (·.callee)⟩

/-- The heading of a function has the plain function for its definition. -/
theorem Heading.definition_ofFunc (start : Position) (f : Func) :
    (Heading.ofFunc start f).definition f.body.plain.reverse = ⟨start, f.plain⟩ := by
  rw [Heading.definition, List.reverse_reverse, ofFunc, List.map_map]
  rfl

/-- A definition is read from its keyword on, if its selections offer something. -/
theorem Stage.reads_definition {f : Func} (start : Position)
    (offers : ∀ s ∈ f.body.statements, s ≠ .select []) :
    Reads (· = .sequence (.ofFunc start f) [] f.body.plain.reverse)
      (.word f.name :: parenthesised (f.params.map (·.callee)) ++ .mark .colon :: f.body.tokens)
      (.begun start) := by
  refine reads_heading f.name fun _ => ⟨.sequence (.ofFunc start f) [] [], rfl, ?_⟩
  simpa only [List.append_nil] using blockReads offers (.ofFunc start f) [] []

/-! ### Texts -/

namespace Reader

/-- The reader follows its stage. -/
theorem advance_of_stage {stage next : Stage} {complete : List Definition} {l : Lexeme}
    (step : stage.advance l = some next) :
    (Reader.mk complete stage).advance l = some ⟨complete, next⟩ := by
  have goes_on : (Reader.mk complete stage).begin? l = none := by
    unfold begin?
    split
    · next same =>
      -- Only a sequence outside all choices can end, and no statement begins as the next
      -- definition does.
      cases ends : stage.definition? with
      | none => rfl
      | some d =>
        unfold Stage.definition? at ends
        split at ends
        · rw [Stage.advance, same] at step
          cases step
        · cases ends
    · rfl
  rw [advance, goes_on]
  simp only [step, Option.map_some]

/-- The reader reads what its stage reads. -/
theorem run_of_reads {stage : Stage} {lexemes : List Lexeme} (complete : List Definition)
    (reads : Stage.Reads goal (lexemes.map (·.token)) stage) :
    ∃ after, goal after ∧ ∀ rest,
      (Reader.mk complete stage).run (lexemes ++ rest) = (Reader.mk complete after).run rest := by
  induction lexemes generalizing stage with
  | nil => exact ⟨stage, reads, fun _ => rfl⟩
  | cons l lexemes ih =>
    obtain ⟨next, step, later⟩ := reads l.position
    obtain ⟨after, reached, same⟩ := ih later
    refine ⟨after, reached, fun rest => ?_⟩
    rw [List.cons_append, run, advance_of_stage step]
    exact same rest

/-- Where a text can end, the next definition can begin. -/
theorem advance_def {r : Reader} {definitions : List Definition} (here : Position)
    (ends : r.finish = ⟨definitions, none⟩) :
    ∃ complete, complete.reverse = definitions ∧
      r.advance ⟨.word "def", here⟩ = some ⟨complete, .begun here⟩ := by
  obtain ⟨complete, stage⟩ := r
  unfold finish at ends
  split at ends
  · next outside =>
    cases ends
    refine ⟨complete, rfl, ?_⟩
    simp only at outside
    rw [outside]
    rfl
  · next found _ =>
    cases ends
    refine ⟨_ :: complete, rfl, ?_⟩
    simp only at found
    simp only [advance, begin?, found, if_true, Option.map_some]
  · cases ends

/-- A text can end after the statements of a definition. -/
theorem finish_sequence (complete : List Definition) (h : Heading) (before : List Stmt) :
    (Reader.mk complete (.sequence h [] before)).finish =
      ⟨complete.reverse ++ [h.definition before], none⟩ := by
  simp only [finish, Stage.definition?, List.reverse_cons]

/-- Where a text can end, the tokens of further definitions are read. -/
theorem run_of_tokens {r : Reader} {lexemes : List Lexeme} {definitions : List Definition}
    {functions : List Func} (ends : r.finish = ⟨definitions, none⟩)
    (offers : ∀ f ∈ functions, ∀ s ∈ f.body.statements, s ≠ .select [])
    (tokens : lexemes.map (·.token) = functions.flatMap Func.tokens) :
    ∃ more, r.run lexemes = ⟨definitions ++ more, none⟩ ∧
      more.map (·.function) = functions.map Func.plain := by
  induction functions generalizing r lexemes definitions with
  | nil =>
    rw [List.flatMap_nil, List.map_eq_nil_iff] at tokens
    rw [tokens]
    exact ⟨[], by rw [List.append_nil]; exact ends, rfl⟩
  | cons f functions ih =>
    rw [List.flatMap_cons, Func.tokens, List.cons_append, List.cons_append] at tokens
    obtain ⟨⟨_, here⟩, lexemes, rfl, rfl, tail⟩ := List.map_eq_cons_iff.1 tokens
    obtain ⟨own, others, rfl, body, later⟩ := List.map_eq_append_iff.1 tail
    obtain ⟨complete, rfl, begins⟩ := advance_def here ends
    have reads := Stage.reads_definition here (offers f List.mem_cons_self)
    rw [← body] at reads
    obtain ⟨stage, rfl, run⟩ := run_of_reads complete reads
    obtain ⟨more, result, same⟩ := ih (finish_sequence complete _ _)
      (fun g inside => offers g (List.mem_cons_of_mem f inside)) later
    refine ⟨⟨here, f.plain⟩ :: more, ?_, congrArg (f.plain :: ·) same⟩
    rw [Reader.run, begins]
    dsimp only
    rw [run, result, Heading.definition_ofFunc, List.append_assoc, List.singleton_append]

/-! ### Accepted tokens -/

/-- The reader after these lexemes, if it accepts all of them. -/
def advanceAll (r : Reader) : List Lexeme → Option Reader
  | [] => some r
  | l :: rest => (r.advance l).bind (·.advanceAll rest)

/-- What is accepted leaves the rest to be read. -/
theorem run_append {r after : Reader} {lexemes : List Lexeme}
    (accepted : r.advanceAll lexemes = some after) (rest : List Lexeme) :
    r.run (lexemes ++ rest) = after.run rest := by
  induction lexemes generalizing r with
  | nil =>
    cases accepted
    rfl
  | cons l lexemes ih =>
    obtain ⟨next, step, later⟩ := Option.bind_eq_some_iff.1 accepted
    rw [List.cons_append, run, step]
    exact ih later

/-- A text without a mistake is accepted, and can end after its tokens. -/
theorem exists_advanceAll {r : Reader} {lexemes : List Lexeme}
    (fine : (r.run lexemes).mistake? = none) :
    ∃ after, r.advanceAll lexemes = some after ∧ after.finish = r.run lexemes := by
  induction lexemes generalizing r with
  | nil => exact ⟨r, rfl, rfl⟩
  | cons l lexemes ih =>
    rw [run] at fine ⊢
    split at fine
    · next next step =>
      obtain ⟨after, accepted, ends⟩ := ih fine
      rw [advanceAll, step]
      exact ⟨after, accepted, ends⟩
    · cases fine

end Reader

/-- The tokens of functions whose selections offer something are read without a mistake, and what
is read are the plain forms of the functions. -/
theorem read_of_tokens {lexemes : List Lexeme} {functions : List Func}
    (offers : ∀ f ∈ functions, ∀ s ∈ f.body.statements, s ≠ .select [])
    (tokens : lexemes.map (·.token) = functions.flatMap Func.tokens) :
    ∃ definitions, read lexemes = ⟨definitions, none⟩ ∧
      definitions.map (·.function) = functions.map Func.plain :=
  Reader.run_of_tokens (r := .start) rfl offers tokens

end BehaviouralTypes.Text
