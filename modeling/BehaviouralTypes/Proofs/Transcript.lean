import BehaviouralTypes.Proofs.Tokens
import BehaviouralTypes.Text.Reader

/-!
# What a reader has read

A reader forgets nothing that a program shows: the tokens that led to a stage can be told from the
stage. `Records` says so for each layer of a stage, from a list of names up to the whole reader, and
each layer has one lemma about one more token. A text that is read without a mistake therefore
consists of the tokens of the definitions that were read (`Text.tokens_of_read`), and all of them
can be told by a text.
-/

namespace BehaviouralTypes.Text

variable {past : List Token} {token : Token} {l : Lexeme}

/-! ### Tellable blocks -/

/-- Whether every statement of the block can be told, at any depth. -/
def Tellable (b : Block) : Prop := ∀ s ∈ b.statements, s.IsTellable

/-- A block is tellable when the statements that stand directly in it and their bodies are. -/
theorem tellable_iff {b : Block} :
    Tellable b ↔ ∀ s ∈ b, s.IsTellable ∧ ∀ body ∈ s.bodies, Tellable body := by
  constructor
  · intro all s inside
    exact ⟨all s (Block.mem_statements.2 ⟨s, inside, .inl rfl⟩), fun body within t deep =>
      all t (Block.mem_statements.2 ⟨s, inside, .inr ⟨body, within, deep⟩⟩)⟩
  · intro all t deep
    obtain ⟨s, inside, rfl | ⟨body, within, deeper⟩⟩ := Block.mem_statements.1 deep
    · exact (all _ inside).1
    · exact (all s inside).2 body within t deeper

/-- An empty block can be told. -/
theorem Tellable.nil : Tellable [] := tellable_iff.2 fun _ inside => absurd inside List.not_mem_nil

/-- A block that can be told can be told from the last statement to the first. -/
theorem Tellable.reverse {b : Block} (tellable : Tellable b) : Tellable b.reverse := by
  rw [tellable_iff] at tellable ⊢
  exact fun s inside => tellable s (List.mem_reverse.1 inside)

/-- A statement before a block can be told if both can. -/
theorem Tellable.cons {s : Stmt} {b : Block} (head : Tellable [s]) (rest : Tellable b) :
    Tellable (s :: b) := by
  rw [tellable_iff] at head rest ⊢
  intro t inside
  rcases List.mem_cons.1 inside with rfl | later
  · exact head t (List.mem_singleton_self t)
  · exact rest t later

/-- A statement alone can be told if it is tellable itself and its bodies can be told. -/
theorem Tellable.single {s : Stmt} (own : s.IsTellable)
    (bodies : ∀ body ∈ s.bodies, Tellable body) : Tellable [s] := by
  refine tellable_iff.2 fun t inside => ?_
  rw [List.mem_singleton.1 inside]
  exact ⟨own, bodies⟩

/-- A silent step can be told. -/
theorem tellable_tau : Tellable [.tau] := .single ⟨nofun, nofun⟩ (List.forall_mem_nil _)

/-- An action can be told. -/
theorem tellable_act (action : Action) : Tellable [.act action] :=
  .single ⟨nofun, nofun⟩ (List.forall_mem_nil _)

/-- An invocation can be told if its bindings are plain. -/
theorem tellable_invoke (mode : Mode) {i : Invocation} (plain : ∀ b ∈ i.bindings, b.IsPlain) :
    Tellable [.invoke mode i] := by
  refine .single ⟨Stmt.noConfusion, fun j found => ?_⟩ (List.forall_mem_nil _)
  cases found
  exact plain

/-- A branch can be told if its blocks can. -/
theorem tellable_branch (kind : BranchKind) {yes no : Block} (first : Tellable yes)
    (second : Tellable no) : Tellable [.branch kind yes no] :=
  .single ⟨nofun, nofun⟩ (List.forall_mem_cons.2 ⟨first, List.forall_mem_singleton.2 second⟩)

/-- A selection can be told if it has alternatives and they can. -/
theorem tellable_select {cases : List Block} (offers : cases ≠ []) (all : ∀ b ∈ cases, Tellable b) :
    Tellable [.select cases] :=
  .single ⟨fun none => offers (Stmt.select.inj none), nofun⟩ all

/-! ### Lists of names -/

/-- What one token can do to a list of names. -/
theorem NameList.advance_cases {list : NameList} {step : NameList.Step}
    (next : list.advance token = some step) :
    (list.place = .opening ∧ token = .mark .opening ∧ step = .more ⟨.first, list.names⟩) ∨
      ((list.place = .first ∨ list.place = .later) ∧
        ∃ name, token = .word name ∧ step = .more ⟨.separator, name :: list.names⟩) ∨
      ((list.place = .first ∨ list.place = .separator) ∧ token = .mark .closing ∧
        step = .closed list.names.reverse) ∨
      (list.place = .separator ∧ token = .mark .comma ∧ step = .more ⟨.later, list.names⟩) := by
  unfold NameList.advance at next
  split at next
  · next place => cases next; exact .inl ⟨place, rfl, rfl⟩
  · next name place => cases next; exact .inr (.inl ⟨.inl place, name, rfl, rfl⟩)
  · next place => cases next; exact .inr (.inr (.inl ⟨.inl place, rfl, rfl⟩))
  · next name place => cases next; exact .inr (.inl ⟨.inr place, name, rfl, rfl⟩)
  · next place => cases next; exact .inr (.inr (.inr ⟨place, rfl, rfl⟩))
  · next place => cases next; exact .inr (.inr (.inl ⟨.inr place, rfl, rfl⟩))
  · cases next

/-- Whether these tokens of a list of names have been read. -/
inductive NameList.Records : NameList → List Token → Prop
  /-- Nothing has been read. -/
  | opening : Records ⟨.opening, []⟩ []
  /-- The parenthesis has been read. -/
  | first : Records ⟨.first, []⟩ [.mark .opening]
  /-- Names and a comma have been read. -/
  | later {names : List Name} : names ≠ [] →
      Records ⟨.later, names⟩ (.mark .opening :: listed names.reverse ++ [.mark .comma])
  /-- Names have been read. -/
  | separator {names : List Name} : names ≠ [] →
      Records ⟨.separator, names⟩ (.mark .opening :: listed names.reverse)

/-- Whether these tokens have been read, up to the end of the list if it has ended. -/
def NameList.Step.Records : NameList.Step → List Token → Prop
  | more list, past => list.Records past
  | closed names, past => past = parenthesised names

/-- One more token is recorded. -/
theorem NameList.Records.advance {list : NameList} {step : NameList.Step}
    (records : list.Records past) (next : list.advance token = some step) :
    step.Records (past ++ [token]) := by
  rcases NameList.advance_cases next with ⟨place, rfl, rfl⟩ | ⟨place, name, rfl, rfl⟩ |
    ⟨place, rfl, rfl⟩ | ⟨place, rfl, rfl⟩
  · cases records with
    | opening => exact .first
    | _ => cases place
  · cases records with
    | first => exact .separator (List.cons_ne_nil _ _)
    | @later names filled =>
      have grown : .mark .opening :: listed names.reverse ++ [.mark .comma] ++ [.word name] =
          .mark .opening :: listed (name :: names).reverse := by
        rw [List.reverse_cons, listed_concat, if_neg (List.reverse_ne_nil_iff.2 filled)]
        rfl
      rw [grown]
      exact .separator (List.cons_ne_nil _ _)
    | _ => rcases place with place | place <;> cases place
  · cases records with
    | first | separator => rfl
    | _ => rcases place with place | place <;> cases place
  · cases records with
    | separator filled => exact .later filled
    | _ => cases place

/-! ### Statements without choices -/

/-- Whether these tokens of a statement have been read. -/
inductive Part.Records : Part → List Token → Prop
  /-- The keyword of a verb. -/
  | resource (verb : Verb) : Records (.resource verb) [.word verb.keyword]
  /-- The keyword of a new channel. -/
  | channel : Records .channel [.word "let"]
  /-- A new channel up to its name. -/
  | channelName (name : Name) : Records (.channelName name) [.word "let", .word name]
  /-- A new channel up to the equals sign. -/
  | channelEqual (name : Name) :
      Records (.channelEqual name) [.word "let", .word name, .mark .equal]
  /-- A new channel up to its second keyword. -/
  | channelKeyword (name : Name) :
      Records (.channelKeyword name) [.word "let", .word name, .mark .equal, .word "newchan"]
  /-- A new channel up to its element type. -/
  | channelElement (name element : Name) : Records (.channelElement name element)
      [.word "let", .word name, .mark .equal, .word "newchan", .word element]
  /-- A new channel up to the comma. -/
  | channelComma (name element : Name) : Records (.channelComma name element)
      [.word "let", .word name, .mark .equal, .word "newchan", .word element, .mark .comma]
  /-- The keyword of a new lock. -/
  | lock : Records .lock [.word "letsync"]
  /-- A new lock up to its name. -/
  | lockName (name : Name) : Records (.lockName name) [.word "letsync", .word name]
  /-- The keyword of an invocation. -/
  | target (mode : Mode) : Records (.target mode) [.word mode.keyword]
  /-- An invocation up to somewhere in what it hands over. -/
  | arguments (mode : Mode) (target : Name) {list : NameList} {tokens : List Token} :
      list.Records tokens →
      Records (.arguments mode target list) (.word mode.keyword :: .word target :: tokens)
  /-- The keyword of a selection. -/
  | selection : Records .selection [.word "select"]
  /-- A statement that can be told, up to the semicolon. -/
  | whole {s : Stmt} : Tellable [s] → Records (.whole s) s.opened

/-- Names in parentheses are handed over by an invocation that can be told. -/
theorem Part.Records.invoke (mode : Mode) (target : Name) (names : List Name) :
    Part.Records (.whole (.invoke mode ⟨target, names.map .plain⟩))
      (.word mode.keyword :: .word target :: parenthesised names) := by
  obtain ⟨plain, callers, -⟩ := Binding.map_plain names
  have opened : (Stmt.invoke mode ⟨target, names.map .plain⟩).opened =
      .word mode.keyword :: .word target :: parenthesised names := by
    rw [Stmt.opened, Invocation.tokens, callers]
  rw [← opened]
  exact .whole (tellable_invoke mode plain)

/-- One more token is recorded. -/
theorem Part.Records.advance {part after : Part} (records : part.Records past)
    (next : part.advance token = some after) : after.Records (past ++ [token]) := by
  cases records with
  | resource verb =>
    unfold Part.advance at next
    dsimp only at next
    split at next <;> cases next
    exact .whole (tellable_act (.perform verb _))
  | channel =>
    unfold Part.advance at next
    dsimp only at next
    split at next <;> cases next
    exact .channelName _
  | channelName name =>
    unfold Part.advance at next
    dsimp only at next
    split at next <;> cases next
    subst token
    exact .channelEqual name
  | channelEqual name =>
    unfold Part.advance at next
    dsimp only at next
    split at next <;> cases next
    subst token
    exact .channelKeyword name
  | channelKeyword name =>
    unfold Part.advance at next
    dsimp only at next
    split at next <;> cases next
    exact .channelElement name _
  | channelElement name element =>
    unfold Part.advance at next
    dsimp only at next
    split at next <;> cases next
    subst token
    exact .channelComma name element
  | channelComma name element =>
    unfold Part.advance at next
    dsimp only at next
    split at next <;> cases next
    exact .whole (tellable_act (.newChannel name element _))
  | lock =>
    unfold Part.advance at next
    dsimp only at next
    split at next <;> cases next
    exact .lockName _
  | lockName name =>
    unfold Part.advance at next
    dsimp only at next
    split at next
    · cases next
      subst token
      exact .whole (tellable_act (.newLock .mutex name))
    · split at next <;> cases next
      subst token
      exact .whole (tellable_act (.newLock .rwMutex name))
  | target mode =>
    unfold Part.advance at next
    dsimp only at next
    split at next <;> cases next
    exact .arguments mode _ .opening
  | arguments mode name list =>
    unfold Part.advance at next
    dsimp only at next
    split at next
    · next step =>
      cases next
      exact .arguments mode name (list.advance step)
    · next step =>
      cases next
      rw [List.cons_append, List.cons_append, list.advance step]
      exact .invoke mode name _
    · cases next
  | selection => cases next
  | whole tellable => cases next

/-! ### Choices -/

/-- Whether these tokens of an open choice have been read, the alternative being read left out. -/
inductive Choice.Records : Choice → List Token → Prop
  /-- The keyword of the choice. -/
  | yes (kind : BranchKind) : Records (.yes kind) [.word kind.keyword]
  /-- The first alternative and the keyword after it. -/
  | no (kind : BranchKind) {yes : Block} : Tellable yes →
      Records (.no kind yes) (.word kind.keyword :: yes.tokens ++ [.word "else"])
  /-- The alternatives before this one and the keyword of this one. -/
  | among {before : List Block} : (∀ block ∈ before, Tellable block) →
      Records (.among before)
        (.word "select" :: Choices.tokens before.reverse ++ [.word "case"])

/-- An open choice begins with its keyword. -/
theorem Choice.Records.head?_append {choice : Choice} (records : choice.Records past)
    (rest : List Token) : (past ++ rest).head? = some (.word choice.keyword) := by
  cases records <;> rfl

/-- Whether these tokens have been read, up to the end of the choice if it has ended. -/
def Choice.Step.Records : Choice.Step → List Token → Prop
  | more choice, past => choice.Records past
  | closed s, past => past = s.opened ∧ Tellable [s]

/-- The end of an alternative is recorded. -/
theorem Choice.Records.close {choice : Choice} {block : Block} {word : String}
    {step : Choice.Step} (records : choice.Records past) (tellable : Tellable block)
    (next : choice.close? block word = some step) :
    step.Records (past ++ block.tokens ++ [.word word]) := by
  cases records with
  | yes kind =>
    unfold Choice.close? at next
    dsimp only at next
    split at next <;> cases next
    subst word
    exact .no kind tellable
  | @no kind yes first =>
    unfold Choice.close? at next
    dsimp only at next
    split at next <;> cases next
    subst word
    refine ⟨?_, tellable_branch kind first tellable⟩
    simp only [Stmt.opened, List.cons_append, List.append_assoc, List.nil_append]
  | @among before others =>
    have all : ∀ b ∈ block :: before, Tellable b := by
      intro b inside
      rcases List.mem_cons.1 inside with rfl | earlier
      · exact tellable
      · exact others b earlier
    have grown : Choices.tokens (block :: before).reverse =
        Choices.tokens before.reverse ++ .word "case" :: block.tokens := by
      rw [List.reverse_cons, Choices.tokens_append]
      simp only [Choices.tokens, List.append_nil]
    unfold Choice.close? at next
    dsimp only at next
    split at next
    · cases next
      subst word
      have recorded := Choice.Records.among all
      rw [grown] at recorded
      simpa only [Choice.Step.Records, List.cons_append, List.append_assoc, List.nil_append]
        using recorded
    · split at next <;> cases next
      subst word
      refine ⟨?_, tellable_select (List.reverse_ne_nil_iff.2 (List.cons_ne_nil block before))
        fun body inside => all body (List.mem_reverse.1 inside)⟩
      simp only [Stmt.opened, grown, List.cons_append, List.append_assoc, List.nil_append]

/-- Whether these tokens of what a keyword begins have been read. -/
def Beginning.Records : Beginning → List Token → Prop
  | .part rest, past => rest.Records past
  | .choice opened, past => opened.Records past

/-- What a keyword begins records the keyword. -/
theorem records_of_beginning? {word : String} {begun : Beginning}
    (found : beginning? word = some begun) : begun.Records [.word word] := by
  unfold beginning? at found
  split at found
  · cases found
    exact Part.Records.whole tellable_tau
  · cases found
    exact Part.Records.channel
  · cases found
    exact Part.Records.lock
  · cases found
    exact Part.Records.target .call
  · cases found
    exact Part.Records.target .spawn
  · cases found
    exact Choice.Records.yes .condition
  · cases found
    exact Choice.Records.yes .loop
  · cases found
    exact Part.Records.selection
  · obtain ⟨verb, named, rfl⟩ := Option.map_eq_some_iff.1 found
    have same : verb.keyword = word := by simpa using List.find?_some named
    rw [← same]
    exact Part.Records.resource verb

/-- Whether these tokens of the open choices have been read, with the statements around them. -/
inductive RecordsFrames : List Frame → List Token → Prop
  /-- No choice is open. -/
  | nil : RecordsFrames [] []
  /-- The innermost choice stands in an alternative of the others. -/
  | cons {frames : List Frame} {outer own : List Token} (start : Position) {before : List Stmt}
      {choice : Choice} : RecordsFrames frames outer → Tellable before → choice.Records own →
      RecordsFrames (⟨start, before, choice⟩ :: frames)
        (outer ++ Block.tokens before.reverse ++ own)

/-! ### Definitions -/

/-- The tokens of the heading without the colon. -/
def Heading.tokens (h : Heading) : List Token :=
  .word "def" :: .word h.name :: parenthesised h.params

/-- Whether these tokens of a definition have been read. -/
inductive Stage.Records : Stage → List Token → Prop
  /-- Nothing has been read. -/
  | outside : Records .outside []
  /-- The keyword has been read. -/
  | begun (start : Position) : Records (.begun start) [.word "def"]
  /-- The keyword, the name and some of the parameters have been read. -/
  | params (start : Position) (name : Name) {list : NameList} {tokens : List Token} :
      list.Records tokens → Records (.params start name list) (.word "def" :: .word name :: tokens)
  /-- The heading has been read without the colon. -/
  | headed (h : Heading) : Records (.headed h) h.tokens
  /-- The heading and whole statements have been read. -/
  | sequence (h : Heading) {frames : List Frame} {outer : List Token} {before : List Stmt} :
      RecordsFrames frames outer → Tellable before →
      Records (.sequence h frames before)
        (h.tokens ++ .mark .colon :: outer ++ Block.tokens before.reverse)
  /-- The same and a part of a statement have been read, from its keyword on. -/
  | statement (h : Heading) {frames : List Frame} {outer own : List Token} {before : List Stmt}
      {start : Position} {word : String} {part : Part} :
      RecordsFrames frames outer → Tellable before → part.Records own →
      own.head? = some (.word word) →
      Records (.statement h frames before start word part)
        (h.tokens ++ .mark .colon :: outer ++ Block.tokens before.reverse ++ own)

/-- The end of an alternative is recorded. -/
theorem Stage.Records.closed? {h : Heading} {frames : List Frame} {before : List Stmt}
    {word : String} {after : Stage}
    (records : Stage.Records (.sequence h frames before) past)
    (next : Stage.advance.closed? h before word frames = some after) :
    after.Records (past ++ [.word word]) := by
  cases records with
  | sequence h inside tellable =>
    cases inside with
    | nil => cases next
    | @cons frames outer own start around choice outside earlier records =>
      unfold Stage.advance.closed? at next
      dsimp only at next
      split at next
      · next step =>
        cases next
        have grown := RecordsFrames.cons start outside earlier
          (records.close tellable.reverse step)
        simpa only [List.append_assoc, List.cons_append, List.reverse_nil, Block.tokens,
          List.append_nil] using Stage.Records.sequence h grown .nil
      · next step =>
        cases next
        obtain ⟨opened, whole⟩ := records.close tellable.reverse step
        have grown := Part.Records.whole whole
        rw [← opened] at grown
        have begins : (own ++ Block.tokens before.reverse ++ [Token.word word]).head? =
            some (.word choice.keyword) := by
          rw [List.append_assoc, records.head?_append]
        simpa only [List.append_assoc, List.cons_append] using
          Stage.Records.statement h outside earlier grown begins
      · cases next

/-- One more token is recorded. -/
theorem Stage.Records.advance {stage after : Stage} (records : stage.Records past)
    (next : stage.advance l = some after) : after.Records (past ++ [l.token]) := by
  cases records with
  | outside =>
    unfold Stage.advance at next
    dsimp only at next
    split at next <;> cases next
    rw [‹l.token = _›]
    exact .begun l.position
  | begun start =>
    unfold Stage.advance at next
    dsimp only at next
    split at next <;> cases next
    rw [‹l.token = _›]
    exact .params start _ .opening
  | params start name list =>
    unfold Stage.advance at next
    dsimp only at next
    split at next
    · next step =>
      cases next
      exact .params start name (list.advance step)
    · next step =>
      cases next
      rw [List.cons_append, List.cons_append, list.advance step]
      exact .headed _
    · cases next
  | headed h =>
    unfold Stage.advance at next
    dsimp only at next
    split at next <;> cases next
    rw [‹l.token = _›]
    simpa only [Block.tokens, List.reverse_nil, List.append_nil] using
      Stage.Records.sequence h .nil .nil
  | @sequence h frames outer before inside tellable =>
    unfold Stage.advance at next
    dsimp only at next
    split at next
    · next word same =>
      rw [same]
      split at next
      · next stage closes =>
        cases next
        exact (Stage.Records.sequence h inside tellable).closed? closes
      · split at next
        · next part found =>
          cases next
          have begun : part.Records [.word word] := records_of_beginning? found
          exact .statement h inside tellable begun rfl
        · next choice found =>
          cases next
          have begun : choice.Records [.word word] := records_of_beginning? found
          have grown := RecordsFrames.cons l.position inside tellable begun
          simpa only [List.append_assoc, List.cons_append, List.reverse_nil, Block.tokens,
            List.append_nil] using Stage.Records.sequence h grown .nil
        · cases next
    · cases next
  | @statement h frames outer own before start word part inside tellable records begins =>
    unfold Stage.advance at next
    dsimp only at next
    split at next
    · next s same =>
      cases next
      cases records with
      | whole whole =>
        rw [same]
        have grown := Stage.Records.sequence h inside (whole.cons tellable)
        simpa only [List.reverse_cons, Block.tokens_append, Block.tokens, List.append_assoc,
          List.cons_append, List.nil_append] using grown
    · next same =>
      cases next
      cases records with
      | selection =>
        rw [same]
        have grown := RecordsFrames.cons start inside tellable (.among (List.forall_mem_nil _))
        simpa only [List.append_assoc, List.cons_append, List.reverse_nil, Block.tokens,
          Choices.tokens, List.append_nil, List.nil_append] using
            Stage.Records.sequence h grown .nil
    · obtain ⟨more, step, rfl⟩ := Option.map_eq_some_iff.1 next
      rw [List.append_assoc]
      refine .statement h inside tellable (records.advance step) ?_
      rw [List.head?_append, begins]
      rfl

/-- A definition that can end consists of the tokens read. -/
theorem Stage.Records.definition {stage : Stage} {d : Definition} (records : stage.Records past)
    (ends : stage.definition? = some d) :
    past = d.function.tokens ∧ d.function.IsTellable := by
  cases records with
  | @sequence h frames outer before inside tellable =>
    cases inside with
    | nil =>
      cases ends
      obtain ⟨plain, -, callees⟩ := Binding.map_plain h.params
      refine ⟨?_, plain, tellable.reverse⟩
      simp only [Heading.definition, Func.tokens, callees, Heading.tokens, List.cons_append,
        List.append_assoc, List.nil_append]
    | cons => cases ends
  | _ => cases ends

/-! ### Texts -/

/-- Whether these tokens of a text have been read. -/
structure Reader.Records (r : Reader) (past : List Token) : Prop where
  /-- They are those of the complete definitions and of the stage. -/
  tokens : ∃ own, r.stage.Records own ∧
    past = (r.complete.reverse.flatMap fun d => d.function.tokens) ++ own
  /-- The complete definitions can be told. -/
  tellable : ∀ d ∈ r.complete, d.function.IsTellable

/-- At the start nothing has been read. -/
theorem Reader.records_start : Reader.start.Records [] where
  tokens := ⟨[], .outside, rfl⟩
  tellable _ inside := nomatch inside

/-- A definition that can end counts among the complete ones. -/
theorem Reader.Records.complete {r : Reader} {d : Definition} (records : r.Records past)
    (ends : r.stage.definition? = some d) :
    (past = (d :: r.complete).reverse.flatMap fun d => d.function.tokens) ∧
      ∀ e ∈ d :: r.complete, e.function.IsTellable := by
  obtain ⟨own, stage, rfl⟩ := records.tokens
  obtain ⟨rfl, tellable⟩ := stage.definition ends
  refine ⟨?_, fun e inside => ?_⟩
  · simp only [List.reverse_cons, List.flatMap_append, List.flatMap_cons, List.flatMap_nil,
      List.append_nil]
  · rcases List.mem_cons.1 inside with rfl | earlier
    · exact tellable
    · exact records.tellable e earlier

/-- A token begins the next definition, if the current one can end, or it belongs to the current
one. -/
theorem Reader.advance_cases {r after : Reader} (next : r.advance l = some after) :
    (l.token = .word "def" ∧ ∃ d, r.stage.definition? = some d ∧
        after = ⟨d :: r.complete, .begun l.position⟩) ∨
      ∃ stage, r.stage.advance l = some stage ∧ after = ⟨r.complete, stage⟩ := by
  unfold Reader.advance at next
  split at next
  · next begins =>
    cases next
    unfold Reader.begin? at begins
    split at begins
    · next same =>
      obtain ⟨d, ends, rfl⟩ := Option.map_eq_some_iff.1 begins
      exact .inl ⟨same, d, ends, rfl⟩
    · cases begins
  · obtain ⟨stage, step, rfl⟩ := Option.map_eq_some_iff.1 next
    exact .inr ⟨stage, step, rfl⟩

/-- One more token is recorded. -/
theorem Reader.Records.advance {r after : Reader} (records : r.Records past)
    (next : r.advance l = some after) : after.Records (past ++ [l.token]) := by
  rcases Reader.advance_cases next with ⟨same, d, ends, rfl⟩ | ⟨stage, step, rfl⟩
  · obtain ⟨rfl, tellable⟩ := records.complete ends
    exact ⟨⟨_, .begun l.position, by rw [same]⟩, tellable⟩
  · obtain ⟨own, here, rfl⟩ := records.tokens
    exact ⟨⟨_, here.advance step, List.append_assoc ..⟩, records.tellable⟩

/-- At the end of a text without a mistake all tokens are those of the definitions. -/
theorem Reader.Records.finish {r : Reader} {definitions : List Definition}
    (records : r.Records past) (fine : r.finish = ⟨definitions, none⟩) :
    (past = definitions.flatMap fun d => d.function.tokens) ∧
      ∀ d ∈ definitions, d.function.IsTellable := by
  unfold Reader.finish at fine
  split at fine
  · next outside =>
    cases fine
    obtain ⟨own, stage, rfl⟩ := records.tokens
    rw [outside] at stage
    cases stage
    exact ⟨List.append_nil _, fun d inside => records.tellable d (List.mem_reverse.1 inside)⟩
  · next ends _ =>
    cases fine
    obtain ⟨same, tellable⟩ := records.complete ends
    exact ⟨same, fun d inside => tellable d (List.mem_reverse.1 inside)⟩
  · cases fine

/-- A run without a mistake records every token. -/
theorem Reader.Records.run {r : Reader} {lexemes : List Lexeme} {definitions : List Definition}
    (records : r.Records past) (fine : r.run lexemes = ⟨definitions, none⟩) :
    (past ++ lexemes.map (·.token) = definitions.flatMap fun d => d.function.tokens) ∧
      ∀ d ∈ definitions, d.function.IsTellable := by
  induction lexemes generalizing r past with
  | nil =>
    rw [List.map_nil, List.append_nil]
    exact records.finish fine
  | cons l rest ih =>
    rw [Reader.run] at fine
    split at fine
    · next step =>
      rw [List.map_cons, ← List.singleton_append, ← List.append_assoc]
      exact ih (records.advance step) fine
    · cases fine

/-- A text that is read without a mistake consists of the tokens of its definitions, and each of
them can be told by a text. -/
theorem tokens_of_read {lexemes : List Lexeme} {definitions : List Definition}
    (fine : read lexemes = ⟨definitions, none⟩) :
    (lexemes.map (·.token) = definitions.flatMap fun d => d.function.tokens) ∧
      ∀ d ∈ definitions, d.function.IsTellable :=
  Reader.records_start.run fine

end BehaviouralTypes.Text
