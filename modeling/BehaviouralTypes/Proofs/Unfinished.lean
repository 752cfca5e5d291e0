import BehaviouralTypes.Proofs.Grammar

/-!
# Where a text breaks off

A text that needs more tokens breaks off in some construct of the grammar. `Fragment.BreaksOff` has
one constructor for each place where that can happen, with the tokens of the construct up to there
and the words for what is missing, and one for each way in which a construct stands inside another.
It speaks of the tokens and the productions only. At the end of its tokens the reader tells what is
missing in these words (`Reader.Records.breaksOff`). The tokens break off with no other words
(`Fragment.BreaksOff.leads`), and the words name no place in the text
(`Fragment.BreaksOff.ne_placed`).
-/

namespace BehaviouralTypes.Text

variable {past ts us : List Token} {told : String}

/-! ### Ways to break off -/

/-- A construct that can break off. -/
inductive Fragment where
  /-- Definitions in order. -/
  | program
  /-- One definition. -/
  | definition
  /-- Names in parentheses. -/
  | names
  /-- Statements in order, the last of them broken off. -/
  | block
  /-- An alternative of a choice that one of these closers ends. -/
  | alternative (closers : String)
  /-- One statement. -/
  | statement

/-- Whether these tokens are the construct up to where it breaks off, and these are the words for
what is missing there. -/
inductive Fragment.BreaksOff : Fragment → List Token → String → Prop
  /-- The last definition breaks off. -/
  | program {functions : List Func} {ts us : List Token} {told : String} :
      (Phrase.program functions).Derives ts → BreaksOff .definition us told →
      BreaksOff .program (ts ++ us) told
  /-- The name of a definition is missing. -/
  | definitionName :
      BreaksOff .definition [.word "def"] "Expected a name but reached the end of input"
  /-- The parameters break off. -/
  | parameters (name : Name) {ts : List Token} {told : String} : BreaksOff .names ts told →
      BreaksOff .definition (.word "def" :: .word name :: ts) told
  /-- The colon after the parameters is missing. -/
  | colon (name : Name) {params : List Name} {ts : List Token} :
      (Phrase.names params).Derives ts →
      BreaksOff .definition
        (.word "def" :: .word name :: .mark .opening :: ts ++ [.mark .closing])
        s!"Expected ':' after the parameters of function {name}"
  /-- The body breaks off. -/
  | body (name : Name) {params : List Name} {ts us : List Token} {told : String} :
      (Phrase.names params).Derives ts → BreaksOff .block us told →
      BreaksOff .definition
        (.word "def" :: .word name :: .mark .opening :: ts ++ .mark .closing :: .mark .colon :: us)
        told
  /-- The parenthesis before the names is missing. -/
  | opening : BreaksOff .names [] "Expected '(' but reached the end of input"
  /-- The first name is missing. -/
  | firstName : BreaksOff .names [.mark .opening] "Expected a name but reached the end of input"
  /-- A comma or the closing parenthesis is missing after a name. -/
  | separator {names : List Name} {ts : List Token} : names ≠ [] →
      (Phrase.names names).Derives ts →
      BreaksOff .names (.mark .opening :: ts) "Unterminated list of names"
  /-- A name is missing after a comma. -/
  | laterName {names : List Name} {ts : List Token} : names ≠ [] →
      (Phrase.names names).Derives ts →
      BreaksOff .names (.mark .opening :: ts ++ [.mark .comma])
        "Expected a name but reached the end of input"
  /-- A statement breaks off after others. -/
  | block {b : Block} {ts us : List Token} {told : String} :
      (Phrase.block b).Derives ts → BreaksOff .statement us told →
      BreaksOff .block (ts ++ us) told
  /-- The closer of an alternative is missing. -/
  | closer (closers : String) {b : Block} {ts : List Token} : (Phrase.block b).Derives ts →
      BreaksOff (.alternative closers) ts s!"Expected {closers} but reached the end of input"
  /-- A statement of an alternative breaks off. -/
  | inside (closers : String) {ts : List Token} {told : String} : BreaksOff .block ts told →
      BreaksOff (.alternative closers) ts told
  /-- The semicolon is missing. -/
  | semicolon {keyword : String} {s : Stmt} {ts : List Token} :
      (Phrase.statement s).Derives (.word keyword :: ts ++ [.mark .semicolon]) →
      BreaksOff .statement (.word keyword :: ts) s!"Expected ';' after statement '{keyword}'"
  /-- The name of a resource, a channel, a lock or a target is missing after the keyword. -/
  | name {keyword : String} :
      keyword ∈ Grammar.verbs.map Prod.fst ++ Grammar.modes.map Prod.fst ++ ["let", "letsync"] →
      BreaksOff .statement [.word keyword] "Expected a name but reached the end of input"
  /-- The equals sign is missing after the name of a new channel. -/
  | equal (name : Name) :
      BreaksOff .statement [.word "let", .word name] s!"Expected '=' after let {name}"
  /-- The keyword of a new channel is missing after the equals sign. -/
  | newChannel (name : Name) :
      BreaksOff .statement [.word "let", .word name, .mark .equal]
        "Expected 'newchan' but reached the end of input"
  /-- The element type of a new channel is missing. -/
  | element (name : Name) :
      BreaksOff .statement [.word "let", .word name, .mark .equal, .word "newchan"]
        "Expected a name but reached the end of input"
  /-- The comma is missing after the element type. -/
  | comma (name element : Name) :
      BreaksOff .statement
        [.word "let", .word name, .mark .equal, .word "newchan", .word element]
        s!"Expected ',' after channel {element}"
  /-- The capacity is missing after the comma. -/
  | capacity (name element : Name) :
      BreaksOff .statement
        [.word "let", .word name, .mark .equal, .word "newchan", .word element, .mark .comma]
        s!"Expected the size of channel {element}"
  /-- The kind of a new lock is missing after its name. -/
  | lockKind (name : Name) :
      BreaksOff .statement [.word "letsync", .word name] s!"Expected the kind of lock {name}"
  /-- What an invocation hands over breaks off. -/
  | arguments {keyword : String} {mode : Mode} (target : Name) {ts : List Token} {told : String} :
      (keyword, mode) ∈ Grammar.modes → BreaksOff .names ts told →
      BreaksOff .statement (.word keyword :: .word target :: ts) told
  /-- The first block of a branch breaks off. -/
  | yes {keyword : String} {kind : BranchKind} {ts : List Token} {told : String} :
      (keyword, kind) ∈ Grammar.branches → BreaksOff (.alternative "'else'") ts told →
      BreaksOff .statement (.word keyword :: ts) told
  /-- The second block of a branch breaks off. -/
  | no {keyword : String} {kind : BranchKind} {b : Block} {ts us : List Token} {told : String} :
      (keyword, kind) ∈ Grammar.branches → (Phrase.block b).Derives ts →
      BreaksOff (.alternative "'endif'") us told →
      BreaksOff .statement (.word keyword :: ts ++ .word "else" :: us) told
  /-- The first alternative of a selection is missing. -/
  | firstCase :
      BreaksOff .statement [.word "select"] "Expected 'case' but reached the end of input"
  /-- The first alternative of a selection breaks off. -/
  | onlyCase {ts : List Token} {told : String} :
      BreaksOff (.alternative "'case' or 'endselect'") ts told →
      BreaksOff .statement (.word "select" :: .word "case" :: ts) told
  /-- An alternative of a selection breaks off after others. -/
  | laterCase {cases : List Block} {ts us : List Token} {told : String} :
      (Phrase.alternatives cases).Derives ts →
      BreaksOff (.alternative "'case' or 'endselect'") us told →
      BreaksOff .statement (.word "select" :: ts ++ .word "case" :: us) told

open Fragment (BreaksOff)

/-! ### What the reader tells -/

/-- A list of names breaks off where the reader is. -/
theorem NameList.Records.breaksOff {list : NameList} (records : list.Records past) :
    BreaksOff .names past list.expects.atEnd := by
  cases records with
  | opening => exact .opening
  | first => exact .firstName
  | later filled =>
    exact .laterName (List.reverse_ne_nil_iff.2 filled) (Phrase.derives_names _)
  | separator filled =>
    exact .separator (List.reverse_ne_nil_iff.2 filled) (Phrase.derives_names _)

/-- A statement without open alternatives breaks off where the reader is. -/
theorem Part.Records.breaksOff {part : Part} {word : String} (records : part.Records past)
    (begins : past.head? = some (.word word)) :
    BreaksOff .statement past (part.expects word).atEnd := by
  cases records with
  | resource verb => exact .name (by cases verb <;> decide)
  | channel => exact .name (by decide)
  | channelName name => exact .equal name
  | channelEqual name => exact .newChannel name
  | channelKeyword name => exact .element name
  | channelElement name element => exact .comma name element
  | channelComma name element => exact .capacity name element
  | lock => exact .name (by decide)
  | lockName name => exact .lockKind name
  | target mode => exact .name (by cases mode <;> decide)
  | arguments mode target names => exact .arguments target (mem_modes_iff.2 rfl) names.breaksOff
  | selection => exact .firstCase
  | @whole s tellable =>
    obtain ⟨rest, opened⟩ := List.head?_eq_some_iff.1 begins
    obtain ⟨own, bodies⟩ := tellable_iff.1 tellable s (List.mem_singleton_self s)
    have derived := Phrase.derives_statement own fun body within =>
      Phrase.derives_block (bodies body within)
    rw [opened] at derived ⊢
    exact .semicolon derived

/-- The words for the closers of the alternative that is being read. -/
def Choice.wanted : Choice → String
  | yes _ => "'else'"
  | no _ _ => "'endif'"
  | among _ => "'case' or 'endselect'"

/-- What is told where a closer is missing. -/
theorem Choice.atEnd_closers (choice : Choice) : (Expectation.statement choice.closers).atEnd =
    s!"Expected {choice.wanted} but reached the end of input" := by
  cases choice <;> rfl

/-- A choice breaks off in the alternative that is being read. -/
theorem Choice.Records.breaksOff {choice : Choice} (records : choice.Records past)
    (broken : BreaksOff (.alternative choice.wanted) us told) :
    BreaksOff .statement (past ++ us) told := by
  cases records with
  | yes kind => exact .yes (mem_branches_iff.2 rfl) broken
  | @no kind first tellable =>
    rw [List.append_assoc]
    exact .no (mem_branches_iff.2 rfl) (Phrase.derives_block tellable) broken
  | @among before tellable =>
    by_cases nothing : before = []
    · subst nothing
      exact .onlyCase broken
    · have offers := List.reverse_ne_nil_iff.2 nothing
      have derived := Phrase.derives_alternatives offers fun b inside =>
        Phrase.derives_block (tellable b (List.mem_reverse.1 inside))
      rw [List.append_assoc]
      exact .laterCase derived broken

/-- The body breaks off in the statement that breaks off inside the open choices. -/
theorem RecordsFrames.breaksOff {frames : List Frame} {outer : List Token} {before : List Stmt}
    (records : RecordsFrames frames outer) (tellable : Tellable before)
    (broken : BreaksOff .statement us told) :
    BreaksOff .block (outer ++ Block.tokens before.reverse ++ us) told := by
  induction records generalizing before us with
  | nil => exact .block (Phrase.derives_block tellable.reverse) broken
  | cons start _ earlier records ih =>
    have inner := Fragment.BreaksOff.block (Phrase.derives_block tellable.reverse) broken
    have grown := ih earlier (records.breaksOff (.inside _ inner))
    simpa only [List.append_assoc] using grown

/-- A definition breaks off where the reader is, if it cannot end there. -/
theorem Stage.Records.breaksOff {stage : Stage} (records : stage.Records past)
    (inside : stage ≠ .outside) (unfinished : stage.definition? = none) :
    BreaksOff .definition past stage.expects.atEnd := by
  have body : ∀ (h : Heading) {us : List Token} {told : String}, BreaksOff .block us told →
      BreaksOff .definition (h.tokens ++ .mark .colon :: us) told := by
    intro h us told broken
    have headed := Fragment.BreaksOff.body h.name (Phrase.derives_names h.params) broken
    simpa only [Heading.tokens, parenthesised, List.append_assoc, List.cons_append,
      List.nil_append] using headed
  cases records with
  | outside => exact absurd rfl inside
  | begun start => exact .definitionName
  | params start name names => exact .parameters name names.breaksOff
  | headed h => exact .colon h.name (Phrase.derives_names h.params)
  | @sequence h frames outer before opened tellable =>
    cases opened with
    | nil => cases unfinished
    | @cons frames outer own start around choice opened earlier records =>
      have missing : BreaksOff (.alternative choice.wanted) (Block.tokens before.reverse)
          (Expectation.statement choice.closers).atEnd := by
        rw [choice.atEnd_closers]
        exact .closer _ (Phrase.derives_block tellable.reverse)
      have broken := body h (opened.breaksOff earlier (records.breaksOff missing))
      rw [expects]
      simpa only [List.append_assoc, List.cons_append] using broken
  | statement h opened tellable records begins =>
    have broken := body h (opened.breaksOff tellable (records.breaksOff begins))
    rw [expects]
    simpa only [List.append_assoc, List.cons_append] using broken

/-- At the end of its tokens the reader tells what is missing where they break off. -/
theorem Reader.Records.breaksOff {r : Reader} {m : Mistake} (records : r.Records past)
    (mistake : r.finish.mistake? = some m) :
    m.found = none ∧ BreaksOff .program past m.expected.atEnd := by
  unfold Reader.finish at mistake
  split at mistake
  · cases mistake
  · cases mistake
  · next unfinished outside =>
    cases mistake
    obtain ⟨own, stage, rfl⟩ := records.tokens
    have tellable : ∀ f ∈ r.complete.reverse.map (·.function), f.IsTellable := by
      intro f inside
      obtain ⟨d, within, rfl⟩ := List.mem_map.1 inside
      exact records.tellable d (List.mem_reverse.1 within)
    have complete := Phrase.derives_program tellable
    rw [List.flatMap_map] at complete
    exact ⟨rfl, .program complete (stage.breaksOff outside unfinished)⟩

/-! ### The words are the only ones -/

/-- The list after these tokens, if none of them ends it. -/
def NameList.goOn (list : NameList) : List Token → Option NameList
  | [] => some list
  | token :: rest => match list.advance token with
    | some (.more list) => list.goOn rest
    | _ => none

/-- Names with commas between them leave the list at a separator. -/
theorem NameList.goOn_listed {place : ListPlace} {names : List Name} (done : List Name)
    (filled : names ≠ []) (allowed : place = .first ∨ place = .later) (more : List Token) :
    NameList.goOn ⟨place, done⟩ (listed names ++ more) =
      NameList.goOn ⟨.separator, names.reverse ++ done⟩ more := by
  induction names generalizing done place with
  | nil => exact absurd rfl filled
  | cons name rest ih =>
    cases rest with
    | nil => rcases allowed with rfl | rfl <;> rfl
    | cons next rest =>
      have later := ih (name :: done) (List.cons_ne_nil next rest) (.inr rfl)
      rw [List.reverse_cons, List.append_assoc, List.singleton_append, ← later]
      rcases allowed with rfl | rfl <;> rfl

/-- Inside the parameters of a definition the list goes on. -/
theorem Stage.reads_goOn {list after : NameList} {start : Position} {name : Name}
    (leads : list.goOn ts = some after) :
    Reads (· = .params start name after) ts (.params start name list) := by
  induction ts generalizing list with
  | nil =>
    cases leads
    exact rfl
  | cons token rest ih =>
    intro here
    unfold NameList.goOn at leads
    split at leads
    · next step => exact ⟨_, by simp only [Stage.advance, step], ih leads⟩
    · cases leads

/-- Inside what an invocation hands over the list goes on. -/
theorem Part.run_goOn {list after : NameList} (mode : Mode) (target : Name)
    (leads : list.goOn ts = some after) :
    (Part.arguments mode target list).run ts = some (.arguments mode target after) := by
  induction ts generalizing list with
  | nil =>
    cases leads
    rfl
  | cons token rest ih =>
    unfold NameList.goOn at leads
    split at leads
    · next step =>
      simp only [Part.run, Part.advance, step, Option.bind_some]
      exact ih leads
    · cases leads

/-- Whether the stage is inside a definition that cannot end there, and what is missing is told in
these words. -/
def Stage.Lacks (told : String) (stage : Stage) : Prop :=
  stage ≠ .outside ∧ stage.definition? = none ∧ stage.expects.atEnd = told

/-- A text cannot end where something is missing. -/
theorem Stage.Lacks.finish {stage : Stage} (lacks : stage.Lacks told)
    (complete : List Definition) :
    ∃ m, (Reader.mk complete stage).finish.mistake? = some m ∧ m.found = none ∧
      m.expected.atEnd = told := by
  obtain ⟨inside, unfinished, words⟩ := lacks
  refine ⟨stage.mistakeAtEnd, ?_, rfl, words⟩
  unfold Reader.finish
  split
  · next outside => exact absurd outside inside
  · next found _ =>
    rw [unfinished] at found
    cases found
  · rfl

/-- Whether the reader tells these words after these tokens of the construct, wherever it stands. -/
def Fragment.Leads : Fragment → List Token → String → Prop
  | program, ts, told => ∀ lexemes : List Lexeme, lexemes.map (·.token) = ts →
    ∃ m, (read lexemes).mistake? = some m ∧ m.found = none ∧ m.expected.atEnd = told
  | definition, ts, told => ∃ rest, ts = .word "def" :: rest ∧
    ∀ start, Stage.Reads (Stage.Lacks told) rest (.begun start)
  | names, ts, told => ∃ list, NameList.start.goOn ts = some list ∧ list.expects.atEnd = told
  | block, ts, told | statement, ts, told =>
    ∀ h frames before, Stage.Reads (Stage.Lacks told) ts (.sequence h frames before)
  | alternative closers, ts, told => ∀ h frames before start choice, choice.wanted = closers →
    Stage.Reads (Stage.Lacks told) ts (.sequence h (⟨start, before, choice⟩ :: frames) [])

/-- A statement without open alternatives leads to what is missing in it. -/
theorem Part.leads {word : String} {part after : Part}
    (begins : beginning? word = some (.part part)) (run : part.run ts = some after)
    (words : (after.expects word).atEnd = told) :
    Fragment.statement.Leads (.word word :: ts) told := by
  intro h frames before here
  refine ⟨_, Stage.advance_part here begins, (Stage.reads_part run).mono fun stage same => ?_⟩
  rw [same]
  exact ⟨by simp, rfl, words⟩

/-- The heading of a definition leads to what comes after it. -/
theorem Stage.reads_heading_of_derives {goal : Stage → Prop} {params : List Name}
    {start : Position} (name : Name) (derived : (Phrase.names params).Derives ts)
    (rest : Reads goal us (.headed ⟨start, name, params⟩)) :
    Reads goal (.word name :: .mark .opening :: ts ++ .mark .closing :: us) (.begun start) := by
  have tokens : ts = listed params := derived.tokens.1
  have reads := reads_heading name rest
  simpa only [tokens, parenthesised, List.cons_append, List.append_assoc, List.nil_append] using
    reads

/-- A block leads to what comes after it. -/
theorem Stage.reads_block_of_derives {goal : Stage → Prop} {b : Block} {h : Heading}
    {frames : List Frame} {before : List Stmt} (derived : (Phrase.block b).Derives ts)
    (rest : Reads goal us (.sequence h frames (b.plain.reverse ++ before))) :
    Reads goal (ts ++ us) (.sequence h frames before) := by
  obtain ⟨rfl, tellable⟩ := derived.tokens
  have offers : ∀ s ∈ b.statements, s ≠ .select [] := fun s deep => (tellable s deep).offers
  refine (blockReads offers h frames before).append fun stage same => ?_
  rw [same]
  exact rest

/-- Definitions and one that breaks off lead to what is missing in the last. -/
theorem Fragment.leads_program {functions : List Func}
    (complete : (Phrase.program functions).Derives ts) (last : Fragment.definition.Leads us told) :
    Fragment.program.Leads (ts ++ us) told := by
  obtain ⟨rest, rfl, definition⟩ := last
  intro lexemes tokens
  obtain ⟨first, tail, rfl, rfl, behind⟩ := List.map_eq_append_iff.1 tokens
  obtain ⟨⟨_, here⟩, own, rfl, rfl, rfl⟩ := List.map_eq_cons_iff.1 behind
  obtain ⟨definitions, whole, -⟩ := Phrase.derives_program_iff_read.1 complete
  obtain ⟨after, accepted, ends⟩ := Reader.exists_advanceAll (congrArg (·.mistake?) whole)
  obtain ⟨earlier, -, begins⟩ := Reader.advance_def here (ends.trans whole)
  obtain ⟨stage, lacks, run⟩ := Reader.run_of_reads earlier (definition here)
  have result :
      read (first ++ ⟨.word "def", here⟩ :: own) = (Reader.mk earlier stage).finish := by
    rw [read, Reader.run_append accepted, Reader.run, begins, ← List.append_nil own]
    exact run []
  rw [result]
  exact lacks.finish earlier

/-- A statement without its semicolon leads to the semicolon. -/
theorem Fragment.leads_semicolon {word : String} {s : Stmt}
    (derived : (Phrase.statement s).Derives (.word word :: ts ++ [.mark .semicolon])) :
    Fragment.statement.Leads (.word word :: ts) s!"Expected ';' after statement '{word}'" := by
  obtain ⟨tokens, tellable⟩ := derived.tokens
  have opened : .word word :: ts = s.opened := List.append_cancel_right tokens
  have begun := head?_opened s
  rw [← opened] at begun
  cases begun
  obtain ⟨own, bodies⟩ := tellable_iff.1 tellable s (List.mem_singleton_self s)
  rw [opened]
  refine fun h frames before => (reads_opened own.offers fun body within =>
    blockReads fun t deep => (bodies body within t deep).offers).mono ?_
  rintro _ ⟨start, rfl⟩
  refine ⟨by simp, rfl, ?_⟩
  rw [Stage.expects, Part.expects, keyword_plain]
  rfl

/-- A keyword that is followed by a name leads to the name. -/
theorem Fragment.leads_name {word : String}
    (listed : word ∈ Grammar.verbs.map Prod.fst ++ Grammar.modes.map Prod.fst ++
      ["let", "letsync"]) :
    Fragment.statement.Leads [.word word] "Expected a name but reached the end of input" := by
  rcases List.mem_append.1 listed with tabled | created
  · rcases List.mem_append.1 tabled with verb | mode
    · obtain ⟨⟨_, verb⟩, inside, rfl⟩ := List.mem_map.1 verb
      rw [mem_verbs_iff.1 inside]
      exact Part.leads (beginning?_verb _) rfl rfl
    · obtain ⟨⟨_, mode⟩, inside, rfl⟩ := List.mem_map.1 mode
      rw [mem_modes_iff.1 inside]
      exact Part.leads (beginning?_mode _) rfl rfl
  · simp only [List.mem_cons, List.not_mem_nil, or_false] at created
    rcases created with rfl | rfl
    · exact Part.leads rfl rfl rfl
    · exact Part.leads rfl rfl rfl

/-- Alternatives and one that breaks off lead to what is missing in the last. -/
theorem Fragment.leads_laterCase {cases : List Block}
    (derived : (Phrase.alternatives cases).Derives ts)
    (last : (Fragment.alternative "'case' or 'endselect'").Leads us told) :
    Fragment.statement.Leads (.word "select" :: ts ++ .word "case" :: us) told := by
  obtain ⟨rfl, offers, tellable⟩ := derived.tokens
  intro h frames before
  refine (reads_cases offers fun b inside =>
    blockReads fun s deep => (tellable b inside s deep).offers).append ?_
  rintro _ ⟨start, done, block, -, rfl⟩ _
  refine ⟨.sequence h (⟨start, before, .among (block :: done)⟩ :: frames) [], ?_,
    last h frames before start _ rfl⟩
  simp [Stage.advance, Stage.advance.closed?, Choice.close?]

/-- After tokens that break off, the reader tells the words for what is missing. -/
theorem Fragment.BreaksOff.leads {fragment : Fragment} (broken : fragment.BreaksOff ts told) :
    fragment.Leads ts told := by
  induction broken with
  | program complete _ ih => exact leads_program complete ih
  | definitionName => exact ⟨[], rfl, fun start => ⟨by simp, rfl, rfl⟩⟩
  | parameters name _ ih =>
    obtain ⟨list, goes, words⟩ := ih
    refine ⟨_, rfl, fun start _ => ⟨.params start name .start, rfl, ?_⟩⟩
    refine (Stage.reads_goOn goes).mono fun stage same => ?_
    rw [same]
    exact ⟨by simp, rfl, words⟩
  | colon name derived =>
    refine ⟨_, rfl, fun start => Stage.reads_heading_of_derives name derived ?_⟩
    exact ⟨by simp, rfl, rfl⟩
  | body name derived _ ih =>
    refine ⟨_, rfl, fun start => Stage.reads_heading_of_derives name derived fun _ => ?_⟩
    exact ⟨_, rfl, ih _ _ _⟩
  | opening => exact ⟨.start, rfl, rfl⟩
  | firstName => exact ⟨⟨.first, []⟩, rfl, rfl⟩
  | @separator names ts filled derived =>
    have tokens : ts = listed names := derived.tokens.1
    have goes := NameList.goOn_listed [] filled (.inl rfl) []
    rw [List.append_nil, ← tokens] at goes
    exact ⟨_, goes, rfl⟩
  | @laterName names ts filled derived =>
    have tokens : ts = listed names := derived.tokens.1
    have goes := NameList.goOn_listed [] filled (.inl rfl) [.mark .comma]
    rw [← tokens] at goes
    exact ⟨_, goes, rfl⟩
  | block derived _ ih =>
    exact fun h frames before => Stage.reads_block_of_derives derived (ih _ _ _)
  | @closer closers b ts derived =>
    rintro h frames before start choice rfl
    rw [← List.append_nil ts]
    exact Stage.reads_block_of_derives derived ⟨by simp, rfl, choice.atEnd_closers⟩
  | inside closers _ ih => exact fun h frames before start choice _ => ih _ _ _
  | semicolon derived => exact leads_semicolon derived
  | name listed => exact leads_name listed
  | equal name => exact Part.leads rfl rfl rfl
  | newChannel name => exact Part.leads rfl rfl rfl
  | element name => exact Part.leads rfl rfl rfl
  | comma name element => exact Part.leads rfl rfl rfl
  | capacity name element => exact Part.leads rfl rfl rfl
  | lockKind name => exact Part.leads rfl rfl rfl
  | arguments target listed _ ih =>
    obtain ⟨list, goes, rfl⟩ := ih
    rw [mem_modes_iff.1 listed]
    exact Part.leads (beginning?_mode _) (Part.run_goOn _ target goes) rfl
  | yes listed _ ih =>
    rw [mem_branches_iff.1 listed]
    exact fun h frames before here =>
      ⟨_, Stage.advance_choice here (beginning?_branch _), ih h frames before here _ rfl⟩
  | @no keyword kind b ts us told listed derived _ ih =>
    rw [mem_branches_iff.1 listed]
    refine fun h frames before here => ⟨_, Stage.advance_choice here (beginning?_branch _), ?_⟩
    refine Stage.reads_block_of_derives derived fun _ => ?_
    refine ⟨.sequence h (⟨here, before, .no kind b.plain⟩ :: frames) [], ?_,
      ih h frames before here _ rfl⟩
    simp [Stage.advance, Stage.advance.closed?, Choice.close?]
  | firstCase => exact Part.leads rfl rfl rfl
  | onlyCase _ ih =>
    refine fun h frames before here => ⟨_, Stage.advance_part here rfl, fun _ => ?_⟩
    exact ⟨_, rfl, ih h frames before here _ rfl⟩
  | laterCase derived _ ih => exact leads_laterCase derived ih

/-! ### No place is told -/

/-- A number is told without a blank. -/
theorem blank_not_mem_toString (n : Nat) : ' ' ∉ (toString n).toList := by
  intro inside
  have digits : (toString n).toList = Nat.toDigits 10 n := String.toList_ofList
  rw [digits] at inside
  have digit := Nat.isDigit_of_mem_toDigits (by decide) (by decide) inside
  cases digit

/-- A place is told with a colon and without a blank. -/
theorem Position.mem_text (p : Position) : ':' ∈ p.text.toList ∧ ' ' ∉ p.text.toList := by
  have written : p.text.toList =
      (toString p.line).toList ++ ':' :: (toString p.column).toList := by
    simp only [Position.text, String.toList_append, List.append_assoc]
    rfl
  rw [written]
  refine ⟨List.mem_append_right _ List.mem_cons_self, fun inside => ?_⟩
  rcases List.mem_append.1 inside with line | column
  · exact blank_not_mem_toString _ line
  · rcases List.mem_cons.1 column with sign | column
    · cases sign
    · exact blank_not_mem_toString _ column

/-- What ends in a blank and something without a colon does not end in a blank and a place. -/
theorem ne_placed_of_not_mem {front last : String} (plain : ':' ∉ last.toList) (other : String)
    (p : Position) : front ++ " " ++ last ≠ other ++ " " ++ p.text := by
  intro same
  obtain ⟨colon, blank⟩ := p.mem_text
  have lists : front.toList ++ ' ' :: last.toList = other.toList ++ ' ' :: p.text.toList := by
    have lists := congrArg String.toList same
    simpa using lists
  rcases List.append_eq_append_iff.1 lists with ⟨mid, -, rest⟩ | ⟨mid, -, rest⟩
  · cases mid with
    | nil => exact plain ((List.cons.inj rest).2 ▸ colon)
    | cons c mid =>
      rw [(List.cons.inj rest).2] at plain
      exact plain (List.mem_append_right _ (List.mem_cons_of_mem _ colon))
  · cases mid with
    | nil => exact plain ((List.cons.inj rest).2 ▸ colon)
    | cons c mid =>
      rw [(List.cons.inj rest).2] at blank
      exact blank (List.mem_append_right _ List.mem_cons_self)

/-- Words for what is missing end in a blank and something without a colon, if no word of the text
has a colon in it. -/
theorem Fragment.BreaksOff.exists_last {fragment : Fragment} (broken : fragment.BreaksOff ts told)
    (plain : ∀ word, .word word ∈ ts → ':' ∉ word.toList) :
    ∃ front last, told = front ++ " " ++ last ∧ ':' ∉ last.toList := by
  induction broken with
  | definitionName | firstName | laterName | name | element =>
    exact ⟨"Expected a name but reached the end of", "input", rfl, by decide⟩
  | opening => exact ⟨"Expected '(' but reached the end of", "input", rfl, by decide⟩
  | separator => exact ⟨"Unterminated list of", "names", rfl, by decide⟩
  | newChannel => exact ⟨"Expected 'newchan' but reached the end of", "input", rfl, by decide⟩
  | firstCase => exact ⟨"Expected 'case' but reached the end of", "input", rfl, by decide⟩
  | closer closers =>
    refine ⟨s!"Expected {closers} but reached the end of", "input", ?_, by decide⟩
    have blank : " but reached the end of input" =
        " but reached the end of" ++ " " ++ "input" := rfl
    change "Expected " ++ closers ++ " but reached the end of input" = _
    rw [blank]
    simp only [String.append_assoc]
    rfl
  | @semicolon keyword s ts derived =>
    refine ⟨"Expected ';' after statement", "'" ++ keyword ++ "'", ?_, ?_⟩
    · have blank : "Expected ';' after statement '" =
          "Expected ';' after statement" ++ " " ++ "'" := rfl
      change "Expected ';' after statement '" ++ keyword ++ "'" = _
      rw [blank]
      simp only [String.append_assoc]
    · simpa using plain keyword List.mem_cons_self
  | colon name =>
    exact ⟨"Expected ':' after the parameters of function", name, rfl, plain name (by simp)⟩
  | equal name => exact ⟨"Expected '=' after let", name, rfl, plain name (by simp)⟩
  | comma name element =>
    exact ⟨"Expected ',' after channel", element, rfl, plain element (by simp)⟩
  | capacity name element =>
    exact ⟨"Expected the size of channel", element, rfl, plain element (by simp)⟩
  | lockKind name => exact ⟨"Expected the kind of lock", name, rfl, plain name (by simp)⟩
  | program _ _ ih | parameters _ _ ih | body _ _ _ ih | block _ _ ih | inside _ _ ih
  | arguments _ _ _ ih | yes _ _ ih | no _ _ _ ih | onlyCase _ ih | laterCase _ _ ih =>
    exact ih fun word within => plain word (by simp [within])

/-- Words for what is missing do not end in a place, if no word of the text has a colon in it. -/
theorem Fragment.BreaksOff.ne_placed {fragment : Fragment} (broken : fragment.BreaksOff ts told)
    (plain : ∀ word, .word word ∈ ts → ':' ∉ word.toList) (front : String) (p : Position) :
    told ≠ front ++ " " ++ p.text := by
  obtain ⟨own, last, rfl, free⟩ := broken.exists_last plain
  exact ne_placed_of_not_mem free front p

end BehaviouralTypes.Text
