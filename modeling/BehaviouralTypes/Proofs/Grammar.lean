import BehaviouralTypes.Proofs.Reading

/-!
# The grammar of texts

The grammar of the textual form, one constructor for each production:

```
program    := definition*
definition := "def" NAME "(" [NAME ("," NAME)*] ")" ":" statement*
statement  := "let" NAME "=" "newchan" NAME "," INT ";"
            | ("send" | "recv" | "close") NAME ";"
            | "tau" ";"
            | ("call" | "spawn") NAME "(" [NAME ("," NAME)*] ")" ";"
            | "if" statement* "else" statement* "endif" ";"
            | "iffor" statement* "else" statement* "endif" ";"
            | "select" ("case" statement*)+ "endselect" ";"
            | "letmem" NAME ";" | ("read" | "write") NAME ";"
            | "letsync" NAME ("mutex" | "rwmutex") ";"
            | ("lock" | "unlock" | "rlock" | "runlock") NAME ";"
```

A NAME is any word, keywords included, and an INT is any number. What a phrase of the grammar
yields is a function of its tree (`Text.Phrase.derives_program_iff`), so reading a text is the
search for a tree with these tokens, and there is at most one (`Program.extendBy_iff_derives`).
-/

namespace BehaviouralTypes.Text

/-! ### Productions -/

namespace Grammar

/-- The keywords of the statements that name one resource. -/
def verbs : List (String × Verb) :=
  [("send", .send), ("recv", .recv), ("close", .close), ("letmem", .newMemory), ("read", .read),
    ("write", .write), ("lock", .lock), ("unlock", .unlock), ("rlock", .readLock),
    ("runlock", .readUnlock)]

/-- The keywords of the invocations. -/
def modes : List (String × Mode) := [("call", .call), ("spawn", .spawn)]

/-- The keywords of the choices between two blocks. -/
def branches : List (String × BranchKind) := [("if", .condition), ("iffor", .loop)]

/-- The keywords of the locks. -/
def locks : List (String × LockKind) := [("mutex", .mutex), ("rwmutex", .rwMutex)]

end Grammar

/-- A phrase of the grammar: what kind of phrase it is, and its tree. -/
inductive Phrase where
  /-- Definitions in order. -/
  | program (functions : List Func)
  /-- One definition. -/
  | definition (f : Func)
  /-- What stands between the parentheses of a definition or an invocation. -/
  | names (names : List Name)
  /-- Statements in order. -/
  | block (b : Block)
  /-- One statement. -/
  | statement (s : Stmt)
  /-- The alternatives of a selection. -/
  | alternatives (cases : List Block)

/-- Whether the grammar derives these tokens for the phrase. -/
inductive Phrase.Derives : Phrase → List Token → Prop
  /-- A program may be empty. -/
  | noDefinition : Derives (.program []) []
  /-- A program is a definition and a program. -/
  | definitions {f : Func} {functions : List Func} {ts us : List Token} :
      Derives (.definition f) ts → Derives (.program functions) us →
      Derives (.program (f :: functions)) (ts ++ us)
  /-- A definition has a name, parameters and a body. -/
  | definition (name : Name) {params : List Name} {body : Block} {ts us : List Token} :
      Derives (.names params) ts → Derives (.block body) us →
      Derives (.definition ⟨name, params.map .plain, body⟩)
        (.word "def" :: .word name :: .mark .opening :: ts ++
          .mark .closing :: .mark .colon :: us)
  /-- A list of names may be empty. -/
  | noName : Derives (.names []) []
  /-- A list of names ends with a name. -/
  | lastName (name : Name) : Derives (.names [name]) [.word name]
  /-- A comma stands between names. -/
  | moreNames (name : Name) {next : Name} {rest : List Name} {ts : List Token} :
      Derives (.names (next :: rest)) ts →
      Derives (.names (name :: next :: rest)) (.word name :: .mark .comma :: ts)
  /-- A block may be empty. -/
  | noStatement : Derives (.block []) []
  /-- A block is a statement and a block. -/
  | statements {s : Stmt} {b : Block} {ts us : List Token} :
      Derives (.statement s) ts → Derives (.block b) us → Derives (.block (s :: b)) (ts ++ us)
  /-- A new channel has a name, an element type and a capacity. -/
  | newChannel (name element : Name) (capacity : UInt64) :
      Derives (.statement (.act (.newChannel name element capacity)))
        [.word "let", .word name, .mark .equal, .word "newchan", .word element, .mark .comma,
          .number capacity, .mark .semicolon]
  /-- The silent step. -/
  | tau : Derives (.statement .tau) [.word "tau", .mark .semicolon]
  /-- A verb names one resource. -/
  | perform {keyword : String} {verb : Verb} (name : Name) : (keyword, verb) ∈ Grammar.verbs →
      Derives (.statement (.act (.perform verb name)))
        [.word keyword, .word name, .mark .semicolon]
  /-- A new lock has a name and a kind. -/
  | newLock {keyword : String} {kind : LockKind} (name : Name) :
      (keyword, kind) ∈ Grammar.locks →
      Derives (.statement (.act (.newLock kind name)))
        [.word "letsync", .word name, .word keyword, .mark .semicolon]
  /-- An invocation has a target and hands over names, each to the same name. -/
  | invoke {keyword : String} {mode : Mode} (target : Name) {names : List Name}
      {ts : List Token} : (keyword, mode) ∈ Grammar.modes → Derives (.names names) ts →
      Derives (.statement (.invoke mode ⟨target, names.map .plain⟩))
        (.word keyword :: .word target :: .mark .opening :: ts ++
          [.mark .closing, .mark .semicolon])
  /-- A branch has two blocks. -/
  | branch {keyword : String} {kind : BranchKind} {yes no : Block} {ts us : List Token} :
      (keyword, kind) ∈ Grammar.branches → Derives (.block yes) ts → Derives (.block no) us →
      Derives (.statement (.branch kind yes no))
        (.word keyword :: ts ++ .word "else" :: us ++ [.word "endif", .mark .semicolon])
  /-- A selection has alternatives. -/
  | select {cases : List Block} {ts : List Token} : Derives (.alternatives cases) ts →
      Derives (.statement (.select cases))
        (.word "select" :: ts ++ [.word "endselect", .mark .semicolon])
  /-- There is at least one alternative. -/
  | lastAlternative {b : Block} {ts : List Token} : Derives (.block b) ts →
      Derives (.alternatives [b]) (.word "case" :: ts)
  /-- Another alternative comes first. -/
  | moreAlternatives {b : Block} {cases : List Block} {ts us : List Token} :
      Derives (.block b) ts → Derives (.alternatives cases) us →
      Derives (.alternatives (b :: cases)) (.word "case" :: ts ++ us)

/-! ### Keywords -/

/-- The table of verbs has each verb with its keyword. -/
theorem mem_verbs_iff {keyword : String} {verb : Verb} :
    (keyword, verb) ∈ Grammar.verbs ↔ keyword = verb.keyword := by
  cases verb <;> simp [Grammar.verbs, Verb.keyword]

/-- The table of invocations has each mode with its keyword. -/
theorem mem_modes_iff {keyword : String} {mode : Mode} :
    (keyword, mode) ∈ Grammar.modes ↔ keyword = mode.keyword := by
  cases mode <;> simp [Grammar.modes, Mode.keyword]

/-- The table of branches has each kind with its keyword. -/
theorem mem_branches_iff {keyword : String} {kind : BranchKind} :
    (keyword, kind) ∈ Grammar.branches ↔ keyword = kind.keyword := by
  cases kind <;> simp [Grammar.branches, BranchKind.keyword]

/-- The table of locks has each kind with its keyword. -/
theorem mem_locks_iff {keyword : String} {kind : LockKind} :
    (keyword, kind) ∈ Grammar.locks ↔ keyword = kind.keyword := by
  cases kind <;> simp [Grammar.locks, LockKind.keyword]

/-! ### What a phrase yields -/

namespace Phrase

/-- The tokens of the phrase. -/
def tokens : Phrase → List Token
  | program functions => functions.flatMap Func.tokens
  | definition f => f.tokens
  | names list => listed list
  | block b => b.tokens
  | statement s => s.opened ++ [.mark .semicolon]
  | alternatives cases => Choices.tokens cases

/-- Whether a text can tell the tree of the phrase. -/
def IsTellable : Phrase → Prop
  | program functions => ∀ f ∈ functions, f.IsTellable
  | definition f => f.IsTellable
  | names _ => True
  | block b => Tellable b
  | statement s => Tellable [s]
  | alternatives cases => cases ≠ [] ∧ ∀ b ∈ cases, Tellable b

/-- Plain bindings are names on both sides. -/
theorem exists_map_plain {list : List Binding} (plain : ∀ b ∈ list, b.IsPlain) :
    ∃ names : List Name, list = names.map Binding.plain :=
  ⟨list.map (·.caller), by
    rw [List.map_map]
    exact (Binding.map_plain_eq_self Binding.caller (fun _ => .inl rfl) plain).symm⟩

/-- What is derived is what the tree yields, and a text can tell the tree. -/
theorem Derives.tokens {phrase : Phrase} {ts : List Token} (derived : phrase.Derives ts) :
    ts = phrase.tokens ∧ phrase.IsTellable := by
  induction derived with
  | noDefinition => exact ⟨rfl, List.forall_mem_nil _⟩
  | @definitions f functions ts us _ _ first rest =>
    refine ⟨?_, List.forall_mem_cons.2 ⟨first.2, rest.2⟩⟩
    rw [first.1, rest.1]
    rfl
  | @definition name params body ts us _ _ names block =>
    obtain ⟨plain, -, callees⟩ := Binding.map_plain params
    refine ⟨?_, plain, block.2⟩
    rw [names.1, block.1]
    simp only [Phrase.tokens, Func.tokens, parenthesised, callees, List.cons_append,
      List.append_assoc, List.nil_append]
  | noName => exact ⟨rfl, trivial⟩
  | lastName name => exact ⟨rfl, trivial⟩
  | moreNames name _ names =>
    refine ⟨?_, trivial⟩
    rw [names.1]
    rfl
  | noStatement => exact ⟨rfl, .nil⟩
  | statements _ _ head rest =>
    refine ⟨?_, head.2.cons rest.2⟩
    rw [head.1, rest.1]
    simp only [Phrase.tokens, Block.tokens, List.append_assoc, List.cons_append, List.nil_append]
  | newChannel name element capacity => exact ⟨rfl, tellable_act _⟩
  | tau => exact ⟨rfl, tellable_tau⟩
  | perform name listed =>
    rw [mem_verbs_iff.1 listed]
    exact ⟨rfl, tellable_act _⟩
  | newLock name listed =>
    rw [mem_locks_iff.1 listed]
    exact ⟨rfl, tellable_act _⟩
  | @invoke keyword mode target names ts listed _ inner =>
    obtain ⟨plain, callers, -⟩ := Binding.map_plain names
    rw [mem_modes_iff.1 listed, inner.1]
    refine ⟨?_, tellable_invoke mode plain⟩
    simp only [Phrase.tokens, Stmt.opened, Invocation.tokens, parenthesised, callers,
      List.cons_append, List.append_assoc, List.nil_append]
  | @branch keyword kind yes no ts us listed _ _ first second =>
    rw [mem_branches_iff.1 listed, first.1, second.1]
    refine ⟨?_, tellable_branch kind first.2 second.2⟩
    simp only [Phrase.tokens, Stmt.opened, List.cons_append, List.append_assoc, List.nil_append]
  | @select cases ts _ inner =>
    rw [inner.1]
    refine ⟨?_, tellable_select inner.2.1 inner.2.2⟩
    simp only [Phrase.tokens, Stmt.opened, List.cons_append, List.append_assoc, List.nil_append]
  | @lastAlternative b ts _ block =>
    rw [block.1]
    refine ⟨?_, List.cons_ne_nil b [], List.forall_mem_singleton.2 block.2⟩
    simp only [Phrase.tokens, Choices.tokens, List.append_nil]
  | @moreAlternatives b cases ts us _ _ block inner =>
    rw [block.1, inner.1]
    exact ⟨rfl, List.cons_ne_nil b cases, List.forall_mem_cons.2 ⟨block.2, inner.2.2⟩⟩

/-! ### Every tree that can be told is derived -/

/-- Every list of names is derived. -/
theorem derives_names (list : List Name) : (names list).Derives (listed list) := by
  induction list with
  | nil => exact .noName
  | cons name rest ih =>
    cases rest with
    | nil => exact .lastName name
    | cons next rest => exact .moreNames name ih

/-- Alternatives are derived if there are some and each of them is. -/
theorem derives_alternatives {cases : List Block} (offers : cases ≠ [])
    (all : ∀ b ∈ cases, (block b).Derives b.tokens) :
    (alternatives cases).Derives (Choices.tokens cases) := by
  induction cases with
  | nil => exact absurd rfl offers
  | cons b cases ih =>
    have head := all b List.mem_cons_self
    cases cases with
    | nil =>
      rw [Choices.tokens, Choices.tokens, List.append_nil]
      exact .lastAlternative head
    | cons next cases =>
      exact .moreAlternatives head (ih (List.cons_ne_nil next cases) fun c inside =>
        all c (List.mem_cons_of_mem b inside))

/-- A statement that can be told is derived if its bodies are. -/
theorem derives_statement {s : Stmt} (own : s.IsTellable)
    (bodies : ∀ body ∈ s.bodies, (block body).Derives body.tokens) :
    (statement s).Derives (s.opened ++ [.mark .semicolon]) := by
  cases s with
  | tau => exact .tau
  | act action =>
    cases action with
    | newChannel name element capacity => exact .newChannel name element capacity
    | newLock kind name => exact .newLock name (mem_locks_iff.2 rfl)
    | perform verb name => exact .perform name (mem_verbs_iff.2 rfl)
  | invoke mode invocation =>
    obtain ⟨target, bindings⟩ := invocation
    obtain ⟨names, rfl⟩ := exists_map_plain (own.plain _ rfl)
    have keyword : (mode.keyword, mode) ∈ Grammar.modes := mem_modes_iff.2 rfl
    have derived := Derives.invoke target keyword (derives_names names)
    simpa only [Stmt.opened, Invocation.tokens, parenthesised, (Binding.map_plain names).2.1,
      List.cons_append, List.append_assoc, List.nil_append] using derived
  | branch kind yes no =>
    have keyword : (kind.keyword, kind) ∈ Grammar.branches := mem_branches_iff.2 rfl
    have derived := Derives.branch keyword (bodies yes List.mem_cons_self)
      (bodies no (List.mem_cons_of_mem _ List.mem_cons_self))
    simpa only [Stmt.opened, List.cons_append, List.append_assoc, List.nil_append] using derived
  | select cases =>
    have offers : cases ≠ [] := fun none => own.offers (congrArg Stmt.select none)
    have derived := Derives.select (derives_alternatives offers bodies)
    simpa only [Stmt.opened, List.cons_append, List.append_assoc, List.nil_append] using derived

/-- A block that can be told is derived. -/
theorem derives_block {b : Block} (tellable : Tellable b) : (block b).Derives b.tokens := by
  refine Block.induction_of_forall ?nil ?cons b tellable
  case nil => exact .noStatement
  case cons =>
    intro s b own bodies later
    have derived := Derives.statements (derives_statement own bodies) later
    simpa only [Block.tokens, List.append_assoc, List.cons_append, List.nil_append] using derived

/-- A definition that can be told is derived. -/
theorem derives_definition {f : Func} (tellable : f.IsTellable) :
    (definition f).Derives f.tokens := by
  obtain ⟨name, params, body⟩ := f
  obtain ⟨names, rfl⟩ := exists_map_plain tellable.params
  have derived := Derives.definition name (derives_names names) (derives_block tellable.body)
  simpa only [Func.tokens, parenthesised, (Binding.map_plain names).2.2, List.cons_append,
    List.append_assoc, List.nil_append] using derived

/-- Definitions that can be told are derived in order. -/
theorem derives_program {functions : List Func} (tellable : ∀ f ∈ functions, f.IsTellable) :
    (program functions).Derives (functions.flatMap Func.tokens) := by
  induction functions with
  | nil => exact .noDefinition
  | cons f functions ih =>
    exact .definitions (derives_definition (tellable f List.mem_cons_self))
      (ih fun g inside => tellable g (List.mem_cons_of_mem f inside))

/-- A program is derived from its tokens and no others, and only if a text can tell it. -/
theorem derives_program_iff {functions : List Func} {ts : List Token} :
    (program functions).Derives ts ↔
      ts = functions.flatMap Func.tokens ∧ ∀ f ∈ functions, f.IsTellable := by
  constructor
  · exact fun derived => derived.tokens
  · rintro ⟨rfl, tellable⟩
    exact derives_program tellable

/-- Tokens are derived for the functions that are read from them without a mistake. -/
theorem derives_program_iff_read {lexemes : List Lexeme} {functions : List Func} :
    (program functions).Derives (lexemes.map (·.token)) ↔
      ∃ definitions, read lexemes = ⟨definitions, none⟩ ∧
        definitions.map (·.function) = functions := by
  constructor
  · intro derived
    obtain ⟨tokens, tellable⟩ := derives_program_iff.1 derived
    obtain ⟨definitions, whole, plain⟩ := read_of_tokens
      (fun f inside s deep => ((tellable f inside).body s deep).offers) tokens
    exact ⟨definitions, whole, plain.trans (Func.map_plain_eq_self tellable)⟩
  · rintro ⟨definitions, whole, rfl⟩
    obtain ⟨tokens, tellable⟩ := tokens_of_read whole
    refine derives_program_iff.2 ⟨?_, fun f inside => ?_⟩
    · rw [tokens, List.flatMap_map]
    · obtain ⟨d, within, rfl⟩ := List.mem_map.1 inside
      exact tellable d within

end Phrase

end BehaviouralTypes.Text

namespace BehaviouralTypes.Program

open Text (Lexeme Phrase Token)

/-- **Reading is deriving.** Tokens define a program without a mistake exactly if the grammar
derives them for the functions of the program, which as functions of a program have different
names. The grammar is unambiguous: it derives the same tokens for at most one list of functions,
whether their names differ or not. -/
theorem extendBy_iff_derives :
    (∀ (lexemes : List Lexeme) (p : Program), empty.extendBy lexemes = (p, none) ↔
      (Phrase.program p.functions).Derives (lexemes.map (·.token))) ∧
    ∀ (tokens : List Token) (functions others : List Func),
      (Phrase.program functions).Derives tokens → (Phrase.program others).Derives tokens →
      functions = others := by
  refine ⟨fun lexemes p => ?_, fun tokens functions others first second => ?_⟩
  · rw [extendBy_empty_iff, Phrase.derives_program_iff]
    rfl
  · -- Whatever is read from the tokens, at any places, is both.
    have reading : ∀ functions : List Func, (Phrase.program functions).Derives tokens →
        (Text.read (tokens.map (Lexeme.mk · .start))).definitions.map (·.function) =
          functions := by
      intro functions derived
      obtain ⟨yields, tellable⟩ := Phrase.derives_program_iff.1 derived
      have placed : (tokens.map (Lexeme.mk · .start)).map (·.token) =
          functions.flatMap Func.tokens := by
        rw [List.map_map, ← yields]
        exact List.map_id tokens
      obtain ⟨definitions, read, plain⟩ := Text.read_of_tokens
        (fun f inside s deep => ((tellable f inside).body s deep).offers) placed
      rw [read, plain, Func.map_plain_eq_self tellable]
    rw [← reading functions first, reading others second]

/-- A definition whose parameter and argument are keywords, with an empty alternative. -/
theorem extendBy_iff_derives_keywords :
    let tokens : List Token := [.word "def", .word "f", .mark .opening, .word "def",
      .mark .closing, .mark .colon, .word "select", .word "case", .word "case", .word "call",
      .word "f", .mark .opening, .word "else", .mark .closing, .mark .semicolon,
      .word "endselect", .mark .semicolon]
    let functions : List Func := [⟨"f", [.plain "def"],
      [.select [[], [.invoke .call ⟨"f", [.plain "else"]⟩]]]⟩]
    (∃ p, empty.extendBy (tokens.map (Lexeme.mk · .start)) = (p, none) ∧
      p.functions = functions) ∧
    ∀ others, (Phrase.program others).Derives tokens → others = functions := by
  intro tokens functions
  have call : (Phrase.statement (.invoke .call ⟨"f", ["else"].map .plain⟩)).Derives _ :=
    .invoke "f" (Text.mem_modes_iff.2 rfl) (.lastName "else")
  have selection : (Phrase.statement (.select _)).Derives _ :=
    .select (.moreAlternatives .noStatement (.lastAlternative (.statements call .noStatement)))
  have derived : (Phrase.program functions).Derives tokens :=
    .definitions (.definition "f" (.lastName "def") (.statements selection .noStatement))
      .noDefinition
  have nodup : (functions.map (·.name)).Nodup := List.pairwise_singleton _ _
  refine ⟨⟨⟨functions, nodup⟩, (extendBy_iff_derives.1 _ _).2 derived, rfl⟩, fun others other => ?_⟩
  exact extendBy_iff_derives.2 tokens others functions other derived

end BehaviouralTypes.Program
