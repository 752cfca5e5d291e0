import BehaviouralTypes.Proofs.Layout
import BehaviouralTypes.Proofs.Tokens
import BehaviouralTypes.Text.Printer

/-!
# Writing programs

The text of a program is a layout of its tokens, if every name in it is a word of a text: the
printer puts a delimiter after every word, be it a blank or a mark. `Text.Tells` says so of a text,
and each part of a program has one lemma that puts the part in front of a text
(`Text.tells_definitions` for all of it).
-/

namespace BehaviouralTypes

/-! ### Names -/

/-- The names on both sides of the binding. -/
def Binding.names (b : Binding) : List Name := [b.caller, b.callee]

/-- The names in the action. -/
def Action.names : Action → List Name
  | newChannel name element _ => [name, element]
  | newLock _ name => [name]
  | perform _ name => [name]

/-- The names in the statement itself, those in its bodies left out. -/
def Stmt.names : Stmt → List Name
  | .tau => []
  | .act action => action.names
  | .invoke _ invocation => invocation.target :: invocation.bindings.flatMap Binding.names
  | .branch _ _ _ => []
  | .select _ => []

/-- Every name in the function, at any depth. -/
def Func.names (f : Func) : List Name :=
  f.name :: (f.params.flatMap Binding.names ++ f.body.statements.flatMap Stmt.names)

/-! ### Writing tokens -/

namespace Text

variable {text rest : String} {tokens more : List Token}

/-- Whether the text is these tokens written out, comments aside, wherever it starts. -/
def Tells (text : String) (tokens : List Token) : Prop :=
  ∀ here, ∃ lexemes, Layout here text.toList lexemes ∧
    (withoutComments lexemes).map (·.token) = tokens

/-- A comma between words is a mark and a blank. -/
theorem comma_append (rest : String) : ", " ++ rest = "," ++ (" " ++ rest) := by
  have split : ", " = "," ++ " " := rfl
  rw [split, String.append_assoc]

/-- A word can end before a delimiter. -/
theorem delimited_cons {c : Char} {text : List Char} (delimiter : isDelimiter c = true) :
    Delimited (c :: text) := by
  intro d next
  cases next
  exact delimiter

/-- A word can end before a mark. -/
theorem delimited_mark (m : Mark) : Delimited (String.singleton m.char ++ text).toList := by
  rw [String.toList_append, String.toList_singleton]
  exact delimited_cons (isDelimiter_char m)

/-- A word can end before a blank. -/
theorem delimited_blank : Delimited (" " ++ text).toList := by
  rw [String.toList_append]
  exact delimited_cons rfl

namespace Tells

/-- An empty text tells no tokens. -/
theorem nil : Tells "" [] := fun here => ⟨[], .nil here, rfl⟩

/-- White space before a text tells nothing. -/
theorem white (c : Char) (blank : isWhite c = true) (rest : Tells text tokens) :
    Tells (String.singleton c ++ text) tokens := by
  intro here
  obtain ⟨lexemes, layout, same⟩ := rest (here.next c)
  rw [String.toList_append, String.toList_singleton]
  exact ⟨lexemes, .white blank layout, same⟩

/-- A blank before a text tells nothing. -/
theorem blank (rest : Tells text tokens) : Tells (" " ++ text) tokens := rest.white ' ' rfl

/-- A mark before a text tells the mark. -/
theorem mark (m : Mark) (rest : Tells text tokens) :
    Tells (String.singleton m.char ++ text) (.mark m :: tokens) := by
  intro here
  obtain ⟨lexemes, layout, same⟩ := rest (here.next m.char)
  rw [String.toList_append, String.toList_singleton]
  exact ⟨_, .mark m layout, congrArg (Token.mark m :: ·) same⟩

/-- A word before a text tells the word if it can end there. -/
theorem word {name : Name} (word : IsWord name.toList) (delimited : Delimited text.toList)
    (rest : Tells text tokens) : Tells (name ++ text) (.word name :: tokens) := by
  intro here
  obtain ⟨lexemes, layout, same⟩ := rest (here.after name.toList)
  have written := Layout.word word delimited layout
  rw [← String.toList_append, String.ofList_toList] at written
  exact ⟨_, written, congrArg (Token.word name :: ·) same⟩

/-- A number before a text tells the number if it can end there. -/
theorem number (value : UInt64) (delimited : Delimited text.toList) (rest : Tells text tokens) :
    Tells (toString value.toNat ++ text) (.number value :: tokens) := by
  intro here
  have digits : (toString value.toNat).toList = Nat.toDigits 10 value.toNat :=
    String.toList_ofList
  obtain ⟨lexemes, layout, same⟩ := rest (here.after (toString value.toNat).toList)
  rw [String.toList_append, digits] at *
  refine ⟨_, .number ?_ (fun c inside => ?_) ?_ delimited layout,
    congrArg (Token.number value :: ·) same⟩
  · exact Nat.toDigits_ne_nil
  · exact Nat.isDigit_of_mem_toDigits (by decide) (by decide) inside
  · exact Nat.ofDigitChars_toDigits (by decide) (by decide)

/-- A word with a blank after it. -/
theorem spaced {name : Name} (word : IsWord name.toList) (rest : Tells text tokens) :
    Tells (name ++ (" " ++ text)) (.word name :: tokens) :=
  rest.blank.word word delimited_blank

/-- A word with a mark after it. -/
theorem marked {name : Name} (word : IsWord name.toList) (m : Mark) (rest : Tells text tokens) :
    Tells (name ++ (String.singleton m.char ++ text)) (.word name :: .mark m :: tokens) :=
  (rest.mark m).word word (delimited_mark m)

/-- Names with commas and blanks between them. -/
theorem names {names : List Name} (words : ∀ name ∈ names, IsWord name.toList)
    (delimited : Delimited text.toList) (rest : Tells text tokens) :
    Tells (", ".intercalate names ++ text) (listed names ++ tokens) := by
  induction names with
  | nil => exact rest
  | cons name names ih =>
    obtain ⟨first, others⟩ := List.forall_mem_cons.1 words
    cases names with
    | nil => exact rest.word first delimited
    | cons next names =>
      rw [String.intercalate_cons_cons, String.append_assoc, String.append_assoc, comma_append]
      exact ((ih others).blank).marked first .comma

/-- Names in parentheses. -/
theorem parenthesised {names : List Name} (words : ∀ name ∈ names, IsWord name.toList)
    (rest : Tells text tokens) :
    Tells ("(" ++ (", ".intercalate names ++ (")" ++ text)))
      (Text.parenthesised names ++ tokens) := by
  have shape : Text.parenthesised names ++ tokens =
      .mark .opening :: (listed names ++ .mark .closing :: tokens) := by
    simp only [Text.parenthesised, List.cons_append, List.append_assoc, List.nil_append]
  rw [shape]
  exact ((rest.mark .closing).names words (delimited_mark .closing)).mark .opening

end Tells

/-! ### Writing statements -/

/-- The keyword of a verb is a word. -/
theorem isWord_verb (verb : Verb) : IsWord verb.keyword.toList := by
  cases verb <;> decide

/-- The keyword of an invocation is a word. -/
theorem isWord_mode (mode : Mode) : IsWord mode.keyword.toList := by
  cases mode <;> decide

/-- The keyword of a branch is a word. -/
theorem isWord_branch (kind : BranchKind) : IsWord kind.keyword.toList := by
  cases kind <;> decide

/-- The keyword of a lock is a word. -/
theorem isWord_lock (kind : LockKind) : IsWord kind.keyword.toList := by
  cases kind <;> decide

/-- The keyword of a new channel is a word. -/
theorem isWord_newchan : IsWord "newchan".toList := by decide

/-- An action tells its tokens. -/
theorem tells_action {action : Action} (words : ∀ name ∈ action.names, IsWord name.toList)
    (tells : Tells rest more) :
    Tells (action.text ++ (";" ++ rest)) (action.tokens ++ .mark .semicolon :: more) := by
  cases action with
  | newChannel name element capacity =>
    obtain ⟨own, type, -⟩ : IsWord name.toList ∧ IsWord element.toList ∧ True := by
      simpa [Action.names] using words
    have shape : (Action.newChannel name element capacity).text ++ (";" ++ rest) =
        "let" ++ (" " ++ (name ++ (" " ++ ("=" ++ (" " ++ ("newchan" ++ (" " ++ (element ++ ("," ++
          (" " ++ (toString capacity.toNat ++ (";" ++ rest)))))))))))) := by
      have first : "let " = "let" ++ " " := rfl
      have second : " = newchan " = " " ++ ("=" ++ (" " ++ ("newchan" ++ " "))) := rfl
      simp only [Action.text, first, second, comma_append, String.append_assoc,
        -String.reduceAppend]
    have number := (tells.mark .semicolon).number capacity (delimited_mark .semicolon)
    have second := (number.blank.marked type .comma).spaced isWord_newchan
    have first := (second.blank.mark .equal).blank.word own delimited_blank
    rw [shape]
    exact first.spaced (by decide)
  | newLock kind name =>
    have own : IsWord name.toList := words name List.mem_cons_self
    have shape : (Action.newLock kind name).text ++ (";" ++ rest) =
        "letsync" ++ (" " ++ (name ++ (" " ++ (kind.keyword ++ (";" ++ rest))))) := by
      have first : "letsync " = "letsync" ++ " " := rfl
      simp only [Action.text, first, String.append_assoc, -String.reduceAppend]
    rw [shape]
    exact (((tells.marked (isWord_lock kind) .semicolon).spaced own).spaced (by decide))
  | perform verb name =>
    have own : IsWord name.toList := words name List.mem_cons_self
    have shape : (Action.perform verb name).text ++ (";" ++ rest) =
        verb.keyword ++ (" " ++ (name ++ (";" ++ rest))) := by
      simp only [Action.text, String.append_assoc]
    rw [shape]
    exact (tells.marked own .semicolon).spaced (isWord_verb verb)

/-- An invocation tells its tokens. -/
theorem tells_invocation {i : Invocation} (target : IsWord i.target.toList)
    (words : ∀ b ∈ i.bindings, IsWord b.caller.toList) (tells : Tells rest more) :
    Tells (i.text ++ rest) (i.tokens ++ more) := by
  have shape : i.text ++ rest = i.target ++
      ("(" ++ (", ".intercalate (i.bindings.map (·.caller)) ++ (")" ++ rest))) := by
    simp only [Invocation.text, String.append_assoc]
  have callers : ∀ name ∈ i.bindings.map (·.caller), IsWord name.toList := by
    intro name inside
    obtain ⟨b, within, rfl⟩ := List.mem_map.1 inside
    exact words b within
  rw [shape]
  exact (tells.parenthesised callers).word target (delimited_mark .opening)

/-- Whether the block is written on the line of its choice as its tokens. -/
def BlockTells (b : Block) : Prop :=
  ∀ rest more, Tells rest more → Tells (b.nestedText ++ rest) (b.tokens ++ more)

/-- A word can end before a nested block. -/
theorem delimited_nestedText (b : Block) (delimited : Delimited rest.toList) :
    Delimited (b.nestedText ++ rest).toList := by
  cases b with
  | nil => exact delimited
  | cons s b =>
    rw [Block.nestedText, String.append_assoc, String.append_assoc]
    exact delimited_blank

/-- A word can end before alternatives. -/
theorem delimited_alternatives (cases : Choices) (delimited : Delimited rest.toList) :
    Delimited (cases.text ++ rest).toList := by
  cases cases with
  | nil => exact delimited
  | cons b cases =>
    have split : " case" = " " ++ "case" := rfl
    rw [Choices.text, split, String.append_assoc, String.append_assoc, String.append_assoc]
    exact delimited_blank

/-- Alternatives tell their tokens if each of them does. -/
theorem tells_alternatives {cases : Choices} (all : ∀ b ∈ cases, BlockTells b)
    (delimited : Delimited rest.toList) (tells : Tells rest more) :
    Tells (cases.text ++ rest) (cases.tokens ++ more) := by
  induction cases with
  | nil => exact tells
  | cons b cases ih =>
    obtain ⟨first, others⟩ := List.forall_mem_cons.1 all
    have shape : Choices.text (b :: cases) ++ rest =
        " " ++ ("case" ++ (b.nestedText ++ (Choices.text cases ++ rest))) := by
      have split : " case" = " " ++ "case" := rfl
      simp only [Choices.text, split, String.append_assoc, -String.reduceAppend]
    have keyword : IsWord "case".toList := by decide
    have ends : Delimited (b.nestedText ++ (Choices.text cases ++ rest)).toList :=
      delimited_nestedText b (delimited_alternatives cases delimited)
    rw [shape, Choices.tokens, List.cons_append, List.cons_append, List.append_assoc]
    exact ((first _ _ (ih others)).word keyword ends).blank

/-- A statement is written as its tokens if its bodies are. -/
theorem tells_statement {s : Stmt} (words : ∀ name ∈ s.names, IsWord name.toList)
    (bodies : ∀ body ∈ s.bodies, BlockTells body) (tells : Tells rest more) :
    Tells (s.text ++ rest) (s.opened ++ .mark .semicolon :: more) := by
  cases s with
  | tau =>
    have split : "tau;" = "tau" ++ ";" := rfl
    rw [Stmt.text, split, String.append_assoc]
    exact tells.marked (by decide) .semicolon
  | act action =>
    rw [Stmt.text, String.append_assoc]
    exact tells_action words tells
  | invoke mode invocation =>
    have shape : (Stmt.invoke mode invocation).text ++ rest =
        mode.keyword ++ (" " ++ (invocation.text ++ (";" ++ rest))) := by
      simp only [Stmt.text, String.append_assoc]
    obtain ⟨target, handed⟩ := List.forall_mem_cons.1 words
    have callers : ∀ b ∈ invocation.bindings, IsWord b.caller.toList := fun b inside =>
      handed _ (List.mem_flatMap.2 ⟨b, inside, List.mem_cons_self⟩)
    rw [shape]
    exact (tells_invocation target callers (tells.mark .semicolon)).spaced (isWord_mode mode)
  | branch kind yes no =>
    have shape : (Stmt.branch kind yes no).text ++ rest = kind.keyword ++ (Block.nestedText yes ++
        (" " ++ ("else" ++ (Block.nestedText no ++ (" " ++ ("endif" ++ (";" ++ rest))))))) := by
      have middle : " else" = " " ++ "else" := rfl
      have last : " endif;" = " " ++ ("endif" ++ ";") := rfl
      simp only [Stmt.text, middle, last, String.append_assoc, -String.reduceAppend]
    have middle : IsWord "else".toList := by decide
    have last : IsWord "endif".toList := by decide
    have second := bodies no (List.mem_cons_of_mem _ List.mem_cons_self) _ _
      (tells.marked last .semicolon).blank
    have first := bodies yes List.mem_cons_self _ _
      (second.word middle (delimited_nestedText no delimited_blank)).blank
    have tokens : (Stmt.branch kind yes no).opened ++ .mark .semicolon :: more =
        .word kind.keyword :: (Block.tokens yes ++ .word "else" :: (Block.tokens no ++
          .word "endif" :: .mark .semicolon :: more)) := by
      simp only [Stmt.opened, List.cons_append, List.append_assoc, List.nil_append]
    rw [shape, tokens]
    exact first.word (isWord_branch kind) (delimited_nestedText yes delimited_blank)
  | select cases =>
    have shape : (Stmt.select cases).text ++ rest =
        "select" ++ (Choices.text cases ++ (" " ++ ("endselect" ++ (";" ++ rest)))) := by
      have last : " endselect;" = " " ++ ("endselect" ++ ";") := rfl
      simp only [Stmt.text, last, String.append_assoc, -String.reduceAppend]
    have first : IsWord "select".toList := by decide
    have last : IsWord "endselect".toList := by decide
    have inner := tells_alternatives bodies delimited_blank (tells.marked last .semicolon).blank
    have tokens : (Stmt.select cases).opened ++ .mark .semicolon :: more =
        .word "select" :: (Choices.tokens cases ++
          .word "endselect" :: .mark .semicolon :: more) := by
      simp only [Stmt.opened, List.cons_append, List.append_assoc, List.nil_append]
    rw [shape, tokens]
    exact inner.word first (delimited_alternatives cases delimited_blank)

/-- A block whose names are words is written as its tokens. -/
theorem blockTells {b : Block}
    (words : ∀ s ∈ b.statements, ∀ name ∈ s.names, IsWord name.toList) : BlockTells b := by
  refine Block.induction_of_forall ?nil ?cons b words
  case nil => exact fun _ _ tells => tells
  case cons =>
    intro s b own bodies later text more tells
    have head := tells_statement own bodies (later text more tells)
    rw [Block.nestedText, Block.tokens, String.append_assoc, String.append_assoc,
      List.append_assoc]
    exact head.blank

/-! ### Writing definitions -/

/-- A block is written one statement on a line. -/
theorem tells_lines {b : Block}
    (words : ∀ s ∈ b.statements, ∀ name ∈ s.names, IsWord name.toList) (tells : Tells rest more) :
    Tells (String.join (b.map fun s => "\n    " ++ s.text) ++ rest) (b.tokens ++ more) := by
  induction b with
  | nil => exact tells
  | cons s b ih =>
    have shape : String.join ((s :: b).map fun s => "\n    " ++ s.text) ++ rest =
        "\n" ++ (" " ++ (" " ++ (" " ++ (" " ++ (s.text ++
          (String.join (b.map fun s => "\n    " ++ s.text) ++ rest)))))) := by
      have indent : "\n    " = "\n" ++ (" " ++ (" " ++ (" " ++ " "))) := rfl
      simp only [List.map_cons, String.join_cons, indent, String.append_assoc,
        -String.reduceAppend]
    have bodies : ∀ body ∈ s.bodies, BlockTells body := fun body inside =>
      blockTells fun t deep => words t (Block.mem_statements_of_body inside deep)
    have later := ih fun t deep => words t (Block.mem_statements_of_tail deep)
    have head := tells_statement (words s (Block.head_mem_statements s b)) bodies later
    rw [shape, Block.tokens, List.append_assoc, List.cons_append]
    exact head.blank.blank.blank.blank.white '\n' rfl

/-- A definition tells its tokens. -/
theorem tells_definition {f : Func} (words : ∀ name ∈ f.names, IsWord name.toList)
    (tells : Tells rest more) : Tells (f.text ++ rest) (f.tokens ++ more) := by
  have shape : f.text ++ rest = "def" ++ (" " ++ (f.name ++ ("(" ++
      (", ".intercalate (f.params.map (·.callee)) ++ (")" ++ (":" ++
        (String.join (f.body.map fun s => "\n    " ++ s.text) ++ rest))))))) := by
    have first : "def " = "def" ++ " " := rfl
    have last : "):" = ")" ++ ":" := rfl
    simp only [Func.text, first, last, String.append_assoc, -String.reduceAppend]
  obtain ⟨name, others⟩ := List.forall_mem_cons.1 words
  obtain ⟨params, nested⟩ := List.forall_mem_append.1 others
  have callees : ∀ name ∈ f.params.map (·.callee), IsWord name.toList := by
    intro name inside
    obtain ⟨b, within, rfl⟩ := List.mem_map.1 inside
    exact params _ (List.mem_flatMap.2 ⟨b, within, List.mem_cons_of_mem _ List.mem_cons_self⟩)
  have body := tells_lines (fun s deep name inside =>
    nested name (List.mem_flatMap.2 ⟨s, deep, inside⟩)) tells
  have keyword : IsWord "def".toList := by decide
  have headed := ((body.mark .colon).parenthesised callees).word name (delimited_mark .opening)
  have tokens : f.tokens ++ more = .word "def" :: .word f.name ::
      (Text.parenthesised (f.params.map (·.callee)) ++
        .mark .colon :: (f.body.tokens ++ more)) := by
    simp only [Func.tokens, List.cons_append, List.append_assoc]
  rw [shape, tokens]
  exact headed.spaced keyword

/-- Definitions are written one after the other. -/
theorem tells_definitions {functions : List Func}
    (words : ∀ f ∈ functions, ∀ name ∈ f.names, IsWord name.toList) (tells : Tells rest more) :
    Tells ("\n".intercalate (functions.map Func.text) ++ rest)
      (functions.flatMap Func.tokens ++ more) := by
  induction functions with
  | nil => exact tells
  | cons f functions ih =>
    obtain ⟨first, others⟩ := List.forall_mem_cons.1 words
    rw [List.flatMap_cons, List.append_assoc]
    cases functions with
    | nil => exact tells_definition first tells
    | cons next functions =>
      have later := (ih others).white '\n' rfl
      rw [List.map_cons, List.map_cons, String.intercalate_cons_cons, String.append_assoc,
        String.append_assoc]
      exact tells_definition first later

end Text

end BehaviouralTypes
