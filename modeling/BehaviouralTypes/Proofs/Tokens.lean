import BehaviouralTypes.Proofs.Nesting
import BehaviouralTypes.Text.Keyword
import BehaviouralTypes.Text.Token

/-!
# Programs as tokens

The tokens that stand for a program in a text: a definition shows the inner names of its parameters
and an invocation the outer names. So the tokens do not tell a binding with two names from a plain
one, and what they do tell is the plain form of the program (`Block.plain`). Everything here is a
recursion over the tree alone, apart from how texts are cut and read.
-/

namespace BehaviouralTypes

open Text (Token)

/-! ### Tokens -/

/-- The names with commas between them. -/
def Text.listed (names : List Name) : List Token :=
  (names.map Token.word).intersperse (.mark .comma)

/-- The names with commas between them and parentheses around them. -/
def Text.parenthesised (names : List Name) : List Token :=
  .mark .opening :: Text.listed names ++ [.mark .closing]

/-- The target of the invocation and the outer names of what it hands over. -/
def Invocation.tokens (i : Invocation) : List Token :=
  .word i.target :: Text.parenthesised (i.bindings.map (·.caller))

/-- The action without the mark that ends a statement. -/
def Action.tokens : Action → List Token
  | newChannel name element capacity =>
    [.word "let", .word name, .mark .equal, .word "newchan", .word element, .mark .comma,
      .number capacity]
  | newLock kind name => [.word "letsync", .word name, .word kind.keyword]
  | perform verb name => [.word verb.keyword, .word name]

mutual

/-- The statement without the mark that ends it. -/
def Stmt.opened : Stmt → List Token
  | .tau => [.word "tau"]
  | .act action => action.tokens
  | .invoke mode invocation => .word mode.keyword :: invocation.tokens
  | .branch kind yes no =>
    .word kind.keyword :: Block.tokens yes ++ .word "else" :: Block.tokens no ++ [.word "endif"]
  | .select cases => .word "select" :: Choices.tokens cases ++ [.word "endselect"]

/-- The statements of the block, each with the mark that ends it. -/
def Block.tokens : Block → List Token
  | [] => []
  | s :: block => s.opened ++ .mark .semicolon :: Block.tokens block

/-- The alternatives, each after its keyword. -/
def Choices.tokens : Choices → List Token
  | [] => []
  | block :: cases => .word "case" :: Block.tokens block ++ Choices.tokens cases

end

/-- The definition. -/
def Func.tokens (f : Func) : List Token :=
  .word "def" :: .word f.name :: Text.parenthesised (f.params.map (·.callee)) ++
    .mark .colon :: f.body.tokens

/-- The definitions in order. -/
def Program.tokens (p : Program) : List Token := p.functions.flatMap Func.tokens

/-- The tokens of a block are those of its parts. -/
theorem Block.tokens_append (b c : Block) : Block.tokens (b ++ c) = b.tokens ++ c.tokens := by
  induction b with
  | nil => rfl
  | cons s b ih => simp only [List.cons_append, Block.tokens, ih, List.append_assoc]

/-- The tokens of alternatives are those of their parts. -/
theorem Choices.tokens_append (cases others : Choices) :
    Choices.tokens (cases ++ others) = cases.tokens ++ others.tokens := by
  induction cases with
  | nil => rfl
  | cons block cases ih =>
    simp only [List.cons_append, Choices.tokens, ih, List.append_assoc]

/-- A name at the end of a list comes after a comma, unless it is the only one. -/
theorem Text.listed_concat (names : List Name) (last : Name) :
    Text.listed (names ++ [last]) =
      (if names = [] then [] else Text.listed names ++ [.mark .comma]) ++ [.word last] := by
  induction names with
  | nil => rfl
  | cons name rest ih =>
    cases rest with
    | nil => rfl
    | cons next rest =>
      have later : Text.listed (next :: rest ++ [last]) =
          Text.listed (next :: rest) ++ [.mark .comma] ++ [.word last] := ih
      have first : ∀ more : List Name, Text.listed (name :: next :: more) =
          .word name :: .mark .comma :: Text.listed (next :: more) := fun _ => rfl
      simp only [List.cons_append, first, reduceCtorEq, if_false] at later ⊢
      rw [later]

/-! ### Plain programs -/

/-- Whether the binding has the same name on both sides. -/
def Binding.IsPlain (b : Binding) : Prop := b.caller = b.callee

/-- A name on both sides is a plain binding. -/
theorem Binding.isPlain_plain (name : Name) : (Binding.plain name).IsPlain := rfl

/-- Names on both sides are plain bindings with these names. -/
theorem Binding.map_plain (names : List Name) :
    (∀ b ∈ names.map Binding.plain, b.IsPlain) ∧
      (names.map Binding.plain).map (·.caller) = names ∧
      (names.map Binding.plain).map (·.callee) = names := by
  refine ⟨fun b inside => ?_, ?_, ?_⟩
  · obtain ⟨name, -, rfl⟩ := List.mem_map.1 inside
    exact isPlain_plain name
  · rw [List.map_map]
    exact List.map_id names
  · rw [List.map_map]
    exact List.map_id names

/-- The invocation with the outer name of every binding on both sides. -/
def Invocation.plain (i : Invocation) : Invocation :=
  ⟨i.target, i.bindings.map fun b => .plain b.caller⟩

mutual

/-- The statement with plain invocations. -/
def Stmt.plain : Stmt → Stmt
  | .tau => .tau
  | .act action => .act action
  | .invoke mode invocation => .invoke mode invocation.plain
  | .branch kind yes no => .branch kind (Block.plain yes) (Block.plain no)
  | .select cases => .select (Choices.plain cases)

/-- The block with plain invocations. -/
def Block.plain : Block → Block
  | [] => []
  | s :: block => s.plain :: Block.plain block

/-- The alternatives with plain invocations. -/
def Choices.plain : Choices → Choices
  | [] => []
  | block :: cases => Block.plain block :: Choices.plain cases

end

/-- The function with plain invocations and the inner name of every parameter on both sides. -/
def Func.plain (f : Func) : Func :=
  ⟨f.name, f.params.map fun b => .plain b.callee, f.body.plain⟩

/-- The program with plain invocations and plain parameters. -/
def Program.plain (p : Program) : Program :=
  ⟨p.functions.map Func.plain, by
    have same : (p.functions.map Func.plain).map (·.name) = p.functions.map (·.name) := by
      rw [List.map_map]
      rfl
    rw [same]
    exact p.nodup⟩

/-- Alternatives are made plain one by one. -/
theorem Choices.plain_eq (cases : Choices) : cases.plain = cases.map Block.plain := by
  induction cases with
  | nil => rfl
  | cons block cases ih => rw [Choices.plain, ih, List.map_cons]

/-- Bindings that are plain already do not change. -/
theorem Binding.map_plain_eq_self {list : List Binding} (side : Binding → Name)
    (either : ∀ b : Binding, side b = b.caller ∨ side b = b.callee)
    (plain : ∀ b ∈ list, b.IsPlain) : list.map (fun b => .plain (side b)) = list := by
  have same : list.map (fun b => Binding.plain (side b)) = list.map id := by
    refine List.map_congr_left fun b inside => ?_
    have equal : b.caller = b.callee := plain b inside
    rcases either b with outer | inner
    · rw [outer, Binding.plain]
      exact congrArg (Binding.mk b.caller) equal
    · rw [inner, Binding.plain]
      exact congrArg (Binding.mk · b.callee) equal.symm
  rw [same, List.map_id]

/-- What a text can tell of a statement itself: its bindings are plain, and if it is a selection
there is something to select. -/
structure Stmt.IsTellable (s : Stmt) : Prop where
  /-- There is an alternative to select. -/
  offers : s ≠ .select []
  /-- Each binding of an invocation is plain. -/
  plain : ∀ i, s.invocation? = some i → ∀ b ∈ i.bindings, b.IsPlain

/-- What a text can tell of a function. -/
structure Func.IsTellable (f : Func) : Prop where
  /-- Each parameter is plain. -/
  params : ∀ b ∈ f.params, b.IsPlain
  /-- Each statement can be told, at any depth. -/
  body : ∀ s ∈ f.body.statements, s.IsTellable

/-- A block of tellable statements is plain already. -/
theorem Block.plain_eq_self {b : Block} (tellable : ∀ s ∈ b.statements, s.IsTellable) :
    b.plain = b := by
  refine Block.induction_of_forall ?nil ?cons b tellable
  case nil => rfl
  case cons =>
    intro s b own inner rest
    have head : s.plain = s := by
      cases s with
      | tau => rfl
      | act action => rfl
      | invoke mode invocation =>
        rw [Stmt.plain, Invocation.plain, Binding.map_plain_eq_self Binding.caller
          (fun _ => .inl rfl) (own.plain invocation rfl)]
      | branch kind yes no =>
        have first := inner yes List.mem_cons_self
        have second := inner no (List.mem_cons_of_mem _ List.mem_cons_self)
        rw [Stmt.plain, first, second]
      | select cases =>
        have same : cases.map Block.plain = cases.map id := List.map_congr_left inner
        rw [Stmt.plain, Choices.plain_eq, same, List.map_id]
    rw [Block.plain, head, rest]

/-- A function that a text can tell is plain already. -/
theorem Func.plain_eq_self {f : Func} (tellable : f.IsTellable) : f.plain = f := by
  rw [Func.plain, Block.plain_eq_self tellable.body,
    Binding.map_plain_eq_self Binding.callee (fun _ => .inr rfl) tellable.params]

/-- Functions that a text can tell are plain already. -/
theorem Func.map_plain_eq_self {functions : List Func}
    (tellable : ∀ f ∈ functions, f.IsTellable) : functions.map Func.plain = functions := by
  have same : functions.map Func.plain = functions.map id :=
    List.map_congr_left fun f inside => plain_eq_self (tellable f inside)
  rw [same, List.map_id]

end BehaviouralTypes
