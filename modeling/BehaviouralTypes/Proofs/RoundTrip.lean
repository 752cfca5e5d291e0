import BehaviouralTypes.Proofs.Printing
import BehaviouralTypes.Proofs.Reading

/-!
# Reading what was written

A program whose names are words of a text and whose selections offer something is read back from
its own text, and what is read is its plain form. Nothing else is ever read: a program that some
text describes has such names, such selections and plain bindings only (`Program.ofText_text`).
-/

namespace BehaviouralTypes

open Text (Token Lexeme Layout IsWord Tells Tellable)

/-- Whether a text can describe the program, up to the bindings. -/
structure Program.IsPrintable (p : Program) : Prop where
  /-- Every name is a word of a text. -/
  names : ∀ f ∈ p.functions, ∀ name ∈ f.names, IsWord name.toList
  /-- Every selection offers something. -/
  offers : ∀ f ∈ p.functions, ∀ s ∈ f.body.statements, s ≠ .select []

/-- Whether every binding of the program has the same name on both sides. -/
structure Program.IsPlain (p : Program) : Prop where
  /-- Each parameter has. -/
  params : ∀ f ∈ p.functions, ∀ b ∈ f.params, b.IsPlain
  /-- Whatever is handed over has. -/
  handed : ∀ f ∈ p.functions, ∀ s ∈ f.body.statements, ∀ i, s.invocation? = some i →
    ∀ b ∈ i.bindings, b.IsPlain

/-! ### Names among the tokens -/

/-- Each name in a list is one of its tokens. -/
theorem Text.word_mem_listed {name : Name} {names : List Name} (inside : name ∈ names) :
    .word name ∈ listed names := by
  induction names with
  | nil => cases inside
  | cons first names ih =>
    cases names with
    | nil =>
      rw [List.mem_singleton.1 inside]
      exact List.mem_singleton_self _
    | cons next names =>
      rcases List.mem_cons.1 inside with rfl | later
      · exact List.mem_cons_self
      · exact List.mem_cons_of_mem _ (List.mem_cons_of_mem _ (ih later))

/-- Each name in parentheses is one of the tokens. -/
theorem Text.word_mem_parenthesised {name : Name} {names : List Name} (inside : name ∈ names) :
    .word name ∈ parenthesised names :=
  List.mem_cons_of_mem _ (List.mem_append_left _ (word_mem_listed inside))

/-- A name of plain bindings stands on either side of one of them. -/
theorem Binding.mem_map_of_mem_names {name : Name} {list : List Binding}
    (plain : ∀ b ∈ list, b.IsPlain) (inside : name ∈ list.flatMap Binding.names) :
    name ∈ list.map (·.caller) ∧ name ∈ list.map (·.callee) := by
  obtain ⟨b, within, side⟩ := List.mem_flatMap.1 inside
  have same : b.caller = b.callee := plain b within
  have either : name = b.caller := by
    rcases List.mem_cons.1 side with outer | inner
    · exact outer
    · rw [same]
      exact List.mem_singleton.1 inner
  exact ⟨List.mem_map.2 ⟨b, within, either.symm⟩,
    List.mem_map.2 ⟨b, within, same ▸ either.symm⟩⟩

/-- The names in a statement itself are among its tokens. -/
theorem Stmt.word_mem_opened {s : Stmt} {name : Name} (tellable : s.IsTellable)
    (inside : name ∈ s.names) : .word name ∈ s.opened := by
  cases s with
  | tau | branch | select => cases inside
  | act action =>
    cases action with
    | newChannel first element capacity =>
      rcases List.mem_cons.1 inside with rfl | later
      · exact List.mem_cons_of_mem _ List.mem_cons_self
      · obtain rfl := List.mem_singleton.1 later
        simp [Stmt.opened, Action.tokens]
    | newLock kind lock =>
      obtain rfl := List.mem_singleton.1 inside
      exact List.mem_cons_of_mem _ List.mem_cons_self
    | perform verb resource =>
      obtain rfl := List.mem_singleton.1 inside
      exact List.mem_cons_of_mem _ List.mem_cons_self
  | invoke mode invocation =>
    rcases List.mem_cons.1 inside with rfl | handed
    · exact List.mem_cons_of_mem _ List.mem_cons_self
    · have plain := tellable.plain invocation rfl
      exact List.mem_cons_of_mem _ (List.mem_cons_of_mem _
        (Text.word_mem_parenthesised (Binding.mem_map_of_mem_names plain handed).1))

/-- The tokens of an alternative are among those of the selection. -/
theorem Choices.tokens_subset {cases : Choices} {b : Block} (inside : b ∈ cases) :
    b.tokens ⊆ cases.tokens := by
  induction cases with
  | nil => cases inside
  | cons first cases ih =>
    intro token within
    rcases List.mem_cons.1 inside with rfl | later
    · exact List.mem_cons_of_mem _ (List.mem_append_left _ within)
    · exact List.mem_append_right _ (ih later within)

/-- The tokens of a body are among those of the statement. -/
theorem Stmt.tokens_subset_opened {s : Stmt} {body : Block} (inside : body ∈ s.bodies) :
    body.tokens ⊆ s.opened := by
  intro token within
  cases s with
  | tau | act | invoke => cases inside
  | branch kind yes no =>
    simp only [Stmt.bodies, List.mem_cons, List.not_mem_nil, or_false] at inside
    rcases inside with rfl | rfl
    · simp [Stmt.opened, within]
    · simp [Stmt.opened, within]
  | select cases =>
    have among : token ∈ Choices.tokens cases := Choices.tokens_subset inside within
    simp [Stmt.opened, among]

/-- The names in the statements of a block, at any depth, are among its tokens. -/
theorem Block.word_mem_tokens {b : Block} (tellable : Tellable b) :
    ∀ s ∈ b.statements, ∀ name ∈ s.names, .word name ∈ b.tokens := by
  refine Block.induction_of_forall ?nil ?cons b tellable
  case nil => exact fun _ deep => nomatch deep
  case cons =>
    intro t b own bodies rest s deep name inside
    rcases Block.mem_statements_cons.1 deep with rfl | ⟨body, within, deeper⟩ | later
    · exact List.mem_append_left _ (Stmt.word_mem_opened own inside)
    · have among := bodies body within s deeper name inside
      exact List.mem_append_left _ (Stmt.tokens_subset_opened within among)
    · have among := rest s later name inside
      exact List.mem_append_right _ (List.mem_cons_of_mem _ among)

/-- Every name in a function that a text can tell is among its tokens. -/
theorem Func.word_mem_tokens {f : Func} {name : Name} (tellable : f.IsTellable)
    (inside : name ∈ f.names) : .word name ∈ f.tokens := by
  rcases List.mem_cons.1 inside with rfl | others
  · exact List.mem_cons_of_mem _ List.mem_cons_self
  · rcases List.mem_append.1 others with param | nested
    · have among := (Binding.mem_map_of_mem_names tellable.params param).2
      exact List.mem_append_left _ (List.mem_cons_of_mem _ (List.mem_cons_of_mem _
        (Text.word_mem_parenthesised among)))
    · obtain ⟨s, deep, own⟩ := List.mem_flatMap.1 nested
      exact List.mem_append_right _ (List.mem_cons_of_mem _
        (Block.word_mem_tokens tellable.body s deep name own))

/-! ### Round trips -/

namespace Program

variable {p : Program} {text : String}

/-- A text describes a program when it is cut into tokens and these define the program. -/
theorem ofText_eq_ok_iff : ofText text = .ok p ↔ ∃ lexemes, Text.lex text = .ok lexemes ∧
    empty.extendBy (Text.withoutComments lexemes) = (p, none) := by
  unfold ofText extend
  cases Text.lex text with
  | error e => simp
  | ok lexemes =>
    simp only [Except.ok.injEq, exists_eq_left']
    generalize empty.extendBy (Text.withoutComments lexemes) = outcome
    rcases outcome with ⟨q, none | e⟩
    · simp
    · simp

/-- A text that is the tokens of a program describes its plain form. -/
theorem ofText_of_tells (offers : ∀ f ∈ p.functions, ∀ s ∈ f.body.statements, s ≠ .select [])
    (tells : Tells text p.tokens) : ofText text = .ok p.plain := by
  obtain ⟨lexemes, layout, tokens⟩ := tells .start
  exact ofText_eq_ok_iff.2 ⟨lexemes, Text.lex_eq_ok_iff.2 layout, extendBy_of_tokens offers tokens⟩

/-- A program whose names are words tells its tokens. -/
theorem tells_text (names : ∀ f ∈ p.functions, ∀ name ∈ f.names, IsWord name.toList) :
    Tells p.text p.tokens := by
  have tells := Text.tells_definitions names .nil
  rwa [String.append_empty, List.append_nil] at tells

/-- A line break at the end changes nothing. -/
theorem tells_fileText (names : ∀ f ∈ p.functions, ∀ name ∈ f.names, IsWord name.toList) :
    Tells p.fileText p.tokens := by
  unfold fileText
  split
  · next nothing =>
    have tells := tells_text names
    rwa [String.isEmpty_iff.1 nothing] at tells
  · have tells := Text.tells_definitions names (.white '\n' rfl .nil)
    rwa [List.append_nil] at tells

/-- A program that a text describes can be told by a text. -/
theorem isTellable_of_ofText (described : ofText text = .ok p) :
    ∀ f ∈ p.functions, f.IsTellable := by
  obtain ⟨lexemes, -, defined⟩ := ofText_eq_ok_iff.1 described
  exact (extendBy_empty_iff.1 defined).2

/-- A program that a text describes can be written again. -/
theorem isPrintable_of_ofText (described : ofText text = .ok p) : p.IsPrintable := by
  obtain ⟨lexemes, cut, defined⟩ := ofText_eq_ok_iff.1 described
  obtain ⟨tokens, tellable⟩ := extendBy_empty_iff.1 defined
  refine ⟨fun f inside name named => ?_, fun f inside s deep =>
    ((tellable f inside).body s deep).offers⟩
  have among : .word name ∈ p.tokens :=
    List.mem_flatMap.2 ⟨f, inside, Func.word_mem_tokens (tellable f inside) named⟩
  rw [← tokens] at among
  obtain ⟨l, kept, word⟩ := List.mem_map.1 among
  exact (Text.lex_eq_ok_iff.1 cut).isWord (List.mem_of_mem_filter kept) word

/-- A program that is read from a text is plain. -/
theorem isPlain_of_ofText (described : ofText text = .ok p) : p.IsPlain := by
  have tellable := isTellable_of_ofText described
  exact ⟨fun f inside => (tellable f inside).params,
    fun f inside s deep => ((tellable f inside).body s deep).plain⟩

/-- A text can tell a program that can be written and has plain bindings only. -/
theorem IsPrintable.isTellable (printable : p.IsPrintable) (plain : p.IsPlain) :
    ∀ f ∈ p.functions, f.IsTellable := fun f inside =>
  ⟨plain.params f inside, fun s deep =>
    ⟨printable.offers f inside s deep, plain.handed f inside s deep⟩⟩

/-- **Reading undoes writing.** A program is read back from its text and from its file up to the
names that a text does not show, so if every binding is plain it is the program itself. And
whatever a text describes can be written and has plain bindings only. -/
theorem ofText_text :
    (∀ p : Program, p.IsPrintable → ofText p.text = .ok p.plain ∧
      ofText p.fileText = .ok p.plain ∧ (p.IsPlain → p.plain = p)) ∧
    ∀ (text : String) (p : Program), ofText text = .ok p → p.IsPrintable ∧ p.IsPlain := by
  constructor
  · intro p printable
    refine ⟨ofText_of_tells printable.offers (tells_text printable.names),
      ofText_of_tells printable.offers (tells_fileText printable.names), fun plain => ?_⟩
    exact plain_eq_self (printable.isTellable plain)
  · intro text p described
    exact ⟨isPrintable_of_ofText described, isPlain_of_ofText described⟩

/-- Keywords as names, hyphens and a quote inside names, a loop with an empty alternative and the
largest capacity; the two names of a parameter and of an argument differ. -/
theorem ofText_text_keyword_names :
    let p : Program := ⟨[⟨"def", [⟨"out", "c--d"⟩], [
      .branch .loop [] [.invoke .spawn ⟨"else", [⟨"a'", "-b"⟩]⟩],
      .act (.newChannel "0x" "newchan" 18446744073709551615)]⟩], List.pairwise_singleton _ _⟩
    ofText p.fileText = .ok p.plain ∧ p.plain.IsPrintable ∧ p.plain.IsPlain := by
  intro p
  have printable : p.IsPrintable := ⟨by decide, by decide⟩
  have read := (ofText_text.1 p printable).2.1
  exact ⟨read, ofText_text.2 p.fileText p.plain read⟩

end Program

end BehaviouralTypes
