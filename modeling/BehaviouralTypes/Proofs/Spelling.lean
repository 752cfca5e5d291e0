import BehaviouralTypes.Proofs.Layout

/-!
# How tokens are spelled and placed

The lexical format said without cutting a text: each token has its spellings, white space stands
between them as one likes and has to stand in a few places, and the place of a token is told by
counting in the text before it. A text is cut into tokens exactly if it is such a sequence of
spellings and each token has its place (`Text.lex_eq_ok_iff_wellSpaced`). `Text.Layout` says the
same from character to character, and both directions go through it.
-/

namespace BehaviouralTypes.Text

/-! ### Places -/

/-- The place behind a text: one line more than it has line feeds, and one column more than it has
characters behind the last of them. -/
def Position.behind (before : List Char) : Position where
  line := before.count '\n' + 1
  column := (before.reverse.takeWhile (· ≠ '\n')).length + 1

/-- The place behind one more character is the next place. -/
theorem Position.behind_concat (before : List Char) (c : Char) :
    behind (before ++ [c]) = (behind before).next c := by
  by_cases feed : c = '\n'
  · subst feed
    simp [behind, next]
  · simp [behind, next, feed]

/-- The place behind a text is reached by going through it. -/
theorem Position.after_behind (before text : List Char) :
    (behind before).after text = behind (before ++ text) := by
  induction text generalizing before with
  | nil => rw [List.append_nil]; rfl
  | cons c text ih =>
    have step : (behind before).after (c :: text) = ((behind before).next c).after text := rfl
    rw [step, ← behind_concat, ih, List.append_assoc, List.singleton_append]

/-! ### Spellings -/

/-- Whether the characters spell the token. -/
inductive Spells : Token → List Char → Prop
  /-- A word is spelled by its characters. -/
  | word {chars : List Char} : IsWord chars → Spells (.word (String.ofList chars)) chars
  /-- A number is spelled by any digits with its value. -/
  | number {value : UInt64} {digits : List Char} : digits ≠ [] →
      (∀ c ∈ digits, c.isDigit = true) → decimal digits = value.toNat →
      Spells (.number value) digits
  /-- A mark is spelled by its character. -/
  | mark (m : Mark) : Spells (.mark m) [m.char]
  /-- A comment is spelled by two hyphens and a line that comes down to it when it is trimmed. -/
  | comment {body : List Char} : (∀ c ∈ body, c ≠ '\n') →
      Spells (.comment (String.ofList (trim body))) ('-' :: '-' :: body)

/-- Whether the token is a word or a number, which lasts until something ends it. -/
def Token.isRun : Token → Bool
  | word _ | number _ => true
  | mark _ | comment _ => false

/-- A token in a text. -/
structure Written where
  /-- The white space before the token. -/
  gap : List Char
  /-- The token. -/
  token : Token
  /-- The characters that spell the token. -/
  spelling : List Char

/-- The white space before the token and its spelling. -/
def Written.chars (w : Written) : List Char := w.gap ++ w.spelling

/-- The text in which these tokens are written, with characters behind the last of them. -/
def written (parts : List Written) (tail : List Char) : List Char :=
  parts.flatMap Written.chars ++ tail

/-- Whether tokens that are written in a text are written as they have to be. -/
inductive WellSpaced (tail : List Char) : List Written → Prop
  /-- Behind the last token there is nothing but white space. -/
  | nil : (∀ c ∈ tail, isWhite c = true) → WellSpaced tail []
  /-- Before a token there is nothing but white space, and there has to be some between a word or a
  number and anything but a mark. A comment ends with its line. -/
  | cons {w : Written} {parts : List Written} :
      (∀ c ∈ w.gap, isWhite c = true) → Spells w.token w.spelling →
      (w.token.isRun = true → ∀ next ∈ parts.head?, next.gap = [] → ∃ m, next.token = .mark m) →
      (∀ body, w.token = .comment body → ∀ c ∈ (written parts tail).head?, c = '\n') →
      WellSpaced tail parts → WellSpaced tail (w :: parts)

/-- The tokens that are written behind a text, each with its place. -/
def placed (before : List Char) : List Written → List Lexeme
  | [] => []
  | w :: parts =>
    ⟨w.token, Position.behind (before ++ w.gap)⟩ :: placed (before ++ w.chars) parts

variable {here : Position} {text tail spelling : List Char} {tokens : List Lexeme} {token : Token}
  {parts : List Written}

/-! ### What a text begins with -/

/-- A spelling begins with a delimiter exactly if it is that of a mark. -/
theorem Spells.exists_cons (spells : Spells token spelling) :
    ∃ c rest, spelling = c :: rest ∧ (isDelimiter c = true ↔ ∃ m, token = .mark m) := by
  cases spells with
  | word word =>
    obtain ⟨c, rest, rfl⟩ := List.exists_cons_of_ne_nil word.nonempty
    have inside := word.undelimited c List.mem_cons_self
    exact ⟨c, rest, rfl, by simp [inside]⟩
  | number nonempty digits value =>
    obtain ⟨c, rest, rfl⟩ := List.exists_cons_of_ne_nil nonempty
    have inside := isDelimiter_of_isDigit (digits c List.mem_cons_self)
    exact ⟨c, rest, rfl, by simp [inside]⟩
  | mark m => exact ⟨m.char, [], rfl, by simp [isDelimiter_char m]⟩
  | @comment body line =>
    have inside : isDelimiter '-' = false := by decide
    exact ⟨'-', '-' :: body, rfl, by simp [inside]⟩

/-- White space ends a word. -/
theorem isDelimiter_of_isWhite {c : Char} (white : isWhite c = true) : isDelimiter c = true := by
  rw [isDelimiter, white, Bool.true_or]

/-- A word can end before written tokens exactly if the first of them is a mark or has white space
before it. -/
theorem WellSpaced.delimited_iff (spaced : WellSpaced tail parts) :
    Delimited (written parts tail) ↔
      ∀ next ∈ parts.head?, next.gap = [] → ∃ m, next.token = .mark m := by
  cases spaced with
  | nil white =>
    have ends : Delimited (written [] tail) := fun c first =>
      isDelimiter_of_isWhite (white c (List.mem_of_mem_head? first))
    exact ⟨fun _ _ first => (nomatch first), fun _ => ends⟩
  | @cons w parts white spells _ _ _ =>
    obtain ⟨d, rest, begins, delimiter⟩ := spells.exists_cons
    cases gap : w.gap with
    | nil =>
      have first : (written (w :: parts) tail).head? = some d := by
        simp [written, Written.chars, gap, begins]
      simp [Delimited, first, gap, delimiter]
    | cons c more =>
      have first : (written (w :: parts) tail).head? = some c := by
        simp [written, Written.chars, gap]
      have ends : isDelimiter c = true :=
        isDelimiter_of_isWhite (white c (by rw [gap]; exact List.mem_cons_self))
      simp [Delimited, first, gap, ends]

/-! ### Written tokens are a layout -/

/-- White space in front of a layout. -/
theorem Layout.white_append {gap : List Char} (white : ∀ c ∈ gap, isWhite c = true)
    (layout : Layout (here.after gap) text tokens) : Layout here (gap ++ text) tokens := by
  induction gap generalizing here with
  | nil => exact layout
  | cons c gap ih =>
    obtain ⟨first, others⟩ := List.forall_mem_cons.1 white
    exact .white first (ih others layout)

/-- A token in front of a layout. -/
theorem Layout.spelled (spells : Spells token spelling)
    (delimited : token.isRun = true → Delimited text)
    (line : ∀ body, token = .comment body → ∀ c ∈ text.head?, c = '\n')
    (layout : Layout (here.after spelling) text tokens) :
    Layout here (spelling ++ text) (⟨token, here⟩ :: tokens) := by
  cases spells with
  | word word => exact .word word (delimited rfl) layout
  | number nonempty digits value => exact .number nonempty digits value (delimited rfl) layout
  | mark m => exact .mark m layout
  | comment body => exact .comment body (line _ rfl) layout

/-- Tokens that are written as they have to be are a layout, each at its place. -/
theorem WellSpaced.layout (spaced : WellSpaced tail parts) (before : List Char) :
    Layout (.behind before) (written parts tail) (placed before parts) := by
  induction spaced generalizing before with
  | nil white =>
    have layout := Layout.white_append white (.nil ((Position.behind before).after tail))
    rwa [List.append_nil] at layout
  | @cons w parts white spells run line spaced ih =>
    have shape : written (w :: parts) tail = w.gap ++ (w.spelling ++ written parts tail) := by
      simp only [written, Written.chars, List.flatMap_cons, List.append_assoc]
    have later : Layout ((Position.behind (before ++ w.gap)).after w.spelling)
        (written parts tail) (placed (before ++ w.chars) parts) := by
      rw [Position.after_behind, List.append_assoc]
      exact ih (before ++ w.chars)
    have token := later.spelled spells (fun lasts => spaced.delimited_iff.2 (run lasts)) line
    rw [shape, placed]
    refine .white_append white ?_
    rwa [Position.after_behind]

/-! ### A layout is written tokens -/

/-- Whether the text is written tokens, with these places behind a text of before. -/
def IsWritten (before text : List Char) (tokens : List Lexeme) : Prop :=
  ∃ parts tail, WellSpaced tail parts ∧ text = written parts tail ∧ tokens = placed before parts

/-- One more character of white space belongs to what comes first. -/
theorem IsWritten.white {before : List Char} {c : Char} (white : isWhite c = true)
    (rest : IsWritten (before ++ [c]) text tokens) : IsWritten before (c :: text) tokens := by
  obtain ⟨parts, tail, spaced, rfl, rfl⟩ := rest
  cases spaced with
  | nil others =>
    exact ⟨[], c :: tail, .nil (List.forall_mem_cons.2 ⟨white, others⟩), rfl, rfl⟩
  | @cons w parts others spells run line spaced =>
    have gap : ∀ d ∈ c :: w.gap, isWhite d = true := List.forall_mem_cons.2 ⟨white, others⟩
    refine ⟨{ w with gap := c :: w.gap } :: parts, tail, .cons gap spells run line spaced, rfl, ?_⟩
    simp only [placed, Written.chars, List.append_assoc, List.cons_append, List.nil_append]

/-- One more token comes first, without white space before it. -/
theorem IsWritten.spelled {before : List Char} (spells : Spells token spelling)
    (delimited : token.isRun = true → Delimited text)
    (line : ∀ body, token = .comment body → ∀ c ∈ text.head?, c = '\n')
    (rest : IsWritten (before ++ spelling) text tokens) :
    IsWritten before (spelling ++ text) (⟨token, .behind before⟩ :: tokens) := by
  obtain ⟨parts, tail, spaced, rfl, rfl⟩ := rest
  have first : WellSpaced tail (⟨[], token, spelling⟩ :: parts) :=
    .cons (List.forall_mem_nil _) spells (fun lasts => spaced.delimited_iff.1 (delimited lasts))
      line spaced
  refine ⟨_, tail, first, ?_, ?_⟩
  · simp only [written, Written.chars, List.flatMap_cons, List.nil_append, List.append_assoc]
  · simp only [placed, Written.chars, List.nil_append, List.append_nil]

/-- A layout is tokens that are written as they have to be. -/
theorem Layout.isWritten (layout : Layout here text tokens) {before : List Char}
    (place : here = .behind before) : IsWritten before text tokens := by
  -- What has been read grows from step to step, and the layout stays at the place behind it.
  induction layout generalizing before with
  | nil here => exact ⟨[], [], .nil (List.forall_mem_nil _), rfl, rfl⟩
  | @white here c text tokens white layout ih =>
    have next : here.next c = .behind (before ++ [c]) := by rw [place, Position.behind_concat]
    exact (ih next).white white
  | @mark here m text tokens layout ih =>
    subst place
    have next : (Position.behind before).next m.char = .behind (before ++ [m.char]) :=
      (Position.behind_concat before m.char).symm
    exact (ih next).spelled (.mark m) nofun nofun
  | word word delimited layout ih =>
    subst place
    exact (ih (Position.after_behind _ _)).spelled (.word word) (fun _ => delimited) nofun
  | number nonempty digits value delimited layout ih =>
    subst place
    exact (ih (Position.after_behind _ _)).spelled (.number nonempty digits value)
      (fun _ => delimited) nofun
  | comment line ends layout ih =>
    subst place
    exact (ih (Position.after_behind _ _)).spelled (.comment line) nofun fun _ _ => ends

/-- **The lexical format.** A text is cut into tokens exactly if it is the spellings of these tokens
in order, with white space before, between and behind them as it has to be, and the place of each
token is the line and the column of the first character of its spelling. -/
theorem lex_eq_ok_iff_wellSpaced {text : String} {tokens : List Lexeme} :
    lex text = .ok tokens ↔ ∃ parts tail, WellSpaced tail parts ∧
      text.toList = written parts tail ∧ tokens = placed [] parts := by
  rw [lex_eq_ok_iff]
  constructor
  · intro layout
    exact layout.isWritten rfl
  · rintro ⟨parts, tail, spaced, same, rfl⟩
    rw [same]
    exact spaced.layout []

/-- Hyphens inside a word open no comment, and a comment ends with its line. -/
example : lex "a--b --c \n 007" = .ok [⟨.word "a--b", ⟨1, 1⟩⟩, ⟨.comment "c", ⟨1, 6⟩⟩,
    ⟨.number 7, ⟨2, 2⟩⟩] := by
  cbv

end BehaviouralTypes.Text
