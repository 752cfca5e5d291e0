import BehaviouralTypes.Proofs.Spelling
import BehaviouralTypes.Text.Mistake
import Mathlib.Order.WellFounded

/-!
# Numbers that are too large

Which words a text has can be told without cutting it: a word is a longest run of characters that
are no delimiters, where no comment is open, and a comment is open where two hyphens stand at the
beginning of a run earlier in the line (`Text.CommentOpen`). The word pieces of a text are its words
(`Text.Excerpt.IsWordOf.mem_pieces`, `Text.exists_isWordOf`), because a text can be cut at any place
where a word could begin and no comment is open (`Text.pieces_append`). So a text is refused exactly
if one of its words is a number that does not fit, and the first such word is reported
(`Text.lex_overflow`).
-/

namespace BehaviouralTypes.Text

variable {here there : Position} {before after text rest chars : List Char} {c : Char}

/-! ### Words of a text -/

/-- Whether a word could begin behind the text. -/
def Ended (before : List Char) : Prop := ∀ c ∈ before.getLast?, isDelimiter c = true

/-- Whether a comment is open behind the text: two hyphens stand where a word could begin, and the
line has not ended since. -/
def CommentOpen (before : List Char) : Prop :=
  ∃ opening body, before = opening ++ '-' :: '-' :: body ∧ Ended opening ∧ '\n' ∉ body

/-- A stretch of a text with what stands on both sides of it. -/
structure Excerpt where
  /-- The text before the stretch. -/
  before : List Char
  /-- The stretch. -/
  chars : List Char
  /-- The text behind the stretch. -/
  after : List Char

/-- Whether the stretch is a word of the text: a longest run of characters that are no delimiters,
outside comments. Numbers are words here. -/
structure Excerpt.IsWordOf (text : List Char) (e : Excerpt) : Prop where
  /-- It stands in the text. -/
  whole : text = e.before ++ (e.chars ++ e.after)
  /-- There is a character. -/
  nonempty : e.chars ≠ []
  /-- No character ends a word. -/
  undelimited : ∀ c ∈ e.chars, isDelimiter c = false
  /-- It does not begin earlier. -/
  begins : Ended e.before
  /-- It does not end later. -/
  ends : Delimited e.after
  /-- It does not open a comment. -/
  visible : ¬ ['-', '-'] <+: e.chars
  /-- It is in no comment. -/
  outside : ¬ CommentOpen e.before

/-- Whether the characters are a number that does not fit in 64 bits. -/
structure IsOversized (chars : List Char) : Prop where
  /-- They are digits. -/
  digits : ∀ c ∈ chars, c.isDigit = true
  /-- Their value is 2^64 or more. -/
  large : UInt64.size ≤ decimal chars

/-- Whether the stretch is the first word of the text that is a number that does not fit. -/
structure Excerpt.IsFirstOversized (text : List Char) (e : Excerpt) : Prop where
  /-- It is a word of the text. -/
  word : e.IsWordOf text
  /-- It does not fit. -/
  oversized : IsOversized e.chars
  /-- No other such word begins earlier. -/
  first : ∀ other : Excerpt, other.IsWordOf text → IsOversized other.chars →
    e.before.length ≤ other.before.length

/-! ### Open comments -/

/-- A word could begin at the beginning. -/
theorem ended_nil : Ended [] := by
  rintro _ ⟨⟩

/-- A word can end at the end. -/
theorem delimited_nil : Delimited [] := by
  rintro _ ⟨⟩

/-- Where a word could begin behind a text, it could behind the end of it. -/
theorem Ended.of_append (ended : Ended (before ++ text)) : Ended text := by
  intro c last
  refine ended c ?_
  rw [List.getLast?_append, Option.mem_def.1 last]
  rfl

/-- Where a word could begin behind a text, it could behind all but the first character. -/
theorem Ended.of_cons (ended : Ended (c :: text)) : Ended text :=
  of_append (show Ended ([c] ++ text) from ended)

/-- A nonempty text ends as it does with anything before it. -/
theorem Ended.append (nonempty : text ≠ []) (ended : Ended text) : Ended (before ++ text) := by
  rw [Ended, List.getLast?_append, List.getLast?_eq_some_getLast nonempty, Option.some_or,
    ← List.getLast?_eq_some_getLast nonempty]
  exact ended

/-- No word could begin behind characters that are no delimiters. -/
theorem not_ended (nonempty : chars ≠ []) (undelimited : ∀ c ∈ chars, isDelimiter c = false) :
    ¬ Ended chars := by
  intro ended
  have delimiter := ended _ (List.getLast?_eq_some_getLast nonempty)
  rw [undelimited _ (List.getLast_mem nonempty)] at delimiter
  cases delimiter

/-- A comment that is open behind a text is open behind more of it, if a word could begin where the
text begins. -/
theorem CommentOpen.append (opened : CommentOpen text) (boundary : Ended before ∨ Delimited text) :
    CommentOpen (before ++ text) := by
  obtain ⟨opening, body, rfl, ended, line⟩ := opened
  refine ⟨before ++ opening, body, (List.append_assoc ..).symm, ?_, line⟩
  cases opening with
  | nil =>
    rcases boundary with ended | delimited
    · rwa [List.append_nil]
    · cases delimited '-' rfl
  | cons d opening => exact ended.append (List.cons_ne_nil d opening)

/-- A comment that is open stays open behind a delimiter put before the text. -/
theorem CommentOpen.cons (opened : CommentOpen text) (delimiter : isDelimiter c = true) :
    CommentOpen (c :: text) := by
  have boundary : Ended [c] := by
    rintro _ ⟨⟩
    exact delimiter
  exact opened.append (.inl boundary)

/-- A comment that is open behind a delimiter was opened behind it or before it in the same line. -/
theorem CommentOpen.cases_delimiter (delimiter : isDelimiter c = true)
    (opened : CommentOpen (before ++ c :: text)) :
    CommentOpen text ∨ CommentOpen before ∧ c ≠ '\n' := by
  obtain ⟨opening, body, same, ended, line⟩ := opened
  have other : c ≠ '-' := by
    rintro rfl
    cases delimiter
  rcases List.append_eq_append_iff.1 same with ⟨more, rfl, rest⟩ | ⟨more, rfl, rest⟩
  · cases more with
    | nil => exact absurd (List.cons.inj rest).1 other
    | cons d more =>
      obtain ⟨rfl, rfl⟩ := List.cons.inj rest
      rw [← List.singleton_append, ← List.append_assoc] at ended
      exact .inl ⟨more, body, rfl, ended.of_append, line⟩
  · match more with
    | [] => exact absurd (List.cons.inj rest).1.symm other
    | [d] => exact absurd (List.cons.inj (List.cons.inj rest).2).1.symm other
    | d :: e :: more =>
      simp only [List.cons_append, List.cons.injEq] at rest
      obtain ⟨rfl, rfl, rfl⟩ := rest
      rw [List.mem_append, List.mem_cons, not_or, not_or] at line
      exact .inr ⟨⟨opening, more, rfl, ended, line.1⟩, Ne.symm line.2.1⟩

/-- No comment is open at the beginning. -/
theorem not_commentOpen_nil : ¬ CommentOpen [] := by
  rintro ⟨opening, body, same, -⟩
  exact absurd (congrArg List.length same) (by simp)

/-- A comment that is open does not depend on a delimiter before the text. -/
theorem CommentOpen.of_cons (delimiter : isDelimiter c = true)
    (opened : CommentOpen (c :: text)) : CommentOpen text := by
  have opened : CommentOpen ([] ++ c :: text) := opened
  rcases opened.cases_delimiter delimiter with later | ⟨nothing, -⟩
  · exact later
  · exact absurd nothing not_commentOpen_nil

/-- Characters that are no delimiters open no comment unless they begin with two hyphens. -/
theorem not_commentOpen (undelimited : ∀ c ∈ chars, isDelimiter c = false)
    (visible : ¬ ['-', '-'] <+: chars) : ¬ CommentOpen chars := by
  rintro ⟨opening, body, rfl, ended, -⟩
  cases opening with
  | nil => exact visible ⟨body, rfl⟩
  | cons d opening =>
    have inside : ∀ c ∈ d :: opening, isDelimiter c = false := fun c within =>
      undelimited c (List.mem_append_left _ within)
    exact not_ended (List.cons_ne_nil d opening) inside ended

/-! ### Cutting at a boundary -/

/-- A text can be cut at a place where a word could begin and no comment is open. -/
theorem pieces_append (ended : Ended before) (closed : ¬ CommentOpen before) (rest : List Char) :
    pieces here (before ++ rest) = pieces here before ++ pieces (here.after before) rest := by
  induction before using Text.induction generalizing here with
  | nil =>
    rw [pieces]
    rfl
  | white c text white ih =>
    have still : ¬ CommentOpen text := fun opened =>
      closed (opened.cons (isDelimiter_of_isWhite white))
    rw [List.cons_append, pieces_white white, pieces_white white, ih ended.of_cons still]
    rfl
  | mark m text ih =>
    have still : ¬ CommentOpen text := fun opened => closed (opened.cons (isDelimiter_char m))
    rw [List.cons_append, pieces_mark, pieces_mark, ih ended.of_cons still]
    rfl
  | word chars text nonempty undelimited visible delimited ih =>
    have still : ¬ CommentOpen text := fun opened => closed (opened.append (.inr delimited))
    have goes_on : Delimited (text ++ rest) := by
      cases text with
      | nil =>
        rw [List.append_nil] at ended
        exact absurd ended (not_ended nonempty undelimited)
      | cons d text => exact delimited
    rw [List.append_assoc, pieces_word nonempty undelimited visible goes_on,
      pieces_word nonempty undelimited visible delimited, ih ended.of_append still,
      Position.after_after]
    rfl
  | comment body text line ends ih =>
    have feed : Delimited text := fun c next => by
      rw [ends c next]
      decide
    have still : ¬ CommentOpen text := fun opened => closed (opened.append (.inr feed))
    have goes_on : ∀ c ∈ (text ++ rest).head?, c = '\n' := by
      cases text with
      | nil =>
        refine absurd ⟨[], body, ?_, ended_nil, fun inside => line _ inside rfl⟩ closed
        exact List.append_nil _
      | cons d text => exact ends
    rw [List.append_assoc, pieces_comment line goes_on, pieces_comment line ends,
      ih ended.of_append still, Position.after_after]
    rfl

/-! ### Word pieces -/

namespace Excerpt

variable {e : Excerpt}

/-- The words of a text are among its pieces. -/
theorem IsWordOf.mem_pieces (word : e.IsWordOf text) :
    (.word e.chars, here.after e.before) ∈ pieces here text := by
  rw [word.whole, pieces_append word.begins word.outside,
    pieces_word word.nonempty word.undelimited word.visible word.ends]
  exact List.mem_append_right _ List.mem_cons_self

/-- Before a word of a text that begins with a delimiter there is at least this delimiter. -/
theorem IsWordOf.exists_cons (word : e.IsWordOf text) (delimited : Delimited text) :
    ∃ c rest, e.before = c :: rest ∧ c ∈ text.head? := by
  cases before : e.before with
  | nil =>
    obtain ⟨d, more, first⟩ := List.exists_cons_of_ne_nil word.nonempty
    have inside : d ∈ e.chars := by
      rw [first]
      exact List.mem_cons_self
    have delimiter : isDelimiter d = true := by
      refine delimited d ?_
      rw [word.whole, before, first]
      rfl
    rw [word.undelimited d inside] at delimiter
    cases delimiter
  | cons c rest =>
    refine ⟨c, rest, rfl, ?_⟩
    rw [word.whole, before]
    rfl

/-- The excerpt with more before it. -/
def behind (before : List Char) (e : Excerpt) : Excerpt := ⟨before ++ e.before, e.chars, e.after⟩

/-- A word of a text is one of a longer text if it cannot begin earlier there and no comment is open
before it. -/
theorem IsWordOf.behind (word : e.IsWordOf text) (begins : Ended (before ++ e.before))
    (outside : ¬ CommentOpen (before ++ e.before)) :
    (e.behind before).IsWordOf (before ++ text) where
  whole := by
    rw [word.whole]
    exact (List.append_assoc ..).symm
  nonempty := word.nonempty
  undelimited := word.undelimited
  begins := begins
  ends := word.ends
  visible := word.visible
  outside := outside

/-- A delimiter in front of a text leaves the words. -/
theorem IsWordOf.cons (word : e.IsWordOf text) (delimiter : isDelimiter c = true) :
    (e.behind [c]).IsWordOf (c :: text) := by
  have begins : Ended ([c] ++ e.before) := by
    cases before : e.before with
    | nil =>
      rintro _ ⟨⟩
      exact delimiter
    | cons d rest => exact Ended.append (List.cons_ne_nil d rest) (before ▸ word.begins)
  have outside : ¬ CommentOpen ([c] ++ e.before) := fun opened =>
    word.outside (CommentOpen.of_cons delimiter opened)
  exact word.behind begins outside

/-- A piece in front of a text that begins with a delimiter leaves the words, unless it opens a
comment and the line goes on. -/
theorem IsWordOf.append (word : e.IsWordOf text) (delimited : Delimited text)
    (closed : CommentOpen before → ∀ c ∈ text.head?, c = '\n') :
    (e.behind before).IsWordOf (before ++ text) := by
  obtain ⟨c, rest, first, next⟩ := word.exists_cons delimited
  have delimiter := delimited c next
  refine word.behind ?_ fun opened => ?_
  · rw [first]
    exact Ended.append (List.cons_ne_nil c rest) (first ▸ word.begins)
  · rw [first] at opened
    rcases opened.cases_delimiter delimiter with later | ⟨earlier, goes_on⟩
    · exact word.outside (first ▸ later.cons delimiter)
    · exact goes_on (closed earlier c next)

/-- A word of a text is one of a longer text if another word could begin where the text ends. -/
theorem IsWordOf.ahead (word : e.IsWordOf text) (ended : Ended text) (rest : List Char) :
    (Excerpt.mk e.before e.chars (e.after ++ rest)).IsWordOf (text ++ rest) where
  whole := by
    rw [word.whole, List.append_assoc, List.append_assoc]
  nonempty := word.nonempty
  undelimited := word.undelimited
  begins := word.begins
  ends := by
    cases after : e.after with
    | nil =>
      rw [word.whole, after, List.append_nil] at ended
      exact absurd ended.of_append (not_ended word.nonempty word.undelimited)
    | cons c more =>
      have ends := word.ends
      rw [after] at ends
      exact ends
  visible := word.visible
  outside := word.outside

end Excerpt

/-- Every word piece of a text is a word of it. -/
theorem exists_isWordOf (inside : (.word chars, there) ∈ pieces here text) :
    ∃ e : Excerpt, e.IsWordOf text ∧ e.chars = chars ∧ here.after e.before = there := by
  induction text using Text.induction generalizing here with
  | nil =>
    rw [pieces] at inside
    cases inside
  | white c text white ih =>
    rw [pieces_white white] at inside
    obtain ⟨e, word, same, place⟩ := ih inside
    exact ⟨e.behind [c], word.cons (isDelimiter_of_isWhite white), same, place⟩
  | mark m text ih =>
    rw [pieces_mark] at inside
    rcases List.mem_cons.1 inside with first | later
    · cases first
    · obtain ⟨e, word, same, place⟩ := ih later
      exact ⟨e.behind [m.char], word.cons (isDelimiter_char m), same, place⟩
  | word run text nonempty undelimited visible delimited ih =>
    have closed : ¬ CommentOpen run := not_commentOpen undelimited visible
    rw [pieces_word nonempty undelimited visible delimited] at inside
    rcases List.mem_cons.1 inside with first | later
    · cases first
      exact ⟨⟨[], chars, text⟩, ⟨rfl, nonempty, undelimited, ended_nil, delimited, visible,
        not_commentOpen_nil⟩, rfl, rfl⟩
    · obtain ⟨e, word, same, place⟩ := ih later
      refine ⟨e.behind run, word.append delimited fun opened => absurd opened closed, same, ?_⟩
      rw [← place, Position.after_after]
      rfl
  | comment body text line ends ih =>
    have delimited : Delimited text := fun c next => by
      rw [ends c next]
      decide
    rw [pieces_comment line ends] at inside
    rcases List.mem_cons.1 inside with first | later
    · cases first
    · obtain ⟨e, word, same, place⟩ := ih later
      refine ⟨e.behind ('-' :: '-' :: body), word.append delimited fun _ => ends, same, ?_⟩
      rw [← place, Position.after_after]
      rfl

/-! ### Tokens of pieces -/

variable {cut first later : List (Piece × Position)} {piece : Piece} {o : Overflow}
  {tokens : List Lexeme}

/-- Only a number that does not fit is no token. -/
theorem token_eq_error_iff : piece.token here = .error o ↔
    ∃ chars, piece = .word chars ∧ IsOversized chars ∧ o = ⟨String.ofList chars, here⟩ := by
  cases piece with
  | mark m =>
    constructor
    · rintro ⟨⟩
    · rintro ⟨_, ⟨⟩, -⟩
  | comment body =>
    constructor
    · rintro ⟨⟩
    · rintro ⟨_, ⟨⟩, -⟩
  | word chars =>
    by_cases digits : ∀ c ∈ chars, c.isDigit = true
    · rw [Piece.token, if_pos (List.all_eq_true.2 digits)]
      split
      · next small =>
        constructor
        · rintro ⟨⟩
        · rintro ⟨_, ⟨⟩, oversized, -⟩
          exact absurd oversized.large (Nat.not_le.2 small)
      · next large =>
        constructor
        · rintro ⟨⟩
          exact ⟨chars, rfl, ⟨digits, Nat.not_lt.1 large⟩, rfl⟩
        · rintro ⟨_, ⟨⟩, -, rfl⟩
          rfl
    · rw [token_word digits]
      constructor
      · rintro ⟨⟩
      · rintro ⟨_, ⟨⟩, oversized, -⟩
        exact absurd oversized.digits digits

/-- Pieces have no tokens only because of one of them. -/
theorem exists_of_lexemes_error (refused : lexemes cut = .error o) :
    ∃ piece here, (piece, here) ∈ cut ∧ piece.token here = .error o := by
  induction cut with
  | nil => cases refused
  | cons head rest ih =>
    obtain ⟨piece, here⟩ := head
    cases made : piece.token here with
    | error e =>
      rw [lexemes, made] at refused
      cases refused
      exact ⟨piece, here, List.mem_cons_self, made⟩
    | ok token =>
      cases others : lexemes rest with
      | error e =>
        rw [lexemes, made, others] at refused
        cases refused
        obtain ⟨other, there, inside, error⟩ := ih others
        exact ⟨other, there, List.mem_cons_of_mem _ inside, error⟩
      | ok more =>
        rw [lexemes, made, others] at refused
        cases refused

/-- The first piece that is no token is reported. -/
theorem lexemes_append_cons (fine : ∀ piece here o, (piece, here) ∈ first →
      Piece.token here piece ≠ .error o) (refused : piece.token here = .error o) :
    lexemes (first ++ (piece, here) :: later) = .error o := by
  induction first with
  | nil =>
    rw [List.nil_append, lexemes, refused]
    rfl
  | cons head rest ih =>
    obtain ⟨other, there⟩ := head
    have later := ih fun piece here o inside => fine piece here o (List.mem_cons_of_mem _ inside)
    cases made : other.token there with
    | error e => exact absurd made (fine other there e List.mem_cons_self)
    | ok token =>
      rw [List.cons_append, lexemes, made, later]
      rfl

/-- Every piece has its token. -/
theorem exists_of_lexemes_ok (accepted : lexemes cut = .ok tokens) (inside : (piece, here) ∈ cut) :
    ∃ token, piece.token here = .ok token ∧ ⟨token, here⟩ ∈ tokens := by
  induction cut generalizing tokens with
  | nil => cases inside
  | cons head rest ih =>
    obtain ⟨other, there⟩ := head
    obtain ⟨token, more, made, others, rfl⟩ := lexemes_cons_eq_ok_iff.1 accepted
    rcases List.mem_cons.1 inside with same | later
    · cases same
      exact ⟨token, made, List.mem_cons_self⟩
    · obtain ⟨token, made, within⟩ := ih others later
      exact ⟨token, made, List.mem_cons_of_mem _ within⟩

/-! ### Numbers of a text -/

/-- If there is a number that does not fit, there is a first one. -/
theorem Excerpt.exists_isFirstOversized {e : Excerpt} (word : e.IsWordOf text)
    (oversized : IsOversized e.chars) : ∃ first : Excerpt, first.IsFirstOversized text := by
  let early := fun e : Excerpt => e.before.length
  obtain ⟨first, ⟨word, oversized⟩, least⟩ := (measure early).wf.has_min
    {e | e.IsWordOf text ∧ IsOversized e.chars} ⟨e, word, oversized⟩
  exact ⟨first, word, oversized, fun other word oversized =>
    Nat.not_lt.1 (least other ⟨word, oversized⟩)⟩

/-- The first number that does not fit is reported: all word pieces before it are words of the text
that begin earlier. -/
theorem Excerpt.IsFirstOversized.lexemes {e : Excerpt} (earliest : e.IsFirstOversized text) :
    lexemes (pieces here text) = .error ⟨String.ofList e.chars, here.after e.before⟩ := by
  obtain ⟨word, oversized, least⟩ := earliest
  rw [word.whole, pieces_append word.begins word.outside,
    pieces_word word.nonempty word.undelimited word.visible word.ends]
  refine lexemes_append_cons (fun piece there o inside refused => ?_)
    (token_eq_error_iff.2 ⟨e.chars, rfl, oversized, rfl⟩)
  obtain ⟨chars, rfl, large, -⟩ := token_eq_error_iff.1 refused
  obtain ⟨other, earlier, rfl, -⟩ := exists_isWordOf inside
  have also := earlier.ahead word.begins (e.chars ++ e.after)
  rw [← word.whole] at also
  have bound : e.before.length ≤ other.before.length :=
    least ⟨other.before, other.chars, other.after ++ (e.chars ++ e.after)⟩ also large
  have whole := congrArg List.length earlier.whole
  have filled := List.length_pos_iff.2 earlier.nonempty
  simp only [List.length_append] at whole
  omega

/-- The place behind a text is reached by going through it from the start. -/
theorem Position.start_after (text : List Char) : start.after text = behind text :=
  after_behind [] text

/-- What is reported of a text is the first number that does not fit. -/
theorem lex_eq_error_iff {text : String} : lex text = .error o ↔
    ∃ e : Excerpt, e.IsFirstOversized text.toList ∧
      o = ⟨String.ofList e.chars, .behind e.before⟩ := by
  have reported : ∀ e : Excerpt, e.IsFirstOversized text.toList →
      lex text = .error ⟨String.ofList e.chars, .behind e.before⟩ := by
    intro e first
    rw [← Position.start_after]
    exact first.lexemes
  constructor
  · intro refused
    obtain ⟨piece, here, inside, error⟩ := exists_of_lexemes_error refused
    obtain ⟨chars, rfl, oversized, -⟩ := token_eq_error_iff.1 error
    obtain ⟨e, word, rfl, -⟩ := exists_isWordOf inside
    obtain ⟨first, earliest⟩ := Excerpt.exists_isFirstOversized word oversized
    exact ⟨first, earliest, Except.error.inj (refused.symm.trans (reported first earliest))⟩
  · rintro ⟨e, first, rfl⟩
    exact reported e first

/-- The words and the place of a number that is too large. -/
theorem Overflow.line_explanation (o : Overflow) : o.explanation.line =
    s!"Number {o.digits} is too large {o.position.line}:{o.position.column}: " ++
      "number too large to fit in target type" := by
  simp [explanation, Explanation.line, Cause.line, Position.text, toString, String.append_assoc]

/-- Zeros in front of digits do not count. -/
theorem decimal_zeros_append (zeros : Nat) (chars : List Char) :
    decimal (List.replicate zeros '0' ++ chars) = decimal chars := by
  induction zeros with
  | zero => rfl
  | succ zeros ih => exact ih

/-- Zeros in front do not make a number too large. -/
theorem isOversized_zeros_append {zeros : Nat} :
    IsOversized (List.replicate zeros '0' ++ chars) ↔ IsOversized chars := by
  have zero : ∀ c ∈ List.replicate zeros '0', c.isDigit = true := by
    intro c inside
    rw [List.eq_of_mem_replicate inside]
    rfl
  constructor
  · rintro ⟨digits, large⟩
    rw [decimal_zeros_append] at large
    exact ⟨(List.forall_mem_append.1 digits).2, large⟩
  · rintro ⟨digits, large⟩
    rw [← decimal_zeros_append zeros] at large
    exact ⟨List.forall_mem_append.2 ⟨zero, digits⟩, large⟩

/-- **Only numbers that are too large are refused.** A text is refused exactly if a word of it
outside comments is a number that does not fit in 64 bits, and zeros in front do not matter for
that. The error quotes the first such word and tells its line and column. Of a text that is not
refused, every word that consists of digits is a number with exactly the value of the digits. -/
theorem lex_overflow (text : String) :
    ((∃ o, lex text = .error o) ↔
      ∃ e : Excerpt, e.IsWordOf text.toList ∧ IsOversized e.chars) ∧
    (∀ zeros chars, IsOversized (List.replicate zeros '0' ++ chars) ↔ IsOversized chars) ∧
    (∀ o, lex text = .error o → ∃ e : Excerpt, e.IsFirstOversized text.toList ∧
      o = ⟨String.ofList e.chars, .behind e.before⟩ ∧ o.explanation.line =
        s!"Number {o.digits} is too large {o.position.line}:{o.position.column}: " ++
          "number too large to fit in target type") ∧
    (∀ tokens, lex text = .ok tokens → ∀ e : Excerpt, e.IsWordOf text.toList →
      (∀ c ∈ e.chars, c.isDigit = true) → ∃ value : UInt64, value.toNat = decimal e.chars ∧
        ⟨.number value, .behind e.before⟩ ∈ tokens) := by
  refine ⟨⟨?_, ?_⟩, fun zeros chars => isOversized_zeros_append, fun o refused => ?_,
    fun tokens accepted e word digits => ?_⟩
  · rintro ⟨o, refused⟩
    obtain ⟨e, first, -⟩ := lex_eq_error_iff.1 refused
    exact ⟨e, first.word, first.oversized⟩
  · rintro ⟨e, word, oversized⟩
    obtain ⟨first, earliest⟩ := Excerpt.exists_isFirstOversized word oversized
    exact ⟨_, lex_eq_error_iff.2 ⟨first, earliest, rfl⟩⟩
  · obtain ⟨e, first, same⟩ := lex_eq_error_iff.1 refused
    exact ⟨e, first, same, o.line_explanation⟩
  · obtain ⟨token, made, inside⟩ := exists_of_lexemes_ok accepted word.mem_pieces
    obtain ⟨value, same, rfl⟩ := (token_number digits).1 made
    rw [Position.start_after] at inside
    exact ⟨value, same.symm, inside⟩

/-- A number in a comment does not count, and the largest number that fits is read. -/
theorem lex_overflow_in_comment :
    let refused := "--99999999999999999999\n(018446744073709551616"
    let accepted := "(18446744073709551615"
    (∃ e : Excerpt, e.IsFirstOversized refused.toList ∧
      String.ofList e.chars = "018446744073709551616" ∧ Position.behind e.before = ⟨2, 2⟩) ∧
    ∃ tokens, lex accepted = .ok tokens ∧ ∃ value : UInt64,
      value.toNat = 18446744073709551615 ∧ ⟨.number value, ⟨1, 2⟩⟩ ∈ tokens := by
  intro refused accepted
  constructor
  · have error : lex refused = .error ⟨"018446744073709551616", ⟨2, 2⟩⟩ := by decide +kernel
    obtain ⟨e, first, same, -⟩ := (lex_overflow refused).2.2.1 _ error
    obtain ⟨digits, place⟩ := Overflow.mk.inj same
    exact ⟨e, first, digits.symm, place.symm⟩
  · have cut : lex accepted =
        .ok [⟨.mark .opening, ⟨1, 1⟩⟩, ⟨.number 18446744073709551615, ⟨1, 2⟩⟩] := by decide +kernel
    let e : Excerpt := ⟨['('], "18446744073709551615".toList, []⟩
    have digits : ∀ c ∈ e.chars, c.isDigit = true := List.all_eq_true.1 (by decide +kernel)
    have word : e.IsWordOf accepted.toList := by
      refine ⟨by decide, by decide, fun c inside => isDelimiter_of_isDigit (digits c inside), ?_,
        delimited_nil, by decide, ?_⟩
      · rintro _ ⟨⟩
        decide
      · exact fun opened => not_commentOpen_nil (opened.of_cons (by decide))
    have largest : decimal e.chars = 18446744073709551615 := by decide +kernel
    have read := (lex_overflow accepted).2.2.2 _ cut e word digits
    rw [largest] at read
    exact ⟨_, cut, read⟩

end BehaviouralTypes.Text
