import BehaviouralTypes.Text.Lexer

/-!
# Texts as tokens written out

What a text is cut into can be told without a lexer: the text is its tokens written out, with white
space between them as one likes, where only a word or a number needs a delimiter or the end of the
text after it. `Layout` is this relation, with the place of every token, and cutting a text finds
the one list of tokens of which the text is a layout (`Text.lex_eq_ok_iff`).
-/

namespace BehaviouralTypes.Text

variable {here : Position} {text : List Char} {tokens : List Lexeme} {c : Char}

/-! ### Layouts -/

/-- Whether the characters are a word that a text can contain. -/
structure IsWord (chars : List Char) : Prop where
  /-- There is a character. -/
  nonempty : chars ≠ []
  /-- No character ends a word. -/
  undelimited : ∀ c ∈ chars, isDelimiter c = false
  /-- They are not a number. -/
  not_digits : ¬ ∀ c ∈ chars, c.isDigit = true
  /-- They do not open a comment. -/
  not_comment : ¬ ['-', '-'] <+: chars

/-- The conditions on a word can be checked one after the other. -/
theorem isWord_iff {chars : List Char} : IsWord chars ↔ chars ≠ [] ∧ chars.all inWord = true ∧
    chars.all Char.isDigit = false ∧ ¬ ['-', '-'] <+: chars := by
  have undelimited : chars.all inWord = true ↔ ∀ c ∈ chars, isDelimiter c = false := by
    simp [inWord]
  have digits : chars.all Char.isDigit = false ↔ ¬ ∀ c ∈ chars, c.isDigit = true := by
    simp
  rw [undelimited, digits]
  exact ⟨fun word => ⟨word.nonempty, word.undelimited, word.not_digits, word.not_comment⟩,
    fun ⟨filled, plain, letters, visible⟩ => ⟨filled, plain, letters, visible⟩⟩

instance (chars : List Char) : Decidable (IsWord chars) := decidable_of_iff _ isWord_iff.symm

/-- Whether a word can end before the text. -/
def Delimited (text : List Char) : Prop := ∀ c ∈ text.head?, isDelimiter c = true

/-- Whether the text, which starts at the place, is these tokens written out, each at its own
place. -/
inductive Layout : Position → List Char → List Lexeme → Prop
  /-- The end of the text. -/
  | nil (here : Position) : Layout here [] []
  /-- White space stands for nothing. -/
  | white {here : Position} {c : Char} {text : List Char} {tokens : List Lexeme} :
      isWhite c = true → Layout (here.next c) text tokens → Layout here (c :: text) tokens
  /-- A mark is its character. -/
  | mark {here : Position} (m : Mark) {text : List Char} {tokens : List Lexeme} :
      Layout (here.next m.char) text tokens →
      Layout here (m.char :: text) (⟨.mark m, here⟩ :: tokens)
  /-- A word is its characters. -/
  | word {here : Position} {chars text : List Char} {tokens : List Lexeme} :
      IsWord chars → Delimited text → Layout (here.after chars) text tokens →
      Layout here (chars ++ text) (⟨.word (String.ofList chars), here⟩ :: tokens)
  /-- A number is any digits with its value. -/
  | number {here : Position} {value : UInt64} {digits text : List Char} {tokens : List Lexeme} :
      digits ≠ [] → (∀ c ∈ digits, c.isDigit = true) → decimal digits = value.toNat →
      Delimited text → Layout (here.after digits) text tokens →
      Layout here (digits ++ text) (⟨.number value, here⟩ :: tokens)
  /-- A comment is two hyphens and the rest of the line. -/
  | comment {here : Position} {body text : List Char} {tokens : List Lexeme} :
      (∀ c ∈ body, c ≠ '\n') → (∀ c ∈ text.head?, c = '\n') →
      Layout (here.after ('-' :: '-' :: body)) text tokens →
      Layout here ('-' :: '-' :: body ++ text)
        (⟨.comment (String.ofList (trim body)), here⟩ :: tokens)

/-! ### Characters -/

/-- The mark of a character is the one with that character. -/
theorem ofChar?_eq_some_iff {m : Mark} : Mark.ofChar? c = some m ↔ m.char = c := by
  constructor
  · intro found
    simpa using List.find?_some found
  · rintro rfl
    cases m <;> decide

/-- A mark ends a word. -/
theorem isDelimiter_char (m : Mark) : isDelimiter m.char = true := by
  rw [isDelimiter, ofChar?_eq_some_iff.2 rfl, Option.isSome_some, Bool.or_true]

/-- No mark is white space. -/
theorem isWhite_char (m : Mark) : isWhite m.char = false := by
  cases m <;> decide

/-- A digit ends no word. -/
theorem isDelimiter_of_isDigit (digit : c.isDigit = true) : isDelimiter c = false := by
  have bounds : 48 ≤ c.toNat ∧ c.toNat ≤ 57 := by
    simpa [Char.isDigit, UInt32.le_iff_toNat_le] using digit
  have dark : isWhite c = false := by
    simp only [isWhite, inRanges, whiteRanges, List.any_cons, List.any_nil, Bool.or_eq_false_iff,
      Bool.and_eq_false_iff, decide_eq_false_iff_not, Nat.not_le, and_true]
    omega
  have letter : Mark.ofChar? c = none := by
    cases found : Mark.ofChar? c with
    | none => rfl
    | some m =>
      rw [← ofChar?_eq_some_iff.1 found] at bounds
      cases m <;> simp [Mark.char] at bounds
  rw [isDelimiter, dark, letter]
  rfl

/-- Digits open no comment. -/
theorem not_comment_of_digits {digits : List Char} (all : ∀ c ∈ digits, c.isDigit = true) :
    ¬ ['-', '-'] <+: digits := by
  rintro ⟨more, rfl⟩
  have hyphen := all '-' List.mem_cons_self
  cases hyphen

/-! ### Places -/

/-- Going through a text can be done in parts. -/
theorem Position.after_after (p : Position) (text more : List Char) :
    (p.after text).after more = p.after (text ++ more) := List.foldl_append.symm

/-! ### Pieces -/

/-- White space is no piece. -/
theorem pieces_white (white : isWhite c = true) :
    pieces here (c :: text) = pieces (here.next c) text := by
  have unmarked : Mark.ofChar? c = none := by
    cases found : Mark.ofChar? c with
    | none => rfl
    | some m =>
      rw [← ofChar?_eq_some_iff.1 found, isWhite_char m] at white
      cases white
  rw [pieces, unmarked]
  · simp only [white, if_true]
  · rintro rest rfl -
    cases white

/-- A mark is a piece. -/
theorem pieces_mark (m : Mark) :
    pieces here (m.char :: text) = (.mark m, here) :: pieces (here.next m.char) text := by
  rw [pieces, ofChar?_eq_some_iff.2 rfl]
  intro rest hyphen
  cases m <;> cases hyphen

/-- What the first character of a text has to be, if there is one, can be told of its parts. -/
theorem forall_mem_head?_append {p : Char → Prop} {more : List Char} (first : ∀ c ∈ text.head?, p c)
    (next : ∀ c ∈ more.head?, p c) : ∀ c ∈ (text ++ more).head?, p c := by
  cases text with
  | nil => exact next
  | cons c text => exact first

/-- A run of characters that pass the test ends where the text goes on with one that fails it. -/
theorem takeWhile_dropWhile_append {p : Char → Bool} {run text : List Char}
    (all : ∀ c ∈ run, p c = true) (stops : ∀ c ∈ text.head?, p c = false) :
    (run ++ text).takeWhile p = run ∧ (run ++ text).dropWhile p = text := by
  have here : text.takeWhile p = [] ∧ text.dropWhile p = text := by
    cases text with
    | nil => exact ⟨rfl, rfl⟩
    | cons c text =>
      have fails : p c = false := stops c rfl
      exact ⟨List.takeWhile_cons_of_neg (by simp [fails]),
        List.dropWhile_cons_of_neg (by simp [fails])⟩
  rw [List.takeWhile_append_of_pos all, List.dropWhile_append_of_pos all, here.1, here.2]
  exact ⟨List.append_nil run, rfl⟩

/-- What is left after a run of characters that pass the test begins with one that fails it. -/
theorem eq_false_of_mem_head?_dropWhile {p : Char → Bool}
    (next : c ∈ (text.dropWhile p).head?) : p c = false := by
  have fails := List.head?_dropWhile_not p text
  rwa [Option.mem_def.1 next] at fails

/-- Characters that no delimiter ends are one piece if a word can end behind them. -/
theorem pieces_word {chars : List Char} (nonempty : chars ≠ [])
    (undelimited : ∀ c ∈ chars, isDelimiter c = false) (not_comment : ¬ ['-', '-'] <+: chars)
    (delimited : Delimited text) : pieces here (chars ++ text) =
      (.word chars, here) :: pieces (here.after chars) text := by
  cases chars with
  | nil => exact absurd rfl nonempty
  | cons c chars =>
    obtain ⟨first, later⟩ := List.forall_mem_cons.1 undelimited
    obtain ⟨dark, letter⟩ := Bool.or_eq_false_iff.1 first
    have unmarked : Mark.ofChar? c = none := Option.not_isSome_iff_eq_none.1 (by simp [letter])
    obtain ⟨own, rest⟩ : (chars ++ text).takeWhile inWord = chars ∧
        (chars ++ text).dropWhile inWord = text :=
      takeWhile_dropWhile_append (fun d inside => by rw [inWord, later d inside]; rfl)
        fun d next => by rw [inWord, delimited d next]; rfl
    rw [List.cons_append, pieces, unmarked]
    · simp only [dark, Bool.false_eq_true, if_false, own, rest]
    · rintro more rfl same
      -- The second hyphen would be in the word, where it opens a comment, or after it.
      cases chars with
      | nil =>
        have ends := delimited '-' (by rw [List.nil_append] at same; rw [same]; rfl)
        cases ends
      | cons d chars =>
        cases same
        exact not_comment ⟨chars, rfl⟩

/-- Two hyphens and the rest of the line are one piece. -/
theorem pieces_comment {body : List Char} (line : ∀ c ∈ body, c ≠ '\n')
    (ends : ∀ c ∈ text.head?, c = '\n') : pieces here ('-' :: '-' :: body ++ text) =
      (.comment body, here) :: pieces (here.after ('-' :: '-' :: body)) text := by
  obtain ⟨own, rest⟩ : (body ++ text).takeWhile inLine = body ∧
      (body ++ text).dropWhile inLine = text :=
    takeWhile_dropWhile_append (fun c inside => by simp [inLine, line c inside])
      fun c next => by simp [inLine, ends c next]
  rw [List.cons_append, List.cons_append, pieces, own, rest]
  rfl

/-- Induction on a text piece by piece. -/
@[elab_as_elim]
theorem induction {motive : List Char → Prop} (nil : motive [])
    (white : ∀ c text, isWhite c = true → motive text → motive (c :: text))
    (mark : ∀ (m : Mark) text, motive text → motive (m.char :: text))
    (word : ∀ chars text, chars ≠ [] → (∀ c ∈ chars, isDelimiter c = false) →
      ¬ ['-', '-'] <+: chars → Delimited text → motive text → motive (chars ++ text))
    (comment : ∀ body text, (∀ c ∈ body, c ≠ '\n') → (∀ c ∈ text.head?, c = '\n') →
      motive text → motive ('-' :: '-' :: body ++ text)) (text : List Char) : motive text := by
  have from_here : ∀ here : Position, motive text := by
    intro here
    fun_induction pieces here text with
    | case1 here => exact nil
    | case2 here rest body ih =>
      have line : ∀ c ∈ body, c ≠ '\n' := fun c inside => by
        simpa [inLine] using List.all_eq_true.1 List.all_takeWhile c inside
      have ends : ∀ c ∈ (rest.dropWhile inLine).head?, c = '\n' := fun c next => by
        simpa [inLine] using eq_false_of_mem_head?_dropWhile next
      have split : '-' :: '-' :: body ++ rest.dropWhile inLine = '-' :: '-' :: rest :=
        congrArg ('-' :: '-' :: ·) List.takeWhile_append_dropWhile
      exact split ▸ comment body _ line ends ih
    | case3 here c rest _ m found ih =>
      obtain rfl := ofChar?_eq_some_iff.1 found
      exact mark m rest ih
    | case4 here c rest _ _ dark ih => exact white c rest dark ih
    | case5 here c rest hyphens unmarked dark chars ih =>
      have delimited : Delimited (rest.dropWhile inWord) := fun d next => by
        simpa [inWord] using eq_false_of_mem_head?_dropWhile next
      have undelimited : ∀ d ∈ chars, isDelimiter d = false := by
        refine List.forall_mem_cons.2 ⟨?_, fun d inside => ?_⟩
        · rw [isDelimiter, Bool.eq_false_iff.2 dark, unmarked]
          rfl
        · simpa [inWord] using List.all_eq_true.1 List.all_takeWhile d inside
      have visible : ¬ ['-', '-'] <+: chars := by
        rintro ⟨more, same⟩
        obtain ⟨rfl, second⟩ := List.cons.inj same
        refine hyphens (more ++ rest.dropWhile inWord) rfl ?_
        exact (List.takeWhile_append_dropWhile.symm.trans (congrArg (· ++ _) second.symm))
      have split : chars ++ rest.dropWhile inWord = c :: rest :=
        congrArg (c :: ·) List.takeWhile_append_dropWhile
      exact split ▸ word chars _ (List.cons_ne_nil c _) undelimited visible delimited ih
  exact from_here .start

/-! ### Tokens -/

/-- The first piece has its token if all have theirs. -/
theorem lexemes_cons_eq_ok_iff {piece : Piece} {rest : List (Piece × Position)} :
    lexemes ((piece, here) :: rest) = .ok tokens ↔
      ∃ token later, piece.token here = .ok token ∧ lexemes rest = .ok later ∧
        tokens = ⟨token, here⟩ :: later := by
  rw [lexemes]
  cases piece.token here with
  | error e => simp [bind, Except.bind]
  | ok token =>
    cases lexemes rest with
    | error e => simp [bind, Except.bind]
    | ok later => simp [bind, Except.bind, pure, Except.pure, eq_comm]

/-- Digits are a number when their value fits. -/
theorem token_number {digits : List Char} {token : Token}
    (all : ∀ c ∈ digits, c.isDigit = true) : (Piece.word digits).token here = .ok token ↔
      ∃ value : UInt64, decimal digits = value.toNat ∧ token = .number value := by
  rw [Piece.token, if_pos (List.all_eq_true.2 all)]
  constructor
  · intro fits
    split at fits
    · next small =>
      cases fits
      exact ⟨_, (UInt64.toNat_ofNat_of_lt small).symm, rfl⟩
    · cases fits
  · rintro ⟨value, same, rfl⟩
    rw [same, if_pos value.toNat_lt_size, UInt64.ofNat_toNat]

/-- Other characters are a word. -/
theorem token_word {chars : List Char} (other : ¬ ∀ c ∈ chars, c.isDigit = true) :
    (Piece.word chars).token here = .ok (.word (String.ofList chars)) := by
  rw [Piece.token, if_neg fun all => other (List.all_eq_true.1 all)]

/-! ### Cutting is finding a layout -/

/-- A text that is cut into these tokens is a layout of them. -/
theorem layout_of_lexemes (cut : lexemes (pieces here text) = .ok tokens) :
    Layout here text tokens := by
  induction text using Text.induction generalizing here tokens with
  | nil =>
    rw [pieces] at cut
    cases cut
    exact .nil here
  | white c text white ih =>
    rw [pieces_white white] at cut
    exact .white white (ih cut)
  | mark m text ih =>
    rw [pieces_mark] at cut
    obtain ⟨token, later, made, others, rfl⟩ := lexemes_cons_eq_ok_iff.1 cut
    cases made
    exact .mark m (ih others)
  | word chars text nonempty undelimited visible delimited ih =>
    rw [pieces_word nonempty undelimited visible delimited] at cut
    obtain ⟨token, later, made, others, rfl⟩ := lexemes_cons_eq_ok_iff.1 cut
    by_cases digits : ∀ d ∈ chars, d.isDigit = true
    · obtain ⟨value, same, rfl⟩ := (token_number digits).1 made
      exact .number nonempty digits same delimited (ih others)
    · rw [token_word digits] at made
      cases made
      exact .word ⟨nonempty, undelimited, digits, visible⟩ delimited (ih others)
  | comment body text line ends ih =>
    rw [pieces_comment line ends] at cut
    obtain ⟨token, later, made, others, rfl⟩ := lexemes_cons_eq_ok_iff.1 cut
    cases made
    exact .comment line ends (ih others)

/-- A layout is cut into its tokens. -/
theorem Layout.lexemes (layout : Layout here text tokens) :
    lexemes (pieces here text) = .ok tokens := by
  induction layout with
  | nil here => simp [pieces, Text.lexemes]
  | white white _ ih => rw [pieces_white white, ih]
  | mark m _ ih =>
    rw [pieces_mark, lexemes_cons_eq_ok_iff]
    exact ⟨_, _, rfl, ih, rfl⟩
  | word word delimited _ ih =>
    rw [pieces_word word.nonempty word.undelimited word.not_comment delimited,
      lexemes_cons_eq_ok_iff]
    exact ⟨_, _, token_word word.not_digits, ih, rfl⟩
  | number nonempty digits value delimited _ ih =>
    rw [pieces_word nonempty (fun c inside => isDelimiter_of_isDigit (digits c inside))
      (not_comment_of_digits digits) delimited, lexemes_cons_eq_ok_iff]
    exact ⟨_, _, (token_number digits).2 ⟨_, value, rfl⟩, ih, rfl⟩
  | comment line ends _ ih =>
    rw [pieces_comment line ends, lexemes_cons_eq_ok_iff]
    exact ⟨_, _, rfl, ih, rfl⟩

/-- **Cutting is finding a layout.** A text is cut into tokens exactly if it is a layout of
them. -/
theorem lex_eq_ok_iff {text : String} : lex text = .ok tokens ↔
    Layout .start text.toList tokens :=
  ⟨layout_of_lexemes, Layout.lexemes⟩

/-- A text is refused exactly if there are no tokens of which it is a layout. -/
theorem exists_lex_error_iff {text : String} : (∃ o, lex text = .error o) ↔
    ∀ tokens, ¬ Layout .start text.toList tokens := by
  simp only [← lex_eq_ok_iff]
  cases lex text with
  | error o => simp
  | ok tokens => simp

/-! ### Comments -/

/-- Whether the second tokens are the first without the comments. -/
inductive Uncommented : List Lexeme → List Lexeme → Prop
  /-- Without tokens there is none. -/
  | nil : Uncommented [] []
  /-- A comment is left out. -/
  | comment (body : String) (here : Position) {tokens visible : List Lexeme} :
      Uncommented tokens visible → Uncommented (⟨.comment body, here⟩ :: tokens) visible
  /-- Any other token stays. -/
  | other {l : Lexeme} {tokens visible : List Lexeme} : (∀ body, l.token ≠ .comment body) →
      Uncommented tokens visible → Uncommented (l :: tokens) (l :: visible)

/-- A token is a comment or another one. -/
theorem Lexeme.isComment_cases (l : Lexeme) :
    (l.isComment = true ∧ ∃ body here, l = ⟨.comment body, here⟩) ∨
      (l.isComment = false ∧ ∀ body, l.token ≠ .comment body) := by
  obtain ⟨token, here⟩ := l
  cases token with
  | comment body => exact .inl ⟨rfl, body, here, rfl⟩
  | word | number | mark => exact .inr ⟨rfl, fun _ => Token.noConfusion⟩

/-- There is one way to leave out the comments. -/
theorem uncommented_iff {visible : List Lexeme} :
    Uncommented tokens visible ↔ withoutComments tokens = visible := by
  constructor
  · intro left
    induction left with
    | nil => rfl
    | comment body here _ ih => exact ih
    | @other l _ _ visible _ ih =>
      rcases l.isComment_cases with ⟨-, body, here, rfl⟩ | ⟨stays, -⟩
      · exact absurd rfl (visible body)
      · rw [withoutComments, List.filter_cons_of_pos (by rw [stays]; rfl)]
        exact congrArg (l :: ·) ih
  · rintro rfl
    induction tokens with
    | nil => exact .nil
    | cons l tokens ih =>
      rcases l.isComment_cases with ⟨-, body, here, rfl⟩ | ⟨stays, visible⟩
      · exact .comment body here ih
      · rw [withoutComments, List.filter_cons_of_pos (by rw [stays]; rfl)]
        exact .other visible ih

/-! ### Words -/

/-- Each word token of a layout is a word. -/
theorem Layout.isWord {l : Lexeme} {name : String} (layout : Layout here text tokens)
    (inside : l ∈ tokens) (named : l.token = .word name) : IsWord name.toList := by
  induction layout with
  | nil here => cases inside
  | white _ _ ih => exact ih inside
  | word word _ _ ih =>
    rcases List.mem_cons.1 inside with rfl | later
    · cases named
      rw [String.toList_ofList]
      exact word
    · exact ih later
  | mark | number | comment =>
    rcases List.mem_cons.1 inside with rfl | later
    · cases named
    · rename_i ih
      exact ih later

end BehaviouralTypes.Text
