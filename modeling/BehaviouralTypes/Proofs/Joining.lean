import BehaviouralTypes.Proofs.Feeding
import BehaviouralTypes.Proofs.Layout

/-!
# Texts joined by line breaks

A line break ends whatever piece stands before it: a word, a mark or a comment. So a text with a
line break in it is cut into the pieces before the line break and those behind it, each as if it
stood alone, but for the lines on which the latter stand (`Text.pieces_append_lineBreak`). Reading
does not look at lines, and a definition ends where the next one begins. So texts that a parser
takes in turn are also one text (`Program.ofText_intercalate`).
-/

namespace BehaviouralTypes.Text

variable {here : Position} {text later : List Char} {tokens more : List Lexeme}

/-! ### Further down -/

/-- The place that many lines further down. -/
def Position.down (lines : Nat) (p : Position) : Position := ⟨p.line + lines, p.column⟩

/-- The token that many lines further down. -/
def Lexeme.down (lines : Nat) (l : Lexeme) : Lexeme := ⟨l.token, l.position.down lines⟩

/-- A character leads as far from a place further down. -/
theorem Position.next_down (lines : Nat) (p : Position) (c : Char) :
    (p.down lines).next c = (p.next c).down lines := by
  unfold next
  split
  · rw [down, down, Nat.add_right_comm]
  · rfl

/-- A text leads as far from a place further down. -/
theorem Position.after_down (lines : Nat) (p : Position) (text : List Char) :
    (p.down lines).after text = (p.after text).down lines := by
  induction text generalizing p with
  | nil => rfl
  | cons c text ih =>
    have first : (p.down lines).after (c :: text) = ((p.down lines).next c).after text := rfl
    rw [first, next_down, ih]
    rfl

/-- After a line break a line begins, further down by the line breaks before. -/
theorem Position.after_lineBreak (p : Position) (text : List Char) :
    p.after (text ++ ['\n']) = ⟨p.line + (text.count '\n' + 1), 1⟩ := by
  induction text generalizing p with
  | nil => rfl
  | cons c text ih =>
    have first : p.after (c :: text ++ ['\n']) = (p.next c).after (text ++ ['\n']) := rfl
    rw [first, ih, next]
    by_cases same : c = '\n'
    · simp only [same, if_true, List.count_cons_self]
      congr 1
      omega
    · simp only [same, if_false, List.count_cons_of_ne same]

/-! ### Pieces -/

/-- Where a text starts only shows in the places of its pieces. -/
theorem pieces_down (lines : Nat) (here : Position) (text : List Char) :
    pieces (here.down lines) text =
      (pieces here text).map fun piece => (piece.1, piece.2.down lines) := by
  induction text using Text.induction generalizing here with
  | nil => simp only [pieces, List.map_nil]
  | white c text white ih => rw [pieces_white white, pieces_white white, Position.next_down, ih]
  | mark m text ih => rw [pieces_mark, pieces_mark, Position.next_down, ih, List.map_cons]
  | word chars text nonempty undelimited visible delimited ih =>
    rw [pieces_word nonempty undelimited visible delimited,
      pieces_word nonempty undelimited visible delimited, Position.after_down, ih, List.map_cons]
  | comment body text line ends ih =>
    rw [pieces_comment line ends, pieces_comment line ends, Position.after_down, ih, List.map_cons]

/-- A line break ends the piece before it, and what is behind it is cut by itself. -/
theorem pieces_append_lineBreak (here : Position) (text later : List Char) :
    pieces here (text ++ '\n' :: later) =
      pieces here text ++ pieces (here.after (text ++ ['\n'])) later := by
  induction text using Text.induction generalizing here with
  | nil =>
    rw [List.nil_append, pieces_white rfl, pieces]
    rfl
  | white c text white ih =>
    rw [List.cons_append, pieces_white white, pieces_white white, ih]
    rfl
  | mark m text ih =>
    rw [List.cons_append, pieces_mark, pieces_mark, ih]
    rfl
  | word chars text nonempty undelimited visible delimited ih =>
    have broken : Delimited (text ++ '\n' :: later) :=
      forall_mem_head?_append delimited fun c next => by cases next; rfl
    rw [List.append_assoc, pieces_word nonempty undelimited visible broken,
      pieces_word nonempty undelimited visible delimited, ih, Position.after_after,
      ← List.append_assoc]
    rfl
  | comment body text line ends ih =>
    have broken : ∀ c ∈ (text ++ '\n' :: later).head?, c = '\n' :=
      forall_mem_head?_append ends fun c next => by cases next; rfl
    rw [List.append_assoc, pieces_comment line broken, pieces_comment line ends, ih,
      Position.after_after, ← List.append_assoc]
    rfl

/-! ### Tokens -/

/-- The tokens of pieces in a row. -/
theorem lexemes_append_eq_ok_iff {first second : List (Piece × Position)} :
    lexemes (first ++ second) = .ok tokens ↔ ∃ before behind, lexemes first = .ok before ∧
      lexemes second = .ok behind ∧ tokens = before ++ behind := by
  induction first generalizing tokens with
  | nil =>
    constructor
    · exact fun cut => ⟨[], tokens, rfl, cut, rfl⟩
    · rintro ⟨_, behind, nothing, cut, rfl⟩
      cases nothing
      exact cut
  | cons piece first ih =>
    obtain ⟨piece, here⟩ := piece
    simp only [List.cons_append, lexemes_cons_eq_ok_iff, ih]
    constructor
    · rintro ⟨token, later, made, ⟨before, behind, own, others, rfl⟩, rfl⟩
      exact ⟨_, behind, ⟨token, before, made, own, rfl⟩, others, rfl⟩
    · rintro ⟨_, behind, ⟨token, before, made, own, rfl⟩, others, rfl⟩
      exact ⟨token, _, made, ⟨before, behind, own, others, rfl⟩, rfl⟩

/-- Where a piece starts does not show in its token. -/
theorem Piece.token_eq_ok_iff {piece : Piece} {there : Position} {token : Token} :
    piece.token here = .ok token ↔ piece.token there = .ok token := by
  cases piece with
  | mark m => rfl
  | comment chars => rfl
  | word chars =>
    by_cases digits : ∀ c ∈ chars, c.isDigit = true
    · rw [token_number digits, token_number digits]
    · rw [token_word digits, token_word digits]

/-- Pieces further down are the same tokens further down. -/
theorem lexemes_down_eq_ok_iff {lines : Nat} {cut : List (Piece × Position)} :
    lexemes (cut.map fun piece => (piece.1, piece.2.down lines)) = .ok tokens ↔
      ∃ before, lexemes cut = .ok before ∧ tokens = before.map (Lexeme.down lines) := by
  induction cut generalizing tokens with
  | nil =>
    constructor
    · intro cut
      cases cut
      exact ⟨[], rfl, rfl⟩
    · rintro ⟨_, nothing, rfl⟩
      cases nothing
      rfl
  | cons piece cut ih =>
    obtain ⟨piece, here⟩ := piece
    simp only [List.map_cons, lexemes_cons_eq_ok_iff, ih]
    constructor
    · rintro ⟨token, _, made, ⟨before, own, rfl⟩, rfl⟩
      exact ⟨_, ⟨token, before, Piece.token_eq_ok_iff.1 made, own, rfl⟩, rfl⟩
    · rintro ⟨_, ⟨token, before, made, own, rfl⟩, rfl⟩
      exact ⟨token, _, Piece.token_eq_ok_iff.1 made, ⟨before, own, rfl⟩, rfl⟩

/-- Texts with a line break between them are cut into the tokens of the first and, further down,
those of the second. -/
theorem lex_append_lineBreak_eq_ok_iff {first second : String} :
    lex (first ++ "\n" ++ second) = .ok tokens ↔ ∃ before behind, lex first = .ok before ∧
      lex second = .ok behind ∧
      tokens = before ++ behind.map (Lexeme.down (first.toList.count '\n' + 1)) := by
  have chars : (first ++ "\n" ++ second).toList = first.toList ++ '\n' :: second.toList := by
    rw [String.toList_append, String.toList_append, List.append_assoc]
    rfl
  have behind : pieces (Position.start.after (first.toList ++ ['\n'])) second.toList =
      (pieces .start second.toList).map fun piece =>
        (piece.1, piece.2.down (first.toList.count '\n' + 1)) := by
    rw [Position.after_lineBreak]
    exact pieces_down _ .start second.toList
  rw [lex, chars, pieces_append_lineBreak, behind, lexemes_append_eq_ok_iff]
  simp only [lexemes_down_eq_ok_iff]
  constructor
  · rintro ⟨before, _, own, ⟨others, cut, rfl⟩, rfl⟩
    exact ⟨before, others, own, cut, rfl⟩
  · rintro ⟨before, others, own, cut, rfl⟩
    exact ⟨before, _, own, ⟨others, cut, rfl⟩, rfl⟩

/-- Comments and places do not show in what is read. -/
theorem tokens_append_down (before behind : List Lexeme) (lines : Nat) :
    (withoutComments (before ++ behind.map (Lexeme.down lines))).map (·.token) =
      (withoutComments before).map (·.token) ++ (withoutComments behind).map (·.token) := by
  rw [withoutComments, List.filter_append, List.map_append, List.filter_map, List.map_map]
  rfl

end BehaviouralTypes.Text

namespace BehaviouralTypes.Program

open Text (Lexeme Phrase)

variable {p q r : Program} {lexemes : List Lexeme} {first second text : String}

/-! ### Programs -/

/-- Tokens are taken without an error exactly if the grammar derives them for functions that can be
added. -/
theorem extendBy_eq_ok_iff_derives : p.extendBy lexemes = (q, none) ↔ ∃ functions,
    (Phrase.program functions).Derives (lexemes.map (·.token)) ∧
      q.functions = p.functions ++ functions := by
  rw [extendBy_eq_iff]
  constructor
  · rintro ⟨definitions, read, added⟩
    exact ⟨_, Phrase.derives_program_iff_read.2 ⟨definitions, read, rfl⟩, added⟩
  · rintro ⟨_, derived, added⟩
    obtain ⟨definitions, read, rfl⟩ := Phrase.derives_program_iff_read.1 derived
    exact ⟨definitions, read, added⟩

/-- A text is taken without an error exactly if it has tokens that are. -/
theorem extend_eq_ok_iff : p.extend text = (q, none) ↔ ∃ lexemes, Text.lex text = .ok lexemes ∧
    p.extendBy (Text.withoutComments lexemes) = (q, none) := by
  unfold extend
  cases Text.lex text with
  | error e => simp
  | ok lexemes => simp

/-- Texts that are taken in turn are taken as one text on lines of their own. -/
theorem extend_append_lineBreak (taken : p.extend first = (q, none))
    (next : q.extend second = (r, none)) : p.extend (first ++ "\n" ++ second) = (r, none) := by
  obtain ⟨before, own, reads⟩ := extend_eq_ok_iff.1 taken
  obtain ⟨behind, others, goes_on⟩ := extend_eq_ok_iff.1 next
  obtain ⟨functions, derived, added⟩ := extendBy_eq_ok_iff_derives.1 reads
  obtain ⟨more, also, grown⟩ := extendBy_eq_ok_iff_derives.1 goes_on
  refine extend_eq_ok_iff.2 ⟨_, Text.lex_append_lineBreak_eq_ok_iff.2 ⟨_, _, own, others, rfl⟩,
    extendBy_eq_ok_iff_derives.2 ⟨functions ++ more, ?_, ?_⟩⟩
  · obtain ⟨tokens, tellable⟩ := Phrase.derives_program_iff.1 derived
    obtain ⟨others, all⟩ := Phrase.derives_program_iff.1 also
    refine Phrase.derives_program_iff.2 ⟨?_, List.forall_mem_append.2 ⟨tellable, all⟩⟩
    rw [Text.tokens_append_down, tokens, others, List.flatMap_append]
  · rw [grown, added, List.append_assoc]

/-- Texts each of which is taken behind those before it are taken as one text, with line breaks
between them. -/
theorem extend_intercalate (p : Program) (texts : List String)
    (taken : ∀ i, ∀ within : i < texts.length,
      ((p.feed (texts.take i)).extend texts[i]).2 = none) :
    p.extend ("\n".intercalate texts) = (p.feed texts, none) := by
  induction texts generalizing p with
  | nil =>
    rw [String.intercalate_nil]
    exact extend_eq_ok_iff.2 ⟨[], Text.lex_eq_ok_iff.2 (.nil .start), rfl⟩
  | cons text texts ih =>
    have head : p.extend text = (p.feed [text], none) :=
      Prod.ext rfl (taken 0 (Nat.zero_lt_succ _))
    have tail := ih (p.feed [text]) fun i within => taken (i + 1) (Nat.succ_lt_succ within)
    cases texts with
    | nil =>
      rw [String.intercalate_singleton]
      exact head
    | cons next texts =>
      rw [String.intercalate_cons_cons]
      exact extend_append_lineBreak head tail

/-- **Texts in turn are one text.** If a new parser takes all of each text that it is fed, then the
texts with line breaks between them are read as the same program. For tokens the converse is true as
well: two texts with a line break between them can be cut exactly if each of them can, and then into
the tokens of the first and those of the second, which stand further down by the lines of the
first. -/
theorem ofText_intercalate :
    (∀ texts : List String,
      (∀ i, ∀ within : i < texts.length,
        ((empty.feed (texts.take i)).extend texts[i]).2 = none) →
      ofText ("\n".intercalate texts) = .ok (empty.feed texts)) ∧
    ∀ (first second : String) (tokens : List Lexeme),
      Text.lex (first ++ "\n" ++ second) = .ok tokens ↔
        ∃ before behind, Text.lex first = .ok before ∧ Text.lex second = .ok behind ∧
          tokens = before ++ behind.map (Text.Lexeme.down (1 + first.toList.count '\n')) := by
  refine ⟨fun texts taken => ?_, fun first second tokens => ?_⟩
  · rw [ofText, extend_intercalate empty texts taken]
  · rw [Nat.add_comm]
    exact Text.lex_append_lineBreak_eq_ok_iff

/-- Texts that end in a comment, in an open body and in an empty comment. -/
theorem ofText_intercalate_open_ends :
    let texts := ["def a(x): send x; -- def", "def b(): call a(y);\ndef c():", "--",
      "def d(): if tau; else endif;"]
    (∀ i, ∀ within : i < texts.length,
      ((empty.feed (texts.take i)).extend texts[i]).2 = none) ∧
    ofText ("\n".intercalate texts) = .ok (empty.feed texts) := by
  intro texts
  have taken : ∀ i, ∀ within : i < texts.length,
      ((empty.feed (texts.take i)).extend texts[i]).2 = none := by decide +kernel
  exact ⟨taken, ofText_intercalate.1 texts taken⟩

end BehaviouralTypes.Program
