import BehaviouralTypes.Text.Token

/-!
# Cutting a text into tokens

A text is first cut into pieces, which always succeeds: a mark is a piece, two hyphens where a
piece begins open a comment that lasts to the end of the line, and anything else but white space
is a word up to the next delimiter. Hyphens inside a word are ordinary characters. Then each piece
becomes a token. That fails only for a word of digits whose value is too large.
-/

namespace BehaviouralTypes.Text

/-- A stretch of text that becomes one token. -/
inductive Piece where
  /-- The characters of a word. -/
  | word (chars : List Char)
  /-- A mark. -/
  | mark (mark : Mark)
  /-- The characters of a comment after its two hyphens. -/
  | comment (chars : List Char)
deriving DecidableEq, Repr

/-- Whether the character belongs to the word in which it stands. -/
def inWord (c : Char) : Bool := !isDelimiter c

/-- Whether the character belongs to the line in which it stands. -/
def inLine (c : Char) : Bool := c ≠ '\n'

/-- Cuts a text that starts at `here` into its pieces, each with the place where it starts. -/
def pieces (here : Position) : List Char → List (Piece × Position)
  | [] => []
  | '-' :: '-' :: rest =>
    let body := rest.takeWhile inLine
    (.comment body, here) :: pieces ((here.after ['-', '-']).after body) (rest.dropWhile inLine)
  | c :: rest =>
    match Mark.ofChar? c with
    | some m => (.mark m, here) :: pieces (here.next c) rest
    | none =>
      if isWhite c then
        pieces (here.next c) rest
      else
        let chars := c :: rest.takeWhile inWord
        (.word chars, here) :: pieces (here.after chars) (rest.dropWhile inWord)
termination_by text => text.length
decreasing_by
  · have shorter := (List.dropWhile_sublist inLine (l := rest)).length_le
    simp only [List.length_cons]
    omega
  · simp
  · simp
  · have shorter := (List.dropWhile_sublist inWord (l := rest)).length_le
    simp only [List.length_cons]
    omega

/-- The value of decimal digits. -/
def decimal (digits : List Char) : Nat :=
  digits.foldl (fun value c => 10 * value + (c.toNat - '0'.toNat)) 0

/-- A number that does not fit in 64 bits. -/
structure Overflow where
  /-- The digits as they were written. -/
  digits : String
  /-- Where the number starts. -/
  position : Position
deriving DecidableEq, Repr

/-- The token of a piece that starts at `here`. -/
def Piece.token (here : Position) : Piece → Except Overflow Token
  | word chars =>
    if chars.all Char.isDigit then
      if decimal chars < UInt64.size then .ok (.number (UInt64.ofNat (decimal chars)))
      else .error ⟨String.ofList chars, here⟩
    else .ok (.word (String.ofList chars))
  | mark m => .ok (.mark m)
  | comment chars => .ok (.comment (String.ofList (trim chars)))

/-- The lexemes of pieces, up to the first number that is too large. -/
def lexemes : List (Piece × Position) → Except Overflow (List Lexeme)
  | [] => .ok []
  | (piece, here) :: rest => do
    let token ← piece.token here
    return ⟨token, here⟩ :: (← lexemes rest)

/-- The tokens of a text, comments included. -/
def lex (text : String) : Except Overflow (List Lexeme) := lexemes (pieces .start text.toList)

/-- The lexemes other than comments. -/
def withoutComments (lexemes : List Lexeme) : List Lexeme := lexemes.filter (!·.isComment)

end BehaviouralTypes.Text
