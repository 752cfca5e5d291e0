import BehaviouralTypes.Text.Position
import BehaviouralTypes.Text.White

/-!
# Tokens

The words and marks of the textual form, each with the place where it starts.
-/

namespace BehaviouralTypes.Text

/-- The marks, each a token of one character. -/
inductive Mark where
  /-- The opening parenthesis. -/
  | opening
  /-- The closing parenthesis. -/
  | closing
  /-- The comma. -/
  | comma
  /-- The colon. -/
  | colon
  /-- The semicolon. -/
  | semicolon
  /-- The equals sign. -/
  | equal
deriving DecidableEq, Repr

namespace Mark

/-- The character of the mark. -/
def char : Mark → Char
  | opening => '('
  | closing => ')'
  | comma => ','
  | colon => ':'
  | semicolon => ';'
  | equal => '='

/-- Every mark. -/
def all : List Mark := [opening, closing, comma, colon, semicolon, equal]

/-- The mark with that character. -/
def ofChar? (c : Char) : Option Mark := all.find? (·.char = c)

end Mark

/-- Whether the character ends the word before it. -/
def isDelimiter (c : Char) : Bool := isWhite c || (Mark.ofChar? c).isSome

/-- A token of a text. -/
inductive Token where
  /-- A word that is not a number; keywords are words too. -/
  | word (text : String)
  /-- A number. -/
  | number (value : UInt64)
  /-- A mark. -/
  | mark (mark : Mark)
  /-- A comment, without its hyphens and without the white space around it. -/
  | comment (text : String)
deriving DecidableEq, Repr

/-- How the token is shown in an error message. -/
def Token.shown : Token → String
  | word text => s!"'{text}'"
  | number value => toString value.toNat
  | mark m => s!"'{m.char}'"
  | comment _ => "comment"

/-- A token and the place of its first character. -/
structure Lexeme where
  /-- The token. -/
  token : Token
  /-- Where it starts. -/
  position : Position
deriving DecidableEq, Repr

/-- Whether the token is a comment. -/
def Lexeme.isComment (l : Lexeme) : Bool :=
  match l.token with
  | .comment _ => true
  | .word _ | .number _ | .mark _ => false

end BehaviouralTypes.Text
