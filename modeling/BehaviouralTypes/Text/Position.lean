/-!
# Places in a text

Where a character stands, told by its line and by its number in the line.
-/

namespace BehaviouralTypes.Text

/-- A place in a text, counted from one. Columns count characters and only a line feed starts a
line. -/
structure Position where
  /-- The number of the line. -/
  line : Nat
  /-- The number of the character in its line. -/
  column : Nat
deriving DecidableEq, Repr

namespace Position

/-- The place of the first character of a text. -/
def start : Position := ⟨1, 1⟩

/-- The place after a character that stands here. -/
def next (p : Position) (c : Char) : Position :=
  if c = '\n' then ⟨p.line + 1, 1⟩ else ⟨p.line, p.column + 1⟩

/-- The place after characters that start here. -/
def after (p : Position) (text : List Char) : Position := text.foldl next p

/-- Line and column with a colon between them. -/
def text (p : Position) : String := s!"{p.line}:{p.column}"

end Position

end BehaviouralTypes.Text
