import BehaviouralTypes.Text.Ranges

/-!
# White space

The characters with the Unicode property `White_Space`, and what is done with them: they are
trimmed from both ends of a text, and they separate words.
-/

namespace BehaviouralTypes.Text

/-- The first and last code point of each run of white space characters. -/
def whiteRanges : List (Nat × Nat) :=
  [(0x9, 0xD), (0x20, 0x20), (0x85, 0x85), (0xA0, 0xA0), (0x1680, 0x1680), (0x2000, 0x200A),
   (0x2028, 0x2029), (0x202F, 0x202F), (0x205F, 0x205F), (0x3000, 0x3000)]

/-- Whether the character is white space. -/
def isWhite (c : Char) : Bool := inRanges whiteRanges c

/-- The text without the white space at its two ends. -/
def trim (text : List Char) : List Char :=
  ((text.dropWhile isWhite).reverse.dropWhile isWhite).reverse

/-- The longest runs without white space, in order. -/
def words (text : List Char) : List (List Char) := (text.splitBy separated).filter (!·.all isWhite)
where
  /-- Whether two neighbours belong to the same run. -/
  separated (c d : Char) : Bool := isWhite c == isWhite d

end BehaviouralTypes.Text
