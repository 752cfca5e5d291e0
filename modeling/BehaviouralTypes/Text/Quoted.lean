import BehaviouralTypes.Text.Extending
import BehaviouralTypes.Text.Unprintable

/-!
# Quoted text

A text between double quotes in which every character can be told from its looks. Four control
characters are escaped by a letter, and characters without a shape of their own by their code
point. Two decisions differ from one place of a report to another: whether a single quote is
escaped, and whether a character that extends the one before it is.
-/

namespace BehaviouralTypes.Text

/-- What is escaped besides the characters that always are. -/
structure Quoting where
  /-- Whether a single quote is escaped. -/
  singleQuote : Bool
  /-- Whether a character that extends the one before it is escaped. -/
  extending : Bool
deriving DecidableEq, Repr

namespace Quoting

/-- The decisions for the name of a file and for the cause of a failure. -/
def verbatim : Quoting := ⟨false, true⟩

/-- The decisions for what was being attempted. -/
def attempt : Quoting := ⟨true, false⟩

/-- How a character is written. -/
def escaped (q : Quoting) (c : Char) : List Char :=
  if c = '\x00' then ['\\', '0']
  else if c = '\t' then ['\\', 't']
  else if c = '\n' then ['\\', 'n']
  else if c = '\r' then ['\\', 'r']
  else if c = '\\' then ['\\', '\\']
  else if c = '"' then ['\\', '"']
  else if c = '\'' && q.singleQuote then ['\\', '\'']
  else if (isExtending c && q.extending) || !isPrintable c then
    ['\\', 'u', '\x7b'] ++ Nat.toDigits 16 c.toNat ++ ['\x7d']
  else [c]

/-- The text between double quotes. -/
def quote (q : Quoting) (text : String) : String :=
  "\"" ++ String.ofList (text.toList.flatMap q.escaped) ++ "\""

end Quoting

end BehaviouralTypes.Text
