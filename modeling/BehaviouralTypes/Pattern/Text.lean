import BehaviouralTypes.Pattern.Footprint
import BehaviouralTypes.Pattern.Meaning
import BehaviouralTypes.Pattern.Reader

/-!
# Patterns as text

A text is read as a pattern unless it makes no sense, asks for words that are not made of ASCII
characters, or describes something too large.
-/

namespace BehaviouralTypes.Pattern

/-- Why a text is not accepted as a pattern. -/
inductive Refusal where
  /-- The text makes no sense as a pattern. -/
  | fault (pattern : String) (fault : Fault)
  /-- The borders of words are known for ASCII only. -/
  | borderUnavailable
  /-- The pattern is larger than that. -/
  | tooLarge (greatest : Nat)

/-- How the refusal is told. -/
def Refusal.message : Refusal → String
  | fault pattern f => f.report pattern
  | borderUnavailable => "error building NFA"
  | tooLarge greatest => s!"Compiled regex exceeds size limit of {greatest} bytes."

mutual

/-- Whether a border of a word outside ASCII is asked for. -/
def needsWords : Pattern → Bool
  | empty | set _ => false
  | place (.border _ ascii) => !ascii
  | place _ => false
  | remembered body | repeated _ _ body => body.needsWords
  | sequence parts | choice parts => anyNeedsWords parts

/-- Whether one of some patterns asks for a border of a word outside ASCII. -/
def anyNeedsWords : List Pattern → Bool
  | [] => false
  | p :: rest => p.needsWords || anyNeedsWords rest

end

/-- The pattern, unless it is too large or asks for what there is not. -/
def accepted (p : Pattern) : Except Refusal Pattern :=
  if greatestSize < p.size false then .error (.tooLarge greatestSize)
  else if p.needsWords then .error .borderUnavailable
  else if greatestSize < p.size true then .error (.tooLarge greatestSize)
  else .ok p

/-- Reads a pattern. -/
def ofText (pattern : String) : Except Refusal Pattern :=
  match (do (← Tree.ofText pattern.toList).pattern .initial) with
  | .error fault => .error (.fault pattern fault)
  | .ok (p, _) => p.accepted

end BehaviouralTypes.Pattern
