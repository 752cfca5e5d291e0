import BehaviouralTypes.Pattern.CharSet

/-!
# Patterns

What a pattern asks of a text, once its flags are settled: characters of sets and conditions on
places, one after the other, as alternatives, and repeated.
-/

namespace BehaviouralTypes

namespace Pattern

/-- The conditions on a place in a text. -/
inductive Place where
  /-- The text starts here. -/
  | textStart
  /-- The text ends here. -/
  | textEnd
  /-- A line starts here. A carriage return may end lines too. -/
  | lineStart (carriageReturn : Bool)
  /-- A line ends here. A carriage return may end lines too. -/
  | lineEnd (carriageReturn : Bool)
  /-- A word has such a border here. Words may be made of ASCII characters only. -/
  | border (border : Border) (ascii : Bool)
deriving DecidableEq, Repr

end Pattern

/-- A pattern, or a part of one. -/
inductive Pattern where
  /-- Nothing. -/
  | empty
  /-- One character of a set. -/
  | set (set : Pattern.CharSet)
  /-- Nothing at a place that meets a condition. -/
  | place (place : Pattern.Place)
  /-- A part that is remembered. -/
  | remembered (body : Pattern)
  /-- A part at least so many times, and at most so many times if there is a bound. -/
  | repeated (least : Nat) (most : Option Nat) (body : Pattern)
  /-- Parts one after the other. -/
  | sequence (parts : List Pattern)
  /-- Alternatives. -/
  | choice (parts : List Pattern)

namespace Pattern

mutual

/-- Whether only the empty text can be matched. -/
def isBlank : Pattern → Bool
  | empty | place _ => true
  | set _ => false
  | remembered body | repeated _ _ body => body.isBlank
  | sequence parts | choice parts => areBlank parts

/-- Whether only the empty text can be matched by any of some parts. -/
def areBlank : List Pattern → Bool
  | [] => true
  | p :: rest => p.isBlank && areBlank rest

end

/-- A part so many times. What matches the empty text only is not repeated more than once. -/
def times (least : Nat) (most : Option Nat) (body : Pattern) : Pattern :=
  let least := if body.isBlank then min least 1 else least
  let most := if body.isBlank then some (min (most.getD 1) 1) else most
  if most = some 0 then empty
  else if least = 1 ∧ most = some 1 then body
  else repeated least most body

/-- Whether the pattern is the one that asks for nothing. -/
def isNothing : Pattern → Bool
  | empty => true
  | _ => false

/-- Parts one after the other. Those that ask for nothing are left out. -/
def inOrder (parts : List Pattern) : Pattern :=
  match parts.filter (!·.isNothing) with
  | [] => empty
  | [only] => only
  | several => sequence several

/-- The set, if the pattern is one. -/
def set? : Pattern → Option CharSet
  | set s => some s
  | _ => none

/-- Alternatives. Sets are a single set together. -/
def alternatives (parts : List Pattern) : Pattern :=
  match parts.mapM set? with
  | some sets => set (sets.foldl CharSet.union .empty)
  | none => choice parts

end Pattern

end BehaviouralTypes
