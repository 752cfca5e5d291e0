import BehaviouralTypes.Pattern.Basic

/-!
# Where a pattern occurs

A set of places in a text is a number: the place before the character at index `i`, or the end of
the text, is in the set if bit `i` is one. A pattern leads from each set of places to the set of
those that can be reached by matching it once.
-/

namespace BehaviouralTypes.Pattern

/-! ### Conditions -/

/-- Whether the character belongs to words. -/
def isWordChar (c : Char) : Bool := c.isAlphanum || c = '_'

/-- Whether there is such a border between something and something else, each of which may belong
to a word. -/
def Border.isBetween (before after : Bool) : Border → Bool
  | either => before != after
  | neither => before == after
  | start => !before && after
  | stop => before && !after
  | startHalf => !before
  | stopHalf => !after

/-- Whether the place between two characters meets the condition; either may be missing. -/
def Place.isBetween (before after : Option Char) : Place → Bool
  | textStart => before.isNone
  | textEnd => after.isNone
  | lineStart carriageReturn =>
    before.all fun c => c = '\n' || carriageReturn && c = '\x0d' && after ≠ some '\n'
  | lineEnd carriageReturn =>
    after.all fun c =>
      if carriageReturn then c = '\x0d' || c = '\n' && before ≠ some '\x0d' else c = '\n'
  | border b _ => b.isBetween (before.any isWordChar) (after.any isWordChar)

/-! ### Moves -/

/-- The number whose bits are these, the lowest first. -/
def ofBits : List Bool → Nat
  | [] => 0
  | b :: rest => b.toNat + 2 * ofBits rest

/-- What a pattern allows on a text. -/
inductive Moves where
  /-- Staying at one of some places. -/
  | stay (places : Nat)
  /-- Passing the character at one of some places. -/
  | pass (places : Nat)
  /-- Moves at least so many times, and at most so many times if there is a bound. -/
  | repeated (least : Nat) (most : Option Nat) (body : Moves)
  /-- Moves one after the other. -/
  | sequence (parts : List Moves)
  /-- Alternatives. -/
  | choice (parts : List Moves)

mutual

/-- What the pattern allows on a text. -/
def moves (text : List Char) : Pattern → Moves
  | empty => .sequence []
  | set s => .pass (ofBits (text.map s.contains))
  | place p =>
    let before := none :: text.map some
    let after := text.map some ++ [none]
    .stay (ofBits (List.zipWith (fun b a => p.isBetween b a) before after))
  | remembered body => body.moves text
  | repeated least most body => .repeated least most (body.moves text)
  | sequence parts => .sequence (movesOfAll text parts)
  | choice parts => .choice (movesOfAll text parts)

/-- What each of some patterns allows on a text. -/
def movesOfAll (text : List Char) : List Pattern → List Moves
  | [] => []
  | p :: rest => p.moves text :: movesOfAll text rest

end

/-- A step repeated so many times, or until it changes nothing. -/
def iterate (step : Nat → Nat) : Nat → Nat → Nat
  | 0, places => places
  | count + 1, places =>
    let next := step places
    if next = places then places else iterate step count next

mutual

/-- The places reached from some places. More rounds than the bound reach no other places. -/
def Moves.reach (bound : Nat) : Moves → Nat → Nat
  | .stay allowed, places => places &&& allowed
  | .pass allowed, places => (places &&& allowed) <<< 1
  | .repeated least most body, places =>
    let extra := (most.map (· - least)).getD bound
    let once (places : Nat) := body.reach bound places
    iterate (fun places => places ||| once places) (min extra bound)
      (iterate once (min least bound) places)
  | .sequence parts, places => Moves.reachAll bound parts places
  | .choice parts, places => Moves.reachAny bound parts places

/-- The places reached by moves one after the other. -/
def Moves.reachAll (bound : Nat) : List Moves → Nat → Nat
  | [], places => places
  | m :: rest, places => Moves.reachAll bound rest (m.reach bound places)

/-- The places reached by one of some moves. -/
def Moves.reachAny (bound : Nat) : List Moves → Nat → Nat
  | [], _ => 0
  | m :: rest, places => m.reach bound places ||| Moves.reachAny bound rest places

end

/-- Whether the pattern matches somewhere in the text. -/
def occursIn (p : Pattern) (text : List Char) : Bool :=
  (p.moves text).reach (text.length + 1) ((1 <<< (text.length + 1)) - 1) ≠ 0

end BehaviouralTypes.Pattern
