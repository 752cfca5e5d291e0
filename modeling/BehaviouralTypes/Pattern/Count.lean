import BehaviouralTypes.Pattern.Cursor

/-!
# Counts

How often a part of a pattern is repeated: a mark, or one or two numbers in braces.
-/

namespace BehaviouralTypes.Pattern

open Text (Position isWhite)

/-- How often something is repeated, and the stretch that says so. -/
structure Count where
  /-- The stretch. -/
  span : Span
  /-- The least number of times. -/
  least : Nat
  /-- The greatest number of times, if it is bounded. -/
  most : Option Nat

/-- Reads a question mark, which makes a repetition a short one. -/
def lazyMark (c : Cursor) : Cursor := if c.rest.head? = some '?' then c.bump else c

/-- The largest count. -/
def largestCount : Nat := UInt32.size - 1

/-- Reads a number and the white space around it. Whether it is one is the second part. -/
def number (c : Cursor) : Cursor × Except Fault Nat :=
  let first := (c.takeWhile isWhite).2
  let (digits, last) := first.takeWhile Char.isDigit
  let value := digits.foldl (fun value digit => 10 * value + (digit.toNat - '0'.toNat)) 0
  let span := last.since first.here
  let result :=
    if digits = [] then refuse .countMissing span
    else if largestCount < value then refuse .countInvalid span
    else .ok value
  ((last.takeWhile isWhite).2, result)

/-- Reads what stands between the braces of a repetition. -/
def range (start : Position) (c : Cursor) : Except Fault (Nat × Option Nat × Cursor) :=
  let (behind, least) := number c
  match behind.rest with
  | [] => refuse .countUnclosed (behind.since start)
  | ',' :: _ =>
    let next := behind.advance
    if next.rest = [] then refuse .countUnclosed (next.since start)
    else if next.rest.head? = some '\x7d' then do return (← least, none, next)
    else do
      let least ← least
      let (last, most) := number next
      return (least, some (← most), last)
  | _ => do
    let count ← least
    return (count, some count, behind)

/-- Reads a repetition in braces, from the opening brace on. -/
def braces (c : Cursor) : Except Fault (Count × Cursor) := do
  let first := c.advance
  if first.rest = [] then refuse .countUnclosed (first.since c.here)
  else
    let (least, most, last) ← range c.here first
    if last.rest.head? ≠ some '\x7d' then refuse .countUnclosed (last.since c.here)
    else
      let next := lazyMark last.advance
      let span := next.since c.here
      if most.any (· < least) then refuse .countOrder span
      else return (⟨span, least, most⟩, next)

/-- Reads how often what stands before is repeated. -/
def count (c : Cursor) : Except Fault (Count × Cursor) :=
  let next := lazyMark c.bump
  let short (least : Nat) (most : Option Nat) : Except Fault (Count × Cursor) :=
    .ok (⟨next.since c.here, least, most⟩, next)
  match c.rest with
  | '?' :: _ => short 0 (some 1)
  | '*' :: _ => short 0 none
  | '+' :: _ => short 1 none
  | _ => braces c

end BehaviouralTypes.Pattern
