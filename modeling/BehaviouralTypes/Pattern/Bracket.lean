import BehaviouralTypes.Pattern.Escape

/-!
# Sets in brackets

Sets are read member by member. What is read of sets that are still open is kept as a stack, the
innermost set first, so that sets may be nested to any depth.
-/

namespace BehaviouralTypes.Pattern

open Text (Position)

/-- The members of a set as far as they are read. -/
structure Members where
  /-- Where they may start. -/
  start : Position
  /-- The members, the latest first. -/
  latest : List SetTree

/-- The members as one set. -/
def Members.tree (m : Members) : SetTree :=
  match m.latest with
  | [] => .empty (.point m.start)
  | [only] => only
  | last :: earlier =>
    let first := (earlier.getLast?.getD last).span.start
    .union ⟨first, last.span.stop⟩ m.latest.reverse

/-- A set whose closing bracket is not read. -/
structure OpenSet where
  /-- The stretch that opens it. -/
  span : Span
  /-- Whether everything else is meant. -/
  negated : Bool
  /-- What stands before the last operator, and the operator. -/
  left : Option (SetTree × SetOperator)
  /-- The members behind it. -/
  members : Members

namespace OpenSet

/-- What is read of the set. -/
def body (s : OpenSet) : SetTree :=
  let right := s.members.tree
  match s.left with
  | none => right
  | some (left, operator) => .operation ⟨left.span.start, right.span.stop⟩ operator left right

/-- The set with one more member. -/
def add (s : OpenSet) (t : SetTree) : OpenSet :=
  { s with members := { s.members with latest := t :: s.members.latest } }

/-- The set with an operator behind what is read. -/
def combine (s : OpenSet) (operator : SetOperator) (here : Position) : OpenSet :=
  { s with left := some (s.body, operator), members := ⟨here, []⟩ }

/-- Reads what opens a set from the opening bracket on: a closing bracket or hyphens stand for
themselves here. -/
def opening (c : Cursor) : Except Fault (OpenSet × Cursor) :=
  let first := c.advance
  let negated := first.rest.head? = some '^'
  let inside := if negated then first.advance else first
  let (hyphens, behind) := inside.literals (· = '-')
  if inside.rest = [] then refuse .setUnclosed (inside.since c.here)
  else if behind.rest = [] then refuse .setUnclosed c.point
  else
    let bracket := if hyphens = [] then behind.rest.head?.filter (· = ']') else none
    let next := if bracket.isSome then behind.advance else behind
    let found := hyphens ++ bracket.toList.map fun d => ⟨behind.character, d, false⟩
    let span := next.since c.here
    if next.rest = [] then refuse .setUnclosed span
    else .ok (⟨span, negated, none, inside.here, (found.map .literal).reverse⟩, next)

end OpenSet

/-! ### Members -/

/-- Reads a class with a name between colons, from its opening bracket on. -/
def namedClass? (c : Cursor) : Option (SetTree × Cursor) := do
  let behind ← c.accept? "[:"
  let negated := behind.rest.head? = some '^'
  let inside := if negated then behind.bump else behind
  let name := inside.rest.takeWhile (· ≠ ':')
  let next ← (inside.after name).accept? ":]"
  let kind ← NamedClass.ofName? (String.ofList name)
  return (.named (next.since c.here) negated kind, next)

/-- Reads a character or an escape in a set. -/
def setItem (c : Cursor) : Except Fault (Escape × Cursor) :=
  match c.rest with
  | [] => refuse .setUnclosed c.point
  | '\\' :: _ => escape c
  | d :: _ => .ok (.literal ⟨c.character, d, false⟩, c.bump)

/-- The escape as a member of a set. -/
def Escape.member : Escape → Except Fault SetTree
  | literal l => .ok (.literal l)
  | lettered span negated kind => .ok (.lettered span negated kind)
  | property span name => .ok (.property span name)
  | condition span _ => refuse .setEscape span

/-- The escape as an end of a range. -/
def Escape.limit : Escape → Except Fault Literal
  | literal l => .ok l
  | e => refuse .rangeEnd e.span

/-- Reads a member of a set, which may be a range. The stretch is that of what opens the set. -/
def setMember (unclosed : Span) (c : Cursor) : Except Fault (SetTree × Cursor) := do
  let (item, behind) ← setItem c
  let next := behind.skip
  if next.rest = [] then refuse .setUnclosed unclosed
  else if next.rest.head? ≠ some '-' || next.following? ∈ [some ']', some '-'] then
    return (← item.member, next)
  else if next.advance.rest = [] then refuse .setUnclosed unclosed
  else
    let (other, last) ← setItem next.advance
    let low ← item.limit
    let high ← other.limit
    let span : Span := ⟨item.span.start, other.span.stop⟩
    if low.char ≤ high.char then return (.range span low high, last)
    else refuse .rangeOrder span

/-! ### Whole sets -/

/-- The operator that is here. -/
def setOperator? (c : Cursor) : Option (SetOperator × Cursor) :=
  [("&&", SetOperator.intersection), ("--", .difference), ("~~", .symmetricDifference)].findSome?
    fun (text, operator) => (c.accept? text).map fun next => (operator, next)

/-- Reads the innermost of some open sets, of which the others are given from the inside out, and
all that contain it. The first argument bounds the number of members. -/
def setBody : Nat → OpenSet → List OpenSet → Cursor → Except Fault (Tree × Cursor)
  | 0, s, _, _ => refuse .setUnclosed s.span
  | bound + 1, s, outer, c =>
    let c := c.skip
    match c.rest with
    | [] => refuse .setUnclosed s.span
    | ']' :: _ =>
      let next := c.bump
      let span := next.since s.span.start
      match outer with
      | [] => .ok (.bracketed span s.negated s.body, next)
      | parent :: others =>
        setBody bound (parent.add (.bracketed span s.negated s.body)) others next
    | d :: _ =>
      match setOperator? c, if d = '[' then namedClass? c else none with
      | some (operator, next), _ => setBody bound (s.combine operator next.here) outer next
      | none, some (member, next) => setBody bound (s.add member) outer next
      | none, none =>
        if d = '[' then do
          let (inner, next) ← OpenSet.opening c
          setBody bound inner (s :: outer) next
        else do
          let (member, next) ← setMember s.span c
          setBody bound (s.add member) outer next

/-- Reads a set from its opening bracket on. -/
def bracket (c : Cursor) : Except Fault (Tree × Cursor) := do
  let (s, next) ← OpenSet.opening c
  setBody (next.rest.length + 1) s [] next

end BehaviouralTypes.Pattern
