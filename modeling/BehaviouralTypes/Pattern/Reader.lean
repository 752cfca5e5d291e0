import BehaviouralTypes.Pattern.Bracket
import BehaviouralTypes.Pattern.Count
import BehaviouralTypes.Pattern.Opening

/-!
# Reading a pattern

A pattern is read part by part. What is read of groups that are still open is kept as a stack, the
innermost group first.
-/

namespace BehaviouralTypes.Pattern

open Text (Position)

/-! ### Alternatives -/

/-- The alternatives of a group as far as they are read. -/
structure Alternatives where
  /-- Where the first one starts. -/
  first : Position
  /-- The alternatives before the last bar, the latest first. -/
  earlier : List Tree
  /-- Where the current one starts. -/
  start : Position
  /-- The parts of the current one, the latest first. -/
  parts : List Tree

namespace Alternatives

/-- Alternatives of which nothing is read. -/
def opening (here : Position) : Alternatives := ⟨here, [], here, []⟩

/-- The current alternative, which ends here. -/
def current (a : Alternatives) (here : Position) : Tree :=
  match a.parts with
  | [] => .empty ⟨a.start, here⟩
  | [only] => only
  | _ => .sequence ⟨a.start, here⟩ a.parts.reverse

/-- All alternatives, of which the last ends here. -/
def tree (a : Alternatives) (here : Position) : Tree :=
  match a.earlier with
  | [] => a.current here
  | _ => .choice ⟨a.first, here⟩ (a.current here :: a.earlier).reverse

/-- The alternatives with one more part. -/
def add (a : Alternatives) (t : Tree) : Alternatives := { a with parts := t :: a.parts }

/-- The alternatives with a bar here and the next one behind it. -/
def bar (a : Alternatives) (here behind : Position) : Alternatives :=
  { a with earlier := a.current here :: a.earlier, start := behind, parts := [] }

end Alternatives

/-- Reads a repetition of the latest part. -/
def repetition (a : Alternatives) (c : Cursor) : Except Fault (Alternatives × Cursor) :=
  match a.parts with
  | [] => refuse .nothingToRepeat c.point
  | body :: others =>
    if body.isRepeatable then do
      let (count, next) ← count c
      let t : Tree := .repeated ⟨body.span.start, next.here⟩ count.least count.most body
      return ({ a with parts := t :: others }, next)
    else refuse .nothingToRepeat c.point

/-! ### Whole patterns -/

/-- A group whose closing parenthesis is not read. -/
structure OpenGroup where
  /-- The opening parenthesis. -/
  span : Span
  /-- Whether it is remembered. -/
  captured : Bool
  /-- The flags it changes. -/
  changes : List FlagChange
  /-- What is read of the group around it. -/
  outer : Alternatives
  /-- Whether the group around it is verbose. -/
  verbose : Bool

/-- What is read of a pattern. -/
structure Progress where
  /-- What is left. -/
  cursor : Cursor
  /-- The alternatives of the innermost group. -/
  current : Alternatives
  /-- The open groups, the innermost first. -/
  groups : List OpenGroup
  /-- The names of groups. -/
  names : List GroupName

namespace Progress

/-- A pattern of which nothing is read. -/
def start (pattern : List Char) : Progress := ⟨.start pattern, .opening .start, [], []⟩

/-- What is read with one more part. -/
def add (p : Progress) (t : Tree) (next : Cursor) : Progress :=
  { p with cursor := next, current := p.current.add t }

/-- Whether the pattern is verbose after some changes of flags. -/
def verbose (p : Progress) (changes : List FlagChange) : Bool :=
  (FlagChange.value? changes .verbose).getD p.cursor.verbose

/-- Reads an opening parenthesis. -/
def openGroup (p : Progress) : Except Fault Progress := do
  let c := p.cursor
  let enter (captured : Bool) (changes : List FlagChange) (next : Cursor) : Progress :=
    let group : OpenGroup := ⟨c.character, captured, changes, p.current, c.verbose⟩
    { p with
      cursor := { next with verbose := p.verbose changes }
      current := .opening next.here
      groups := group :: p.groups }
  match ← opening p.names c with
  | (.captured name, next) => return { enter true [] next with names := p.names ++ name.toList }
  | (.flagged changes, next) => return enter false changes next
  | (.change changes, next) =>
    return p.add (.flags (next.since c.here) changes) { next with verbose := p.verbose changes }

/-- Reads a closing parenthesis. -/
def closeGroup (p : Progress) : Except Fault Progress :=
  match p.groups with
  | [] => refuse .groupUnopened p.cursor.character
  | g :: others =>
    let next := { p.cursor.bump with verbose := g.verbose }
    let body := p.current.tree p.cursor.here
    let t : Tree := .group (next.since g.span.start) g.captured g.changes body
    .ok { p with cursor := next, current := g.outer.add t, groups := others }

/-- Reads the next part, which starts with that character. -/
def step (p : Progress) (d : Char) : Except Fault Progress :=
  let c := p.cursor
  match d with
  | '(' => p.openGroup
  | ')' => p.closeGroup
  | '|' => .ok { p with cursor := c.bump, current := p.current.bar c.here c.bump.here }
  | '[' => do
    let (t, next) ← bracket c
    return p.add t next
  | '?' | '*' | '+' | '\x7b' => do
    let (current, next) ← repetition p.current c
    return { p with cursor := next, current }
  | '\\' => do
    let (e, next) ← escape c
    return p.add e.tree next
  | '.' => .ok (p.add (.dot c.character) c.bump)
  | '^' => .ok (p.add (.condition c.character .lineStart) c.bump)
  | '$' => .ok (p.add (.condition c.character .lineEnd) c.bump)
  | d => .ok (p.add (.literal ⟨c.character, d, false⟩) c.bump)

/-- The whole pattern, which ends here. -/
def finish (p : Progress) : Except Fault Tree :=
  match p.groups with
  | [] => .ok (p.current.tree p.cursor.here)
  | g :: _ => refuse .groupUnclosed g.span

/-- Reads the rest of a pattern. The first argument bounds the number of parts. -/
def run : Nat → Progress → Except Fault Tree
  | 0, p => p.finish
  | bound + 1, p =>
    let p := { p with cursor := p.cursor.skip }
    match p.cursor.rest with
    | [] => p.finish
    | d :: _ => do run bound (← p.step d)

end Progress

/-- How deeply the parts of a pattern may be nested. -/
def deepest : Nat := 250

/-- Reads a pattern. -/
def Tree.ofText (pattern : List Char) : Except Fault Tree := do
  let t ← (Progress.start pattern).run (pattern.length + 1)
  match t.tooDeep? deepest with
  | some span => refuse (.tooDeep deepest) span
  | none => return t

end BehaviouralTypes.Pattern
