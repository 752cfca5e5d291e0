import BehaviouralTypes.Pattern.Tree
import BehaviouralTypes.Text.White

/-!
# Reading along a pattern

A cursor is what is left of a pattern and the place where it starts. It moves by a single character
or by a character and what is skipped after it: where a pattern is verbose, white space and comments
mean nothing.
-/

namespace BehaviouralTypes.Pattern

open Text (Position isWhite)

/-- What is left of a pattern. -/
structure Cursor where
  /-- The characters that are left. -/
  rest : List Char
  /-- Where they start. -/
  here : Position
  /-- Whether white space and comments are skipped. -/
  verbose : Bool
deriving DecidableEq, Repr

namespace Cursor

/-- A whole pattern. -/
def start (pattern : List Char) : Cursor := ⟨pattern, .start, false⟩

/-- The cursor behind a text that starts here. -/
def after (c : Cursor) (text : List Char) : Cursor :=
  ⟨c.rest.drop text.length, c.here.after text, c.verbose⟩

/-- The white space and the comments at the start of a text, which may itself start inside a
comment. -/
def blanks (inComment : Bool) : List Char → List Char
  | [] => []
  | d :: rest =>
    if inComment then d :: blanks (d ≠ '\n') rest
    else if isWhite d then d :: blanks false rest
    else if d = '#' then d :: blanks true rest
    else []

/-- The cursor behind what is skipped. -/
def skip (c : Cursor) : Cursor := if c.verbose then c.after (blanks false c.rest) else c

/-- The cursor behind the first character. -/
def bump (c : Cursor) : Cursor := ⟨c.rest.tail, c.here.after (c.rest.take 1), c.verbose⟩

/-- The cursor behind the first character and what is skipped after it. -/
def advance (c : Cursor) : Cursor := c.bump.skip

/-- The empty stretch here. -/
def point (c : Cursor) : Span := .point c.here

/-- The stretch of the first character. -/
def character (c : Cursor) : Span := ⟨c.here, c.bump.here⟩

/-- The stretch from a place to here. -/
def since (c : Cursor) (start : Position) : Span := ⟨start, c.here⟩

/-- The cursor behind that text, if the text is here. -/
def accept? (c : Cursor) (text : String) : Option Cursor :=
  if text.toList.isPrefixOf c.rest then some (c.after text.toList) else none

/-- The first character that is neither white space nor the first `#`. -/
def visible? (passed : Bool) : List Char → Option Char
  | [] => none
  | d :: rest =>
    if isWhite d then visible? passed rest
    else if d = '#' && !passed then visible? true rest
    else some d

/-- The character after the first one. Where a pattern is verbose it is the first visible one, if
there is any. -/
def following? (c : Cursor) : Option Char :=
  let next := c.rest.tail
  if c.verbose then (visible? false next).or next.head? else next.head?

/-- Skipping leaves no more than there was. -/
theorem length_rest_skip_le (c : Cursor) : c.skip.rest.length ≤ c.rest.length := by
  unfold skip
  split
  · simp [after]
  · exact Nat.le_refl _

/-- Moving on leaves less than there was. -/
theorem length_rest_advance_lt {c : Cursor} (h : c.rest ≠ []) :
    c.advance.rest.length < c.rest.length := by
  have shorter : c.bump.rest.length < c.rest.length := by
    have := List.length_pos_iff.2 h
    simp only [bump, List.length_tail]
    omega
  exact Nat.lt_of_le_of_lt (length_rest_skip_le c.bump) shorter

/-- Reads characters that stand for themselves as long as they have a property, each with what is
skipped after it. -/
def literals (p : Char → Bool) (c : Cursor) : List Literal × Cursor :=
  match h : c.rest with
  | [] => ([], c)
  | d :: _ =>
    if p d then
      have := length_rest_advance_lt (c := c) (by simp [h])
      let (found, last) := c.advance.literals p
      (⟨c.character, d, false⟩ :: found, last)
    else ([], c)
termination_by c.rest.length

/-- Reads characters as long as they have a property, each with what is skipped after it. -/
def takeWhile (p : Char → Bool) (c : Cursor) : List Char × Cursor :=
  let (found, last) := c.literals p
  (found.map (·.char), last)

end Cursor

end BehaviouralTypes.Pattern
