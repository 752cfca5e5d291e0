import BehaviouralTypes.Text.Position
import BehaviouralTypes.Text.Search

/-!
# Faults in a pattern

Why a pattern is refused and where, and how this is shown: the pattern with carets under the
stretch at fault, and the reason below. A pattern on several lines is shown with line numbers
between two rules.
-/

namespace BehaviouralTypes.Pattern

open Text (Position)

/-- A stretch of a pattern, from its first character to the place after its last. -/
structure Span where
  /-- The place of the first character. -/
  start : Position
  /-- The place after the last character. -/
  stop : Position
deriving DecidableEq, Repr

/-- The empty stretch at a place. -/
def Span.point (here : Position) : Span := ⟨here, here⟩

/-- Whether the stretch ends in the line in which it starts. -/
def Span.inOneLine (s : Span) : Bool := s.start.line = s.stop.line

/-- Whether the stretch stands before another, the shorter first if both start together. -/
def Span.before (s t : Span) : Bool :=
  let key (u : Span) := [u.start.line, u.start.column, u.stop.line, u.stop.column]
  decide (key s < key t)

/-- Why a pattern is refused. -/
inductive Flaw where
  /-- An escape in a set stands for no character. -/
  | setEscape
  /-- A range ends before it starts. -/
  | rangeOrder
  /-- A range ends in something other than a character. -/
  | rangeEnd
  /-- A set has no closing bracket. -/
  | setUnclosed
  /-- A count is too large. -/
  | countInvalid
  /-- An escape by code point has no digits. -/
  | hexEmpty
  /-- An escape by code point stands for no character. -/
  | hexInvalid
  /-- A character is no hexadecimal digit. -/
  | hexDigit
  /-- The pattern ends inside an escape. -/
  | escapeCut
  /-- An escape has no meaning. -/
  | escapeUnknown
  /-- A minus sign before flags has no flag behind it. -/
  | flagDangling
  /-- A flag is given twice. -/
  | flagTwice
  /-- A minus sign before flags is given twice. -/
  | minusTwice
  /-- The pattern ends among flags. -/
  | flagCut
  /-- A letter is no flag. -/
  | flagUnknown
  /-- Two groups have one name. -/
  | nameTwice
  /-- The name of a group is empty. -/
  | nameEmpty
  /-- A character cannot stand in the name of a group. -/
  | nameInvalid
  /-- The pattern ends inside the name of a group. -/
  | nameCut
  /-- A group has no closing parenthesis. -/
  | groupUnclosed
  /-- A closing parenthesis closes no group. -/
  | groupUnopened
  /-- Groups and sets are nested too deeply. -/
  | tooDeep (limit : Nat)
  /-- The larger count of a repetition comes first. -/
  | countOrder
  /-- A repetition has a brace without a count. -/
  | countMissing
  /-- A repetition has no closing brace. -/
  | countUnclosed
  /-- There is nothing to repeat. -/
  | nothingToRepeat
  /-- The name of a word boundary has no closing brace. -/
  | boundaryUnclosed
  /-- A word boundary has an unknown name. -/
  | boundaryUnknown
  /-- The pattern ends behind a word boundary and a brace. -/
  | boundaryCut
  /-- A backslash stands for the name of a property. -/
  | propertyInvalid
  /-- A number refers to a group. -/
  | backReference
  /-- A group looks ahead or behind. -/
  | lookAround
  /-- Characters outside ASCII are wanted where only bytes are matched. -/
  | charactersUnwanted
  /-- A byte alone is no character. -/
  | loneByte
  /-- There is no such property of characters. -/
  | propertyUnknown
  /-- There is no such value of a property. -/
  | propertyValueUnknown
  /-- Digits, blanks and word characters are known for bytes only. -/
  | classUnavailable
  /-- Pairs of small and capital letters are known for bytes only. -/
  | caseUnavailable
deriving DecidableEq, Repr

/-- The wording of the reason. -/
def Flaw.message : Flaw → String
  | setEscape => "invalid escape sequence found in character class"
  | rangeOrder => "invalid character class range, the start must be <= the end"
  | rangeEnd => "invalid range boundary, must be a literal"
  | setUnclosed => "unclosed character class"
  | countInvalid => "decimal literal invalid"
  | hexEmpty => "hexadecimal literal empty"
  | hexInvalid => "hexadecimal literal is not a Unicode scalar value"
  | hexDigit => "invalid hexadecimal digit"
  | escapeCut => "incomplete escape sequence, reached end of pattern prematurely"
  | escapeUnknown => "unrecognized escape sequence"
  | flagDangling => "dangling flag negation operator"
  | flagTwice => "duplicate flag"
  | minusTwice => "flag negation operator repeated"
  | flagCut => "expected flag but got end of regex"
  | flagUnknown => "unrecognized flag"
  | nameTwice => "duplicate capture group name"
  | nameEmpty => "empty capture group name"
  | nameInvalid => "invalid capture group character"
  | nameCut => "unclosed capture group name"
  | groupUnclosed => "unclosed group"
  | groupUnopened => "unopened group"
  | tooDeep limit => s!"exceed the maximum number of nested parentheses/brackets ({limit})"
  | countOrder => "invalid repetition count range, the start must be <= the end"
  | countMissing => "repetition quantifier expects a valid decimal"
  | countUnclosed => "unclosed counted repetition"
  | nothingToRepeat => "repetition operator missing expression"
  | boundaryUnclosed =>
    "special word boundary assertion is either unclosed or contains an invalid character"
  | boundaryUnknown =>
    "unrecognized special word boundary assertion, " ++
      "valid choices are: start, end, start-half or end-half"
  | boundaryCut =>
    "found either the beginning of a special word boundary or a bounded repetition " ++
      "on a \\b with an opening brace, but no closing brace"
  | propertyInvalid => "invalid Unicode character class"
  | backReference => "backreferences are not supported"
  | lookAround => "look-around, including look-ahead and look-behind, is not supported"
  | charactersUnwanted => "Unicode not allowed here"
  | loneByte => "pattern can match invalid UTF-8"
  | propertyUnknown => "Unicode property not found"
  | propertyValueUnknown => "Unicode property value not found"
  | classUnavailable =>
    "Unicode-aware Perl class not found (make sure the unicode-perl feature is enabled)"
  | caseUnavailable =>
    "Unicode-aware case insensitivity matching is not available " ++
      "(make sure the unicode-case feature is enabled)"

/-- A flaw and where it is. -/
structure Fault where
  /-- What is wrong. -/
  flaw : Flaw
  /-- The stretch that is at fault. -/
  span : Span
  /-- An earlier stretch without which it would not be. -/
  earlier : Option Span := none
deriving DecidableEq, Repr

/-- Refuses a pattern. -/
def refuse {α : Type} (flaw : Flaw) (span : Span) : Except Fault α := .error ⟨flaw, span, none⟩

namespace Fault

/-- The line without a carriage return at its end. -/
def withoutReturn (line : List Char) : List Char :=
  if line.getLast? = some '\r' then line.dropLast else line

/-- The lines of a pattern. A line that ends in a line feed loses a carriage return before it,
and a last line without any character is none. -/
def lines (pattern : List Char) : List (List Char) :=
  let fields := Text.fields '\n' pattern
  fields.dropLast.map withoutReturn ++ fields.getLast?.toList.filter (· ≠ [])

/-- The stretches at fault, in order. -/
def spans (f : Fault) : List Span :=
  match f.earlier with
  | none => [f.span]
  | some other => if other.before f.span then [other, f.span] else [f.span, other]

/-- Carets under stretches of one line, of which `column` characters are done. -/
def carets (column : Nat) : List Span → List Char
  | [] => []
  | s :: rest =>
    let blanks := s.start.column - 1 - column
    let width := max 1 (s.stop.column - s.start.column)
    List.replicate blanks ' ' ++ List.replicate width '^' ++ carets (column + blanks + width) rest

/-- The lines of the pattern from line `number` on, numbered in `digits` places or, if these are
none, indented; carets follow a line with stretches at fault. -/
def notated (f : Fault) (digits : Nat) (number : Nat) : List (List Char) → List Char
  | [] => []
  | line :: rest =>
    let count := Nat.toDigits 10 number
    let margin := if digits = 0 then List.replicate 4 ' '
      else List.replicate (digits - count.length) ' ' ++ count ++ [':', ' ']
    let here := f.spans.filter fun s => s.inOneLine && s.start.line = number
    let notes := if here.isEmpty then []
      else List.replicate margin.length ' ' ++ carets 0 here ++ ['\n']
    margin ++ line ++ ['\n'] ++ notes ++ f.notated digits (number + 1) rest

/-- How a stretch over several lines is told. -/
def acrossLines (s : Span) : String :=
  s!"on line {s.start.line} (column {s.start.column}) " ++
    s!"through line {s.stop.line} (column {s.stop.column - 1})"

/-- How the fault of a pattern is shown. -/
def report (f : Fault) (pattern : String) : String :=
  let count := (Text.fields '\n' pattern.toList).length
  let digits := if count ≤ 1 then 0 else (Nat.toDigits 10 count).length
  let shown := String.ofList (f.notated digits 1 (lines pattern.toList))
  let body :=
    if count ≤ 1 then shown
    else
      let rule := String.ofList (List.replicate 79 '~') ++ "\n"
      let across := (f.spans.filter (!·.inOneLine)).map fun s => acrossLines s ++ "\n"
      rule ++ shown ++ rule ++ String.join across
  "regex parse error:\n" ++ body ++ "error: " ++ f.flaw.message

end Fault

end BehaviouralTypes.Pattern
