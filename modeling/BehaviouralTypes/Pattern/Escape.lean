import BehaviouralTypes.Pattern.Cursor

/-!
# Escapes

What a backslash and the characters behind it stand for: a character, a class of characters, or a
condition on the place.
-/

namespace BehaviouralTypes.Pattern

open Text (Position)

/-- What an escape stands for. -/
inductive Escape where
  /-- A character. -/
  | literal (literal : Literal)
  /-- A condition on the place. -/
  | condition (span : Span) (condition : Condition)
  /-- A class with a single letter, or everything else. -/
  | lettered (span : Span) (negated : Bool) (kind : NamedClass)
  /-- The characters with a property. -/
  | property (span : Span) (name : List Char)
deriving DecidableEq, Repr

/-! ### Code points -/

/-- The value of a hexadecimal digit. -/
def hexDigit? (c : Char) : Option Nat :=
  if '0' ≤ c ∧ c ≤ '9' then some (c.toNat - '0'.toNat)
  else if 'a' ≤ c ∧ c ≤ 'f' then some (c.toNat - 'a'.toNat + 10)
  else if 'A' ≤ c ∧ c ≤ 'F' then some (c.toNat - 'A'.toNat + 10)
  else none

/-- The character whose code point has those hexadecimal digits. -/
def ofHexDigits? (digits : List Char) : Option Char :=
  let code := (digits.filterMap hexDigit?).foldl (fun code digit => 16 * code + digit) 0
  if code.isValidChar then some (Char.ofNat code) else none

/-- Reads so many hexadecimal digits. -/
def hexDigits : Nat → Cursor → Except Fault (List Char × Cursor)
  | 0, c => .ok ([], c)
  | count + 1, c => match c.rest with
    | [] => refuse .escapeCut c.point
    | d :: _ =>
      if (hexDigit? d).isSome then do
        let (digits, last) ← hexDigits count c.advance
        return (d :: digits, last)
      else refuse .hexDigit c.character

/-- Reads a code point in braces, from the opening brace on. -/
def bracedCode (start : Position) (c : Cursor) : Except Fault (Literal × Cursor) :=
  let (digits, last) := c.advance.takeWhile fun d => (hexDigit? d).isSome
  match last.rest with
  | [] => refuse .escapeCut (last.since c.here)
  | d :: _ =>
    let next := last.advance
    if d ≠ '\x7d' then refuse .hexDigit last.character
    else if digits = [] then refuse .hexEmpty (next.since c.here)
    else match ofHexDigits? digits with
      | none => refuse .hexInvalid (last.since c.bump.here)
      | some char => .ok (⟨next.since start, char, false⟩, next)

/-- Reads a code point from the letter on, which stands for so many digits. -/
def code (start : Position) (count : Nat) (c : Cursor) : Except Fault (Literal × Cursor) :=
  let first := c.advance
  if first.rest.head? = some '\x7b' then bracedCode start first
  else do
    let (digits, next) ← hexDigits count first
    match ofHexDigits? digits with
    | none => refuse .hexInvalid (next.since first.here)
    | some char => return (⟨next.since start, char, count = 2⟩, next)

/-! ### Properties and borders -/

/-- Reads a property from the letter on. -/
def property (start : Position) (c : Cursor) : Except Fault (Escape × Cursor) :=
  let first := c.advance
  match first.rest with
  | [] => refuse .escapeCut first.point
  | d :: _ =>
    if d = '\x7b' then
      let (name, last) := first.advance.takeWhile (· ≠ '\x7d')
      if last.rest = [] then refuse .escapeCut last.point
      else .ok (.property (last.bump.since start) name, last.bump)
    else if d = '\\' then refuse .propertyInvalid first.character
    else .ok (.property (first.advance.since start) [d], first.advance)

/-- The border with that name. -/
def Border.ofName? : String → Option Border
  | "start" => some .start
  | "end" => some .stop
  | "start-half" => some .startHalf
  | "end-half" => some .stopHalf
  | _ => none

/-- Whether the character may stand in the name of a border. -/
def isBorderLetter (c : Char) : Bool := c.isAlpha || c = '-'

/-- Reads the name of a border from the opening brace on, unless the brace holds something else. -/
def namedBorder? (start : Position) (c : Cursor) : Except Fault (Option (Border × Cursor)) :=
  let first := c.advance
  match first.rest with
  | [] => refuse .boundaryCut (first.since start)
  | d :: _ =>
    if isBorderLetter d then
      let (name, last) := first.takeWhile isBorderLetter
      if last.rest.head? ≠ some '\x7d' then refuse .boundaryUnclosed (last.since c.here)
      else match Border.ofName? (String.ofList name) with
        | none => refuse .boundaryUnknown (last.since first.here)
        | some border => .ok (some (border, last.bump))
    else .ok none

/-- Reads a border of a word behind its letter. -/
def wordBorder (start : Position) (c : Cursor) : Except Fault (Escape × Cursor) := do
  let named ← if c.rest.head? = some '\x7b' then namedBorder? start c else .ok none
  let (border, next) := named.getD (.either, c)
  return (.condition (next.since start) (.border border), next)

/-! ### Escapes of one letter -/

/-- The control character that a letter stands for. -/
def controlCharacter? : Char → Option Char
  | 'a' => some '\x07'
  | 'f' => some '\x0c'
  | 't' => some '\t'
  | 'n' => some '\n'
  | 'r' => some '\x0d'
  | 'v' => some '\x0b'
  | _ => none

/-- The class that a letter stands for, and whether everything else is meant. -/
def letteredClass? : Char → Option (Bool × NamedClass)
  | 'd' => some (false, .digit)
  | 's' => some (false, .space)
  | 'w' => some (false, .word)
  | 'D' => some (true, .digit)
  | 'S' => some (true, .space)
  | 'W' => some (true, .word)
  | _ => none

/-- The condition that a character stands for. -/
def escapedCondition? : Char → Option Condition
  | 'A' => some .textStart
  | 'z' => some .textEnd
  | 'B' => some (.border .neither)
  | '<' => some (.border .start)
  | '>' => some (.border .stop)
  | _ => none

/-- Whether the character stands for itself behind a backslash. -/
def isEscapable (c : Char) : Bool := c.toNat < 128 && !c.isAlphanum && c ≠ '<' && c ≠ '>'

/-- Reads an escape whose character behind the backslash has a meaning alone. -/
def shortEscape (start : Position) (d : Char) (next : Cursor) : Except Fault (Escape × Cursor) :=
  let span := next.since start
  match letteredClass? d, controlCharacter? d, escapedCondition? d with
  | some (negated, kind), _, _ => .ok (.lettered span negated kind, next)
  | _, some char, _ => .ok (.literal ⟨span, char, false⟩, next)
  | _, _, some condition => .ok (.condition span condition, next)
  | _, _, _ =>
    if isEscapable d then .ok (.literal ⟨span, d, false⟩, next)
    else if d.isDigit then refuse .backReference span
    else refuse .escapeUnknown span

/-- Reads an escape from the backslash on. -/
def escape (c : Cursor) : Except Fault (Escape × Cursor) :=
  let behind := c.bump
  let byCode (count : Nat) :=
    (code c.here count behind).map fun (l, next) => (Escape.literal l, next)
  match behind.rest with
  | [] => refuse .escapeCut (behind.since c.here)
  | 'x' :: _ => byCode 2
  | 'u' :: _ => byCode 4
  | 'U' :: _ => byCode 8
  | 'p' :: _ | 'P' :: _ => property c.here behind
  | 'b' :: _ => wordBorder c.here behind.bump
  | d :: _ => shortEscape c.here d behind.bump

/-- The stretch from which the escape was read. -/
def Escape.span : Escape → Span
  | literal l => l.span
  | condition span _ | lettered span _ _ | property span _ => span

/-- The escape as a part of a pattern. -/
def Escape.tree : Escape → Tree
  | literal l => .literal l
  | condition span wanted => .condition span wanted
  | lettered span negated kind => .lettered span negated kind
  | property span name => .property span name

end BehaviouralTypes.Pattern
