import BehaviouralTypes.Pattern.Basic

/-!
# How large a pattern is

A pattern is measured by the automaton that reads it byte by byte: what its states and the
transitions between them take up. Repetitions are written out as copies, so that a short pattern
may be large. The automaton that reads backwards is measured too.
-/

namespace BehaviouralTypes.Pattern

/-! ### Characters as bytes -/

/-- The range of the bytes at one index of the encodings of some characters. -/
abbrev ByteRange := Nat × Nat

/-- The greatest code points whose encodings have one, two and three bytes, and the last one before
and the last one in the gap among those of three bytes. -/
def encodingLimits : List Nat := [0x7F, 0x7FF, 0xD7FF, 0xDFFF, 0xFFFF]

/-- Where the range of code points from one to another is cut in two, so that the encodings of each
part differ in whole bytes only: the last code point of the first part. -/
def cut? (first last : Nat) : Option Nat :=
  let inside (n : Nat) : Bool := first ≤ n && n < last
  (encodingLimits.find? inside).or <|
    if last ≤ 0x7F then none
    else [6, 12, 18].findSome? fun width =>
      let size := 1 <<< width
      if first / size = last / size then none
      else if first % size ≠ 0 then some (first / size * size + (size - 1))
      else if last % size ≠ size - 1 then some (last / size * size - 1)
      else none

/-- The bytes of the encoding of a code point. -/
def encoding (code : Nat) : List Nat :=
  let tail (shift : Nat) : Nat := 0x80 + (code >>> shift) % 64
  if code ≤ 0x7F then [code]
  else if code ≤ 0x7FF then [0xC0 + code / 64, tail 0]
  else if code ≤ 0xFFFF then [0xE0 + code / 4096, tail 6, tail 0]
  else [0xF0 + code / 262144, tail 12, tail 6, tail 0]

/-- The encodings of the code points from one to another, as sequences of ranges of bytes. The
first argument bounds the number of cuts. -/
def encodings : Nat → Nat → Nat → List (List ByteRange)
  | 0, _, _ => []
  | bound + 1, first, last =>
    match cut? first last with
    | some n => encodings bound first n ++ encodings bound (n + 1) last
    | none =>
      if 0xD800 ≤ first && last ≤ 0xDFFF then []
      else [(encoding first).zip (encoding last)]

/-- The encodings of the characters of a set. -/
def CharSet.encodings (s : CharSet) : List (List ByteRange) :=
  s.ranges.flatMap fun (first, last) => Pattern.encodings 24 first last

/-! ### Measures -/

/-- What an automaton takes up. -/
structure Footprint where
  /-- The number of bytes. -/
  bytes : Nat
  /-- Whether its last state is a branching. -/
  branching : Bool
deriving DecidableEq, Repr

namespace Footprint

/-- What a state takes up. -/
def state : Nat := 32

/-- What a transition of a state takes up. -/
def transition : Nat := 8

/-- What a branch of a branching takes up. -/
def branch : Nat := 4

/-- An automaton that does not end in a branching. -/
def plain (bytes : Nat) : Footprint := ⟨bytes, false⟩

/-- What it takes to lead on from the automaton. -/
def link (f : Footprint) : Nat := if f.branching then branch else 0

/-- The automaton that leads on. -/
def linked (f : Footprint) : Nat := f.bytes + f.link

/-- Two automata one after the other. -/
def followedBy (f g : Footprint) : Footprint := ⟨f.linked + g.bytes, g.branching⟩

/-- So many copies one after the other. -/
def copies (f : Footprint) : Nat → Footprint
  | 0 => plain state
  | count + 1 => ⟨count * f.linked + f.bytes, f.branching⟩

/-- Once or more. -/
def oneOrMore (f : Footprint) : Footprint := ⟨f.linked + state + branch, true⟩

/-- Any number of times; whether something is matched each time decides on the form. -/
def zeroOrMore (f : Footprint) (progresses : Bool) : Footprint :=
  if progresses then ⟨f.linked + state + branch, true⟩
  else plain (f.linked + 3 * state + 4 * branch)

/-- A choice between going on and leaving out the rest, so many times. -/
def optional (f : Footprint) (count : Nat) : Footprint :=
  plain (state + count * (f.linked + state + 2 * branch))

/-- At least so many times, and at most so many times if there is a bound. -/
def repeated (f : Footprint) (progresses : Bool) (least : Nat) : Option Nat → Footprint
  | none => match least with
    | 0 => f.zeroOrMore progresses
    | 1 => f.oneOrMore
    | count + 1 => (f.copies count).followedBy f.oneOrMore
  | .some most =>
    if least = most then f.copies least
    else if least = 0 ∧ most = 1 then f.optional 1
    else (f.copies least).followedBy (f.optional (most - least))

/-- Alternatives. -/
def choice (fs : List Footprint) : Footprint :=
  plain (2 * state + (fs.map fun f => f.linked + branch).foldr (· + ·) 0)

end Footprint

/-! ### Sets -/

open Footprint (state transition branch)

/-- The distinct states of the automaton that reads sequences of bytes, of which those that start
alike are neighbours: each is told by the sequences that it still has to read. -/
def readingStates : Nat → List (List ByteRange) → List (List (List ByteRange))
  | 0, _ => []
  | bound + 1, sequences =>
    if sequences.all List.isEmpty then []
    else
      let groups := sequences.splitBy fun s t => s.head? == t.head?
      sequences :: groups.flatMap fun group => readingStates bound (group.map List.tail)

/-- The automaton that reads a character of a set forwards. -/
def CharSet.forwards (s : CharSet) : Nat :=
  let size (sequences : List (List ByteRange)) : Nat :=
    state + transition * (sequences.splitBy fun s t => s.head? == t.head?).length
  state + ((readingStates 4 s.encodings).eraseDups.map size).foldr (· + ·) 0

/-- The automaton that reads a character of a set backwards. -/
def CharSet.backwards (s : CharSet) : Nat :=
  let read := s.encodings.flatMap fun sequence =>
    (List.range sequence.length).map fun n => sequence.take (n + 1)
  state * (2 + read.eraseDups.length) + branch * s.encodings.length

/-- What a set takes up in an automaton that may read backwards. -/
def CharSet.footprint (s : CharSet) (backwards : Bool) : Footprint :=
  .plain <| match s.only? with
    | some c => state * c.utf8Size
    | none =>
      if s.isEmpty then state
      else if s.isAscii then 2 * state + transition * s.ranges.length
      else if backwards then s.backwards
      else s.forwards

/-! ### Patterns -/

mutual

/-- Whether every match is longer than the empty text. -/
def progresses : Pattern → Bool
  | empty | place _ => false
  | set s => !s.isEmpty
  | remembered body => body.progresses
  | repeated least _ body => 0 < least && body.progresses
  | sequence parts => anyProgresses parts
  | choice parts => allProgress parts

/-- Whether one of some patterns has only matches longer than the empty text. -/
def anyProgresses : List Pattern → Bool
  | [] => false
  | p :: rest => p.progresses || anyProgresses rest

/-- Whether all of some patterns have only matches longer than the empty text. -/
def allProgress : List Pattern → Bool
  | [] => true
  | p :: rest => p.progresses && allProgress rest

end

mutual

/-- What a pattern takes up in an automaton that may read backwards. -/
def footprint (backwards : Bool) : Pattern → Footprint
  | empty | place _ => .plain state
  | set s => s.footprint backwards
  | remembered body =>
    let inside := body.footprint backwards
    if backwards then inside else .plain (inside.linked + 2 * state)
  | repeated least most body =>
    (body.footprint backwards).repeated body.progresses least most
  | sequence parts =>
    let found := footprints backwards parts
    match if backwards then found.reverse else found with
    | [] => .plain state
    | first :: rest => rest.foldl Footprint.followedBy first
  | choice parts => .choice (footprints backwards parts)

/-- What each of some patterns takes up. -/
def footprints (backwards : Bool) : List Pattern → List Footprint
  | [] => []
  | p :: rest => p.footprint backwards :: footprints backwards rest

end

/-- What the whole automaton takes up: before the pattern any bytes may be read, and what is
matched as a whole is remembered when reading forwards. -/
def size (p : Pattern) (backwards : Bool) : Nat :=
  let before := 3 * state + transition + 2 * branch
  let whole : Pattern := if backwards then p else .remembered p
  before + (whole.footprint backwards).linked + state

/-- The greatest size that is accepted. -/
def greatestSize : Nat := 10 * (1 <<< 20)

end BehaviouralTypes.Pattern
