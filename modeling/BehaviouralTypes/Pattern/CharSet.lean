import BehaviouralTypes.Pattern.Tree

/-!
# Sets of characters

A set of characters is a list of ranges of code points in increasing order, no two of which touch.
-/

namespace BehaviouralTypes.Pattern

/-- A set of characters. -/
structure CharSet where
  /-- The first and last code point of each run. -/
  ranges : List (Nat × Nat)
  /-- Whether the set is known to hold both letters of each pair of a small and a capital one. -/
  folded : Bool
deriving DecidableEq, Repr

namespace CharSet

/-- The set without characters. -/
def empty : CharSet := ⟨[], true⟩

/-- Whether there is no character in the set. -/
def isEmpty (s : CharSet) : Bool := s.ranges.isEmpty

/-- Whether the character is in the set. -/
def contains (s : CharSet) (c : Char) : Bool :=
  s.ranges.any fun (first, last) => first ≤ c.toNat && c.toNat ≤ last

/-- The ranges with one more, which is joined with those it touches. -/
def join (r : Nat × Nat) : List (Nat × Nat) → List (Nat × Nat)
  | [] => [r]
  | s :: rest =>
    if r.2 + 1 < s.1 then r :: s :: rest
    else if s.2 + 1 < r.1 then s :: join r rest
    else join (min r.1 s.1, max r.2 s.2) rest

/-- The set of the code points in some ranges. -/
def ofRanges (ranges : List (Nat × Nat)) : CharSet := ⟨ranges.foldl (fun s r => join r s) [], false⟩

/-- The set with the code points of one more range. -/
def insert (s : CharSet) (first last : Nat) : CharSet := ⟨join (first, last) s.ranges, false⟩

/-- The set of one character. -/
def single (c : Char) : CharSet := empty.insert c.toNat c.toNat

/-- The only character of the set, if it has just one. -/
def only? (s : CharSet) : Option Char :=
  match s.ranges with
  | [(first, last)] => if first = last then some (Char.ofNat first) else none
  | _ => none

/-- Whether all characters of the set are ASCII. -/
def isAscii (s : CharSet) : Bool := s.ranges.all fun (_, last) => last < 128

/-! ### Operations -/

/-- What one of the sets has. -/
def union (s t : CharSet) : CharSet :=
  if t.isEmpty || s.ranges = t.ranges then s
  else ⟨t.ranges.foldl (fun u r => join r u) s.ranges, s.folded && t.folded⟩

/-- The gaps between ranges, from one code point to another. -/
def gaps (start stop : Nat) : List (Nat × Nat) → List (Nat × Nat)
  | [] => if start ≤ stop then [(start, stop)] else []
  | (first, last) :: rest =>
    (if start < first then [(start, first - 1)] else []) ++ gaps (last + 1) stop rest

/-- What the set does not have, among the code points up to a greatest. -/
def complement (greatest : Nat) (s : CharSet) : CharSet :=
  ⟨gaps 0 greatest s.ranges, s.isEmpty || s.folded⟩

/-- What two ranges share. -/
def overlap (r s : Nat × Nat) : List (Nat × Nat) :=
  let first := max r.1 s.1
  let last := min r.2 s.2
  if first ≤ last then [(first, last)] else []

/-- What both sets have. -/
def intersection (s t : CharSet) : CharSet :=
  if s.isEmpty then s
  else if t.isEmpty then empty
  else ⟨s.ranges.flatMap fun r => t.ranges.flatMap (overlap r), s.folded && t.folded⟩

/-- What the first set has and the second does not. -/
def difference (s t : CharSet) : CharSet :=
  if s.isEmpty || t.isEmpty then s
  else
    let others := gaps 0 (s.ranges.foldl (fun n r => max n r.2) 0) t.ranges
    ⟨s.ranges.flatMap fun r => others.flatMap (overlap r), s.folded && t.folded⟩

/-- What the operator makes of two sets. -/
def combine : SetOperator → CharSet → CharSet → CharSet
  | .intersection, s, t => s.intersection t
  | .difference, s, t => s.difference t
  | .symmetricDifference, s, t => (s.union t).difference (s.intersection t)

/-- The set with both letters of each pair of a small and a capital letter in ASCII. -/
def foldAscii (s : CharSet) : CharSet :=
  let others (low high : Nat) (shift : Nat → Nat) : List (Nat × Nat) :=
    (s.ranges.flatMap (overlap (low, high))).map fun (first, last) => (shift first, shift last)
  let found := others 0x41 0x5A (· + 32) ++ others 0x61 0x7A (· - 32)
  ⟨found.foldl (fun u r => join r u) s.ranges, true⟩

end CharSet

/-! ### Named sets -/

/-- The range from one character to another. -/
def between (first last : Char) : Nat × Nat := (first.toNat, last.toNat)

/-- The ranges of a class. -/
def NamedClass.ranges : NamedClass → List (Nat × Nat)
  | alnum => [digits, capitals, smalls]
  | alpha => [capitals, smalls]
  | ascii => [(0, 0x7F)]
  | blank => [between '\t' '\t', between ' ' ' ']
  | cntrl => [(0, 0x1F), (0x7F, 0x7F)]
  | digit => [digits]
  | graph => [between '!' '~']
  | lower => [smalls]
  | print => [between ' ' '~']
  | punct => [between '!' '/', between ':' '@', (0x5B, 0x60), (0x7B, 0x7E)]
  | space => [(0x09, 0x0D), between ' ' ' ']
  | upper => [capitals]
  | word => [digits, capitals, between '_' '_', smalls]
  | xdigit => [digits, between 'A' 'F', between 'a' 'f']
where
  /-- The digits. -/
  digits : Nat × Nat := between '0' '9'
  /-- The capital letters. -/
  capitals : Nat × Nat := between 'A' 'Z'
  /-- The small letters. -/
  smalls : Nat × Nat := between 'a' 'z'

/-- The characters of a class. -/
def NamedClass.set (kind : NamedClass) : CharSet := .ofRanges kind.ranges

end BehaviouralTypes.Pattern
