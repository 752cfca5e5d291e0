import BehaviouralTypes.Pattern.Fault

/-!
# The structure of a pattern

A pattern as it is written: characters, sets of characters in brackets, repetitions, groups and
choices. Every part knows the stretch of the pattern from which it was read.
-/

namespace BehaviouralTypes.Pattern

/-- A character that stands for itself. -/
structure Literal where
  /-- Where it was read. -/
  span : Span
  /-- The character. -/
  char : Char
  /-- Whether it was written as a byte, by two hexadecimal digits. -/
  asByte : Bool
deriving DecidableEq, Repr

/-- The classes of characters with a name between colons. -/
inductive NamedClass where
  /-- Letters and digits. -/
  | alnum
  /-- Letters. -/
  | alpha
  /-- All of ASCII. -/
  | ascii
  /-- The space and the tab. -/
  | blank
  /-- Control characters. -/
  | cntrl
  /-- Digits. -/
  | digit
  /-- Characters that are drawn. -/
  | graph
  /-- Small letters. -/
  | lower
  /-- Characters that are drawn, and the space. -/
  | print
  /-- Characters that are drawn, other than letters and digits. -/
  | punct
  /-- White space. -/
  | space
  /-- Capital letters. -/
  | upper
  /-- Letters, digits and the underscore. -/
  | word
  /-- Hexadecimal digits. -/
  | xdigit
deriving DecidableEq, Repr

namespace NamedClass

/-- The name between the colons. -/
def name : NamedClass → String
  | alnum => "alnum"
  | alpha => "alpha"
  | ascii => "ascii"
  | blank => "blank"
  | cntrl => "cntrl"
  | digit => "digit"
  | graph => "graph"
  | lower => "lower"
  | print => "print"
  | punct => "punct"
  | space => "space"
  | upper => "upper"
  | word => "word"
  | xdigit => "xdigit"

/-- Every named class. -/
def all : List NamedClass :=
  [alnum, alpha, ascii, blank, cntrl, digit, graph, lower, print, punct, space, upper, word, xdigit]

/-- The class with that name. -/
def ofName? (name : String) : Option NamedClass := all.find? (·.name = name)

end NamedClass

/-- How two sets are combined. -/
inductive SetOperator where
  /-- What both have. -/
  | intersection
  /-- What the first has and the second does not. -/
  | difference
  /-- What exactly one of them has. -/
  | symmetricDifference
deriving DecidableEq, Repr

/-- A set of characters as it is written between brackets. -/
inductive SetTree where
  /-- Nothing. -/
  | empty (span : Span)
  /-- One character. -/
  | literal (literal : Literal)
  /-- The characters from one to another. -/
  | range (span : Span) (first last : Literal)
  /-- A class with a name between colons, or everything else. -/
  | named (span : Span) (negated : Bool) (kind : NamedClass)
  /-- The class that a single letter stands for, or everything else. -/
  | lettered (span : Span) (negated : Bool) (kind : NamedClass)
  /-- The characters with a property. -/
  | property (span : Span) (name : List Char)
  /-- A set in brackets of its own, or everything else. -/
  | bracketed (span : Span) (negated : Bool) (body : SetTree)
  /-- Several sets one after the other. -/
  | union (span : Span) (members : List SetTree)
  /-- Two sets with an operator between them. -/
  | operation (span : Span) (operator : SetOperator) (left right : SetTree)

/-- The stretch from which the set was read. -/
def SetTree.span : SetTree → Span
  | literal l => l.span
  | empty span | range span _ _ | named span _ _ | lettered span _ _ | property span _
  | bracketed span _ _ | union span _ | operation span _ _ _ => span

/-- Where the borders of a word are looked for. -/
inductive Border where
  /-- At either end of a word. -/
  | either
  /-- Not at an end of a word. -/
  | neither
  /-- Where a word starts. -/
  | start
  /-- Where a word ends. -/
  | stop
  /-- Where no word goes before. -/
  | startHalf
  /-- Where no word follows. -/
  | stopHalf
deriving DecidableEq, Repr

/-- The conditions on a place in a text. -/
inductive Condition where
  /-- The text starts here, or a line does if lines count. -/
  | lineStart
  /-- The text ends here, or a line does if lines count. -/
  | lineEnd
  /-- The text starts here. -/
  | textStart
  /-- The text ends here. -/
  | textEnd
  /-- A word has such a border here. -/
  | border (border : Border)
deriving DecidableEq, Repr

/-- The ways of reading a pattern that flags switch on and off. -/
inductive Flag where
  /-- Small and capital letters are the same. -/
  | insensitive
  /-- Lines count. -/
  | multiline
  /-- The dot stands for a line feed too. -/
  | dotAll
  /-- Repetitions are short by default. -/
  | ungreedy
  /-- Characters are matched rather than bytes. -/
  | unicode
  /-- A carriage return may end a line too. -/
  | carriageReturn
  /-- White space and comments are skipped. -/
  | verbose
deriving DecidableEq, Repr

/-- The flag with that letter. -/
def Flag.ofLetter? : Char → Option Flag
  | 'i' => some insensitive
  | 'm' => some multiline
  | 's' => some dotAll
  | 'U' => some ungreedy
  | 'u' => some unicode
  | 'R' => some carriageReturn
  | 'x' => some verbose
  | _ => none

/-- A flag and whether it is switched on. -/
structure FlagChange where
  /-- The flag. -/
  flag : Flag
  /-- Whether it is switched on. -/
  value : Bool
deriving DecidableEq, Repr

/-- What the changes make of a flag that they name. -/
def FlagChange.value? (changes : List FlagChange) (flag : Flag) : Option Bool :=
  (changes.find? (·.flag = flag)).map (·.value)

/-- A pattern or a part of one. -/
inductive Tree where
  /-- Nothing, which matches the empty text. -/
  | empty (span : Span)
  /-- A change of flags for what follows in the group. -/
  | flags (span : Span) (changes : List FlagChange)
  /-- A character. -/
  | literal (literal : Literal)
  /-- The dot. -/
  | dot (span : Span)
  /-- A condition on the place. -/
  | condition (span : Span) (condition : Condition)
  /-- The class that a single letter stands for, or everything else. -/
  | lettered (span : Span) (negated : Bool) (kind : NamedClass)
  /-- The characters with a property. -/
  | property (span : Span) (name : List Char)
  /-- A set in brackets, or everything else. -/
  | bracketed (span : Span) (negated : Bool) (body : SetTree)
  /-- A part at least so many times, and at most so many times if there is a bound. -/
  | repeated (span : Span) (least : Nat) (most : Option Nat) (body : Tree)
  /-- A group, which may be remembered and may change flags inside. -/
  | group (span : Span) (captured : Bool) (changes : List FlagChange) (body : Tree)
  /-- Parts one after the other. -/
  | sequence (span : Span) (parts : List Tree)
  /-- Alternatives. -/
  | choice (span : Span) (parts : List Tree)

namespace Tree

/-- The stretch from which the part was read. -/
def span : Tree → Span
  | literal l => l.span
  | empty span | flags span _ | dot span | condition span _ | lettered span _ _
  | property span _ | bracketed span _ _ | repeated span _ _ _ | group span _ _ _
  | sequence span _ | choice span _ => span

/-- Whether there is something to repeat. -/
def isRepeatable : Tree → Bool
  | empty _ | flags _ _ => false
  | _ => true

end Tree

/-! ### Depth -/

mutual

/-- The first part of a set that is nested deeper than allowed. -/
def SetTree.tooDeep? (allowed : Nat) : SetTree → Option Span
  | .empty _ | .literal _ | .range _ _ _ | .named _ _ _ | .lettered _ _ _ | .property _ _ => none
  | .bracketed span _ body => match allowed with
    | 0 => some span
    | allowed + 1 => body.tooDeep? allowed
  | .union span members => match allowed with
    | 0 => some span
    | allowed + 1 => SetTree.tooDeepAmong? allowed members
  | .operation span _ left right => match allowed with
    | 0 => some span
    | allowed + 1 => (left.tooDeep? allowed).or (right.tooDeep? allowed)

/-- The first part of some sets that is nested deeper than allowed. -/
def SetTree.tooDeepAmong? (allowed : Nat) : List SetTree → Option Span
  | [] => none
  | s :: rest => (s.tooDeep? allowed).or (SetTree.tooDeepAmong? allowed rest)

end

mutual

/-- The first part of a pattern that is nested deeper than allowed. -/
def Tree.tooDeep? (allowed : Nat) : Tree → Option Span
  | .empty _ | .flags _ _ | .literal _ | .dot _ | .condition _ _ | .lettered _ _ _
  | .property _ _ => none
  | .bracketed span _ body => match allowed with
    | 0 => some span
    | allowed + 1 => body.tooDeep? allowed
  | .repeated span _ _ body | .group span _ _ body => match allowed with
    | 0 => some span
    | allowed + 1 => body.tooDeep? allowed
  | .sequence span parts | .choice span parts => match allowed with
    | 0 => some span
    | allowed + 1 => Tree.tooDeepAmong? allowed parts

/-- The first part of some patterns that is nested deeper than allowed. -/
def Tree.tooDeepAmong? (allowed : Nat) : List Tree → Option Span
  | [] => none
  | t :: rest => (t.tooDeep? allowed).or (Tree.tooDeepAmong? allowed rest)

end

end BehaviouralTypes.Pattern
