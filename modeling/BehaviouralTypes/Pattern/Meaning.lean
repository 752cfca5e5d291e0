import BehaviouralTypes.Pattern.Basic
import BehaviouralTypes.Pattern.Cursor

/-!
# What a pattern means

Flags hold from the place where they are changed to the end of the group. With them the structure
of a pattern says what it matches, and some of what can be written is refused: words, digits and
pairs of letters are known for ASCII only, and where single bytes are matched, a byte outside ASCII
is no character.
-/

namespace BehaviouralTypes.Pattern

/-- The flags on which the meaning of a pattern depends. -/
structure Flags where
  /-- Small and capital letters are the same. -/
  insensitive : Bool
  /-- Lines count. -/
  multiline : Bool
  /-- The dot stands for a line feed too. -/
  dotAll : Bool
  /-- Characters are matched rather than bytes. -/
  unicode : Bool
  /-- A carriage return may end a line too. -/
  carriageReturn : Bool
deriving DecidableEq, Repr

/-- The flags at the start of a pattern. -/
def Flags.initial : Flags := ⟨false, false, false, true, false⟩

/-- The flags after some changes. -/
def Flags.change (f : Flags) (changes : List FlagChange) : Flags :=
  let value (flag : Flag) (before : Bool) := (FlagChange.value? changes flag).getD before
  { insensitive := value .insensitive f.insensitive
    multiline := value .multiline f.multiline
    dotAll := value .dotAll f.dotAll
    unicode := value .unicode f.unicode
    carriageReturn := value .carriageReturn f.carriageReturn }

/-! ### Sets -/

/-- The greatest code point. -/
def greatestChar : Nat := 0x10FFFF

/-- The greatest byte. -/
def greatestByte : Nat := 0xFF

/-- The set with both letters of each pair, if small and capital letters are the same. -/
def CharSet.fold (s : CharSet) (f : Flags) (span : Span) : Except Fault CharSet :=
  if !f.insensitive || s.folded then .ok s
  else if !f.unicode then .ok s.foldAscii
  else if s.isEmpty then .ok .empty
  else refuse .caseUnavailable span

/-- The set, or everything else, of bytes only if all of them are characters. -/
def CharSet.choose (s : CharSet) (f : Flags) (span : Span) (negated : Bool) :
    Except Fault CharSet :=
  let greatest := if f.unicode then greatestChar else greatestByte
  let chosen := if negated then s.complement greatest else s
  if f.unicode || chosen.isAscii then .ok chosen else refuse .loneByte span

/-- The class of a single letter. -/
def letteredSet (f : Flags) (span : Span) (negated : Bool) (kind : NamedClass) :
    Except Fault CharSet :=
  if f.unicode then refuse .classUnavailable span else kind.set.choose f span negated

/-- The name of a property in small letters, without the syllable in front that means nothing. -/
def plainName (name : List Char) : List Char :=
  let bare := match name with
    | c :: d :: rest => if c.toLower = 'i' ∧ d.toLower = 's' then rest else name
    | _ => name
  (bare.filter fun c => c.toNat < 128 && c ∉ [' ', '_', '-']).map Char.toLower

/-- Why there is no set of characters with that property. -/
def propertyFlaw (f : Flags) (name : List Char) : Flaw :=
  if !f.unicode then .charactersUnwanted
  else if name.any fun c => c = ':' || c = '=' then .propertyUnknown
  else if String.ofList (plainName name) ∈ ["cf", "sc", "lc"] then .propertyValueUnknown
  else .propertyUnknown

/-- The code point of a character in a set. -/
def Literal.code (l : Literal) (f : Flags) : Except Fault Nat :=
  if f.unicode || l.char.toNat < 128 then .ok l.char.toNat
  else refuse (if l.asByte then .loneByte else .charactersUnwanted) l.span

mutual

/-- The set together with what is written. -/
def SetTree.extend (f : Flags) (s : CharSet) : SetTree → Except Fault CharSet
  | .empty _ => .ok s
  | .literal l => do
    let code ← l.code f
    return s.insert code code
  | .range _ first last => do
    let first ← first.code f
    let last ← last.code f
    return s.insert first last
  | .named span negated kind => do
    let found ← kind.set.fold f span
    return s.union (← found.choose f span negated)
  | .lettered span negated kind => do return s.union (← letteredSet f span negated kind)
  | .property span name => refuse (propertyFlaw f name) span
  | .bracketed span negated body => do
    let found ← (← body.extend f .empty).fold f span
    return s.union (← found.choose f span negated)
  | .union _ members => SetTree.extendAll f s members
  | .operation _ operator left right => do
    let first ← left.extend f .empty
    let second ← right.extend f .empty
    let second ← second.fold f right.span
    let first ← first.fold f left.span
    return s.union (.combine operator first second)

/-- The set together with all that is written. -/
def SetTree.extendAll (f : Flags) (s : CharSet) : List SetTree → Except Fault CharSet
  | [] => .ok s
  | t :: rest => do SetTree.extendAll f (← t.extend f s) rest

end

/-! ### Patterns -/

/-- What a character matches. -/
def Literal.pattern (l : Literal) (f : Flags) : Except Fault Pattern :=
  if f.unicode then
    if f.insensitive then refuse .caseUnavailable l.span else .ok (.set (.single l.char))
  else if l.asByte ∧ 128 ≤ l.char.toNat then refuse .loneByte l.span
  else if f.insensitive then .ok (.set (CharSet.single l.char).foldAscii)
  else .ok (.set (.single l.char))

/-- What the dot matches. -/
def dot (f : Flags) (span : Span) : Except Fault Pattern :=
  let excluded :=
    if f.dotAll then CharSet.empty
    else if f.carriageReturn then (CharSet.single '\n').insert 0x0D 0x0D
    else .single '\n'
  if f.unicode then .ok (.set (excluded.complement greatestChar)) else refuse .loneByte span

/-- The places that meet a condition. -/
def Condition.place (f : Flags) : Condition → Place
  | lineStart => if f.multiline then .lineStart f.carriageReturn else .textStart
  | lineEnd => if f.multiline then .lineEnd f.carriageReturn else .textEnd
  | textStart => .textStart
  | textEnd => .textEnd
  | border b => .border b !f.unicode

mutual

/-- What is matched, and the flags behind it. -/
def Tree.pattern (f : Flags) : Tree → Except Fault (Pattern × Flags)
  | .empty _ => .ok (.empty, f)
  | .flags _ changes => .ok (.empty, f.change changes)
  | .literal l => do return (← l.pattern f, f)
  | .dot span => do return (← Pattern.dot f span, f)
  | .condition _ wanted => .ok (.place (wanted.place f), f)
  | .lettered span negated kind => do return (.set (← letteredSet f span negated kind), f)
  | .property span name => refuse (propertyFlaw f name) span
  | .bracketed span negated body => do
    let found ← (← body.extend f .empty).fold f span
    return (.set (← found.choose f span negated), f)
  | .repeated _ least most body => do
    let (p, f) ← body.pattern f
    return (p.times least most, f)
  | .group _ captured changes body => do
    let (p, _) ← body.pattern (f.change changes)
    return (if captured then .remembered p else p, f)
  | .sequence _ parts => do
    let (ps, f) ← Tree.patterns f parts
    return (.inOrder ps, f)
  | .choice _ parts => do
    let (ps, f) ← Tree.patterns f parts
    return (.alternatives ps, f)

/-- What each of some parts matches, and the flags behind them. -/
def Tree.patterns (f : Flags) : List Tree → Except Fault (List Pattern × Flags)
  | [] => .ok ([], f)
  | t :: rest => do
    let (p, f) ← t.pattern f
    let (ps, f) ← Tree.patterns f rest
    return (p :: ps, f)

end

end BehaviouralTypes.Pattern
