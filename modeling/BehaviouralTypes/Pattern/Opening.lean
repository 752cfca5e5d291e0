import BehaviouralTypes.Pattern.Cursor
import BehaviouralTypes.Text.Letters

/-!
# What a parenthesis opens

Behind an opening parenthesis stand the name of a group or changes of flags, or the group itself
starts.
-/

namespace BehaviouralTypes.Pattern

open Text (Position isLetter isNumeral)

/-! ### Flags -/

/-- A flag or the minus sign among flags. -/
structure FlagItem where
  /-- The character. -/
  span : Span
  /-- The flag, none for the minus sign. -/
  flag : Option Flag

/-- Reads flags up to a colon or a closing parenthesis. The items before are given, the latest
first. -/
def flagItems (items : List FlagItem) (here : Position) :
    List Char → Except Fault (List FlagItem × Position)
  | [] => refuse .flagCut (.point here)
  | d :: rest =>
    let span : Span := ⟨here, here.next d⟩
    let add (flag : Option Flag) (twice : Flaw) : Except Fault (List FlagItem × Position) :=
      match items.find? (·.flag = flag) with
      | some earlier => .error ⟨twice, span, some earlier.span⟩
      | none => flagItems (⟨span, flag⟩ :: items) (here.next d) rest
    if d = ':' || d = ')' then .ok (items, here)
    else if d = '-' then add none .minusTwice
    else match Flag.ofLetter? d with
      | some flag => add flag .flagTwice
      | none => refuse .flagUnknown span

/-- What the items make of the flags, the latest item first. -/
def flagChanges (items : List FlagItem) : List FlagChange :=
  let ordered := items.reverse
  let on := ordered.takeWhile (·.flag.isSome)
  let off := ordered.dropWhile (·.flag.isSome)
  on.filterMap (·.flag.map (⟨·, true⟩)) ++ off.filterMap (·.flag.map (⟨·, false⟩))

/-- Reads changes of flags up to a colon or a closing parenthesis. -/
def flags (c : Cursor) : Except Fault (List FlagChange × Cursor) := do
  let (items, stop) ← flagItems [] c.here c.rest
  match items with
  | ⟨span, none⟩ :: _ => refuse .flagDangling span
  | _ => return (flagChanges items, ⟨c.rest.drop items.length, stop, c.verbose⟩)

/-! ### Groups -/

/-- The name of a group and where it is given. -/
structure GroupName where
  /-- The stretch of the name. -/
  span : Span
  /-- The characters of the name. -/
  text : List Char

/-- The longest name at the start of a text. -/
def nameAt : List Char → List Char
  | [] => []
  | d :: rest =>
    if d = '_' || isLetter d then d :: rest.takeWhile continues else []
where
  /-- Whether the character may stand in a name after its first. -/
  continues (d : Char) : Bool := d ∈ ['_', '.', '[', ']'] || isLetter d || isNumeral d

/-- Reads the name of a group up to the angle bracket behind it. Some names are taken. -/
def groupName (taken : List GroupName) (c : Cursor) : Except Fault (GroupName × Cursor) :=
  let text := nameAt c.rest
  let last := c.after text
  let span := last.since c.here
  match last.rest with
  | [] => refuse .nameCut last.point
  | d :: _ =>
    if d ≠ '>' then refuse .nameInvalid last.character
    else if text = [] then refuse .nameEmpty c.point
    else match taken.find? (·.text = text) with
      | some earlier => .error ⟨.nameTwice, span, some earlier.span⟩
      | none => .ok (⟨span, text⟩, last.bump)

/-- What an opening parenthesis and the characters behind it begin. -/
inductive Opening where
  /-- A group that is remembered, and its name. -/
  | captured (name : Option GroupName)
  /-- A group that changes flags inside. -/
  | flagged (changes : List FlagChange)
  /-- No group but a change of flags for what follows. -/
  | change (changes : List FlagChange)

/-- Reads what an opening parenthesis begins. Some names are taken. -/
def opening (taken : List GroupName) (c : Cursor) : Except Fault (Opening × Cursor) :=
  let inside := c.bump.skip
  match ["?=", "?!", "?<=", "?<!"].findSome? inside.accept? with
  | some next => refuse .lookAround (next.since c.here)
  | none => match ["?P<", "?<"].findSome? inside.accept?, inside.accept? "?" with
    | some name, _ => do
      let (name, next) ← groupName taken name
      return (.captured name, next)
    | none, none => .ok (.captured none, inside)
    | none, some behind =>
      if behind.rest = [] then refuse .groupUnclosed c.character
      else do
        let (changes, last) ← flags behind
        if last.rest.head? = some ':' then return (.flagged changes, last.bump)
        else if changes = [] then refuse .nothingToRepeat inside.point
        else return (.change changes, last.bump)

end BehaviouralTypes.Pattern
