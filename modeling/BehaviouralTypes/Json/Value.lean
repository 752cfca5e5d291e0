/-!
# JSON values

JSON values with unsigned integers as their only numbers, and their layout on indented lines.
The members of an object keep their order.
-/

namespace BehaviouralTypes.Json

/-- A JSON value. -/
inductive Value where
  /-- A string. -/
  | str (text : String)
  /-- A number. -/
  | num (value : Nat)
  /-- An array. -/
  | arr (items : List Value)
  /-- An object. -/
  | obj (members : List (String × Value))

/-- How a character is written inside a string: quotes, backslashes and control characters are
escaped, by a letter where there is one, and everything else stands for itself. -/
def escaped (c : Char) : List Char :=
  if c = '"' then ['\\', '"']
  else if c = '\\' then ['\\', '\\']
  else if c = '\x08' then ['\\', 'b']
  else if c = '\t' then ['\\', 't']
  else if c = '\n' then ['\\', 'n']
  else if c = '\x0c' then ['\\', 'f']
  else if c = '\r' then ['\\', 'r']
  else if c.toNat < 0x20 then
    ['\\', 'u', '0', '0', Nat.digitChar (c.toNat / 16), Nat.digitChar (c.toNat % 16)]
  else [c]

/-- A string between quotes. -/
def quoted (text : String) : String :=
  "\"" ++ String.ofList (text.toList.flatMap escaped) ++ "\""

/-- A line break and the indentation of a line at that depth, two spaces for each level. -/
def lineBreak (depth : Nat) : String := "\n" ++ String.ofList (List.replicate (2 * depth) ' ')

mutual

/-- The value on lines that start at that depth, the first line excepted. An empty array or
object takes no line of its own. -/
def Value.layout (depth : Nat) : Value → String
  | .str text => quoted text
  | .num value => toString value
  | .arr [] => "[]"
  | .arr (item :: rest) =>
    "[" ++ lineBreak (depth + 1) ++ item.layout (depth + 1) ++ layoutItems (depth + 1) rest ++
      lineBreak depth ++ "]"
  | .obj [] => "\x7b\x7d"
  | .obj ((key, value) :: rest) =>
    "\x7b" ++ lineBreak (depth + 1) ++ quoted key ++ ": " ++ value.layout (depth + 1) ++
      layoutMembers (depth + 1) rest ++ lineBreak depth ++ "\x7d"

/-- Further items of an array, each after a comma and on a line of its own. -/
def layoutItems (depth : Nat) : List Value → String
  | [] => ""
  | item :: rest =>
    "," ++ lineBreak depth ++ item.layout depth ++ layoutItems depth rest

/-- Further members of an object, each after a comma and on a line of its own. -/
def layoutMembers (depth : Nat) : List (String × Value) → String
  | [] => ""
  | (key, value) :: rest =>
    "," ++ lineBreak depth ++ quoted key ++ ": " ++ value.layout depth ++
      layoutMembers depth rest

end

end BehaviouralTypes.Json
