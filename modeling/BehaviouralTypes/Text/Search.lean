/-!
# Searching a text

Whether a text contains another as an unbroken stretch, and the fields of a text that are set
apart by a separator.
-/

namespace BehaviouralTypes.Text

/-- Whether the pattern occurs somewhere in the text. -/
def occurs (pattern : List Char) : List Char → Bool
  | [] => pattern.isEmpty
  | c :: rest => pattern.isPrefixOf (c :: rest) || occurs pattern rest

/-- Whether the first text occurs in the second. -/
def contains (pattern text : String) : Bool := occurs pattern.toList text.toList

/-- The fields between the separators, one more than there are separators. -/
def fields (separator : Char) : List Char → List (List Char)
  | [] => [[]]
  | c :: rest =>
    if c = separator then [] :: fields separator rest
    else match fields separator rest with
      | [] => [[c]]
      | field :: others => (c :: field) :: others

end BehaviouralTypes.Text
