import BehaviouralTypes.Program.Text
import BehaviouralTypes.Simplify.Preferences
import BehaviouralTypes.Text.Search

/-!
# Preferences in a comment

A text whose first token is a comment can say there how it wants to be simplified. Three of the
preferences are set by phrases anywhere in the comment, also inside a longer word. The entry is
what follows `entry=` in the first word that begins so.
-/

namespace BehaviouralTypes

open Text (lex)

/-- What introduces the name of the entry. -/
def entryMark : List Char := "entry=".toList

/-- The name of the entry in a word, if the word gives one. -/
def entryOfWord? (word : List Char) : Option Name :=
  (entryMark.isPrefixOf? word).map String.ofList

namespace Preferences

/-- The preferences that a comment asks for. -/
def ofComment (comment : String) : Preferences where
  entry := ((Text.words comment.toList).findSome? entryOfWord?).getD defaultEntry
  validate := !Text.contains "no_validate" comment
  keepSilentEntry := !Text.contains "remove_silent_entry" comment
  debug := Text.contains "debug" comment

/-- The preferences that a text asks for. -/
def ofText (text : String) : Except TextError Preferences :=
  match lex text with
  | .error e => .error (.overflow e)
  | .ok (⟨.comment comment, _⟩ :: _) => .ok (ofComment comment)
  | .ok _ => .ok {}

end Preferences

/-- A text as a program together with the preferences it asks for. -/
def annotatedProgram (text : String) : Except Explanation (Preferences × Program) :=
  match Program.ofText text with
  | .error e => .error (e.explanation.during "Failed to parse test input")
  | .ok p => match Preferences.ofText text with
    | .error e => .error e.explanation
    | .ok prefs => .ok (prefs, p)

end BehaviouralTypes
