import BehaviouralTypes.Program.Basic

/-!
# Preferences

What a simplification is asked to do besides its work.
-/

namespace BehaviouralTypes

/-- The entry of programs that were extracted from Go. -/
def defaultEntry : Name := "\"main\".main"

/-- The choices of a user. -/
structure Preferences where
  /-- The function where execution starts. -/
  entry : Name := defaultEntry
  /-- Whether the result is checked. -/
  validate : Bool := true
  /-- Whether the entry stays although it is silent. -/
  keepSilentEntry : Bool := true
  /-- Whether the result is logged. -/
  debug : Bool := false
deriving DecidableEq, Repr

/-- The entry, if the program defines it. -/
def Preferences.entryIn (prefs : Preferences) (p : Program) : Option Name :=
  if p.defines prefs.entry then some prefs.entry else none

/-- The function that the removal of silent functions spares. -/
def Preferences.spared (prefs : Preferences) (p : Program) : Option Name :=
  if prefs.keepSilentEntry then prefs.entryIn p else none

end BehaviouralTypes
