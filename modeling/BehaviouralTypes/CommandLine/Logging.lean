import BehaviouralTypes.Pattern.Occurrence
import BehaviouralTypes.Pattern.Text
import BehaviouralTypes.Simplify.Event
import BehaviouralTypes.Text.Search
import BehaviouralTypes.Text.White

/-!
# Which events are shown

A specification lists thresholds, each for all events or for those of one part of the library,
and may end in a pattern that has to occur in the message of a shown event. Of several thresholds
the one for the narrowest part counts. A field or a pattern that cannot be understood is dropped
with a warning.
-/

namespace BehaviouralTypes

open Text (fields trim)

/-- A threshold for the events of one part of the library. -/
structure Threshold where
  /-- What the name of the part begins with; everything if it is left out. -/
  part : Option String
  /-- The number of levels that are shown, from the gravest on. -/
  rank : Nat
deriving DecidableEq, Repr

namespace Threshold

/-- How narrowly the threshold applies. -/
def width (t : Threshold) : Nat := (t.part.map String.length).getD 0

/-- Whether the threshold applies to events of that source. -/
def applies (t : Threshold) (source : String) : Bool :=
  t.part.all fun part => part.toList.isPrefixOf source.toList

/-- The number of levels that a level name stands for, in letters of either case. -/
def rank? (name : List Char) : Option Nat :=
  match String.ofList (name.map Char.toLower) with
  | "off" => some 0
  | "error" => some Level.error.rank
  | "warn" => some Level.warn.rank
  | "info" => some Level.info.rank
  | "debug" => some Level.debug.rank
  | "trace" => some Level.trace.rank
  | _ => none

/-- The threshold that a field describes, or the words in it that make no sense. -/
def ofField (field : List Char) : Except String Threshold :=
  match fields '=' field with
  | [word] => match rank? word with
    | some rank => .ok ⟨none, rank⟩
    | none => .ok ⟨some (String.ofList word), Level.trace.rank⟩
  | [part, level] => match trim level with
    | [] => .ok ⟨some (String.ofList part), Level.trace.rank⟩
    | name => match rank? name with
      | some rank => .ok ⟨some (String.ofList part), rank⟩
      | none => .error (String.ofList name)
  | _ => .error (String.ofList field)

/-- The thresholds with one more, which replaces the one for the same part. -/
def insert (t : Threshold) : List Threshold → List Threshold
  | [] => [t]
  | u :: rest => if u.part = t.part then t :: rest else u :: t.insert rest

end Threshold

/-- What is shown of a log. -/
structure LogFilter where
  /-- The thresholds. -/
  thresholds : List Threshold
  /-- What must occur in the message of a shown event, if anything. -/
  pattern : Option Pattern

namespace LogFilter

/-- Shows failures only. -/
def failures : LogFilter := ⟨[⟨none, Level.error.rank⟩], none⟩

/-- The narrowest threshold for events of that source, of several the last. -/
def threshold? (f : LogFilter) (source : String) : Option Threshold :=
  (f.thresholds.filter (·.applies source)).foldl narrower none
where
  /-- The later of two thresholds unless the earlier is narrower. -/
  narrower (best : Option Threshold) (t : Threshold) : Option Threshold :=
    if best.all (·.width ≤ t.width) then some t else best

/-- Whether the event is shown. -/
def shows (f : LogFilter) (e : Event) : Bool :=
  ((f.threshold? e.source).any fun t => e.level.rank ≤ t.rank) &&
    f.pattern.all (·.occursIn e.message.toList)

/-- A filter and the warnings about the specification it was read from. -/
structure Reading where
  /-- The filter. -/
  filter : LogFilter
  /-- The warnings, in order. -/
  warnings : List String

/-- The thresholds of the fields in order, and warnings about the fields without one. -/
def thresholdsOf (specification : List Char) : List Threshold × List String :=
  ((fields ',' specification).map trim).foldl add ([], [])
where
  /-- Adds the threshold of a field or the warning about it. -/
  add : List Threshold × List String → List Char → List Threshold × List String
    | found, [] => found
    | (thresholds, warnings), field => match Threshold.ofField field with
      | .ok t => (t.insert thresholds, warnings)
      | .error words =>
        (thresholds, warnings ++ [s!"warning: invalid logging spec '{words}', ignoring it"])

/-- Reads a pattern, or says that it is dropped and why. -/
def patternOf (text : List Char) : Option Pattern × List String :=
  match Pattern.ofText (String.ofList text) with
  | .ok pattern => (some pattern, [])
  | .error refusal => (none, ["warning: invalid regex filter - " ++ refusal.message])

/-- Reads a specification. One without any threshold shows failures only. -/
def ofSpecification (specification : String) : Reading :=
  let build (list : List Char) (pattern : Option Pattern) (further : List String) : Reading :=
    let (found, warnings) := thresholdsOf list
    ⟨⟨if found.isEmpty then failures.thresholds else found, pattern⟩, warnings ++ further⟩
  match fields '/' specification.toList with
  | [] => ⟨failures, []⟩
  | [list] => build list none []
  | [list, text] =>
    let (pattern, further) := patternOf text
    build list pattern further
  | _ =>
    ⟨failures, [s!"warning: invalid logging spec '{specification}', ignoring it (too many '/'s)"]⟩

end LogFilter

/-- How an event is shown: further lines of its message are indented. -/
def Event.shownLine (e : Event) : String :=
  let level := e.level.name.map Char.toUpper
  let message := "\n    ".intercalate ((fields '\n' e.message.toList).map String.ofList)
  "[" ++ level ++ String.ofList (List.replicate (5 - level.length) ' ') ++ " " ++ e.source ++
    "] " ++ message

end BehaviouralTypes
