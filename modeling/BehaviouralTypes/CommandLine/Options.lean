import BehaviouralTypes.Simplify.Preferences

/-!
# Command line options

Flags and settings may be written long or short, short ones may share a hyphen, and the value of
a setting may be attached to it or follow as the next argument. Anything given twice is refused,
as is a value that looks like an option. Two hyphens end the options.
-/

namespace BehaviouralTypes

/-- The options without a value. -/
inductive Flag where
  /-- Reads the standard input. -/
  | stdin
  /-- Writes JSON. -/
  | json
  /-- Leaves the result unchecked. -/
  | noValidate
  /-- Lets the entry go if it is silent. -/
  | removeSilentEntry
  /-- Logs the result. -/
  | debug
deriving DecidableEq, Repr

/-- The options with a value. -/
inductive Setting where
  /-- The file to write to. -/
  | out
  /-- The entry function. -/
  | entry
deriving DecidableEq, Repr

/-- An option of either sort. -/
inductive Switch where
  /-- An option without a value. -/
  | flag (flag : Flag)
  /-- An option with a value. -/
  | setting (setting : Setting)
deriving DecidableEq, Repr

namespace Switch

/-- The option with that long name. -/
def ofLong? : String → Option Switch
  | "stdin" => some (flag .stdin)
  | "json" => some (flag .json)
  | "no-validate" => some (flag .noValidate)
  | "remove-silent-entry" => some (flag .removeSilentEntry)
  | "debug" => some (flag .debug)
  | "out" => some (setting .out)
  | "entry" => some (setting .entry)
  | _ => none

/-- The option with that short name. -/
def ofShort? : Char → Option Switch
  | 's' => some (flag .stdin)
  | 'd' => some (flag .debug)
  | 'o' => some (setting .out)
  | 'e' => some (setting .entry)
  | _ => none

end Switch

/-- What has been given on the command line. -/
structure Given where
  /-- The flags, the latest first. -/
  flags : List Flag := []
  /-- The settings with their values, the latest first. -/
  settings : List (Setting × String) := []
  /-- The file to read. -/
  file : Option String := none
deriving DecidableEq, Repr

namespace Given

/-- Adds a flag, unless it is there already. -/
def raise (g : Given) (flag : Flag) : Option Given :=
  if flag ∈ g.flags then none else some { g with flags := flag :: g.flags }

/-- Adds the value of a setting, unless it has one already. -/
def assign (g : Given) (setting : Setting) (value : String) : Option Given :=
  if setting ∈ g.settings.map (·.1) then none
  else some { g with settings := (setting, value) :: g.settings }

/-- Adds the file to read, unless there is one already. -/
def position (g : Given) (path : String) : Option Given :=
  if g.file.isSome then none else some { g with file := some path }

/-- The options that share a hyphen, and the setting among them whose value is still to come. -/
def cluster (g : Given) : List Char → Option (Given × Option Setting)
  | [] => some (g, none)
  | c :: rest => match Switch.ofShort? c with
    | some (.flag flag) => do (← g.raise flag).cluster rest
    | some (.setting setting) => match rest with
      | [] => some (g, some setting)
      | '=' :: value => do return (← g.assign setting (String.ofList value), none)
      | value => do return (← g.assign setting (String.ofList value), none)
    | none => none

/-- The option with a long name, and the setting that it is if its value is still to come. -/
def long (g : Given) (text : List Char) : Option (Given × Option Setting) :=
  let name := String.ofList (text.takeWhile (· ≠ '='))
  match Switch.ofLong? name, text.dropWhile (· ≠ '=') with
  | some (.flag flag), [] => do return (← g.raise flag, none)
  | some (.setting setting), [] => some (g, some setting)
  | some (.setting setting), _ :: value => do
    return (← g.assign setting (String.ofList value), none)
  | _, _ => none

/-- One argument other than the two hyphens that end the options. A hyphen alone is a file. -/
def argument (g : Given) (text : String) : Option (Given × Option Setting) :=
  match text.toList with
  | '-' :: '-' :: rest => g.long rest
  | ['-'] => do return (← g.position text, none)
  | '-' :: rest => g.cluster rest
  | _ => do return (← g.position text, none)

/-- Whether an argument may be the value of the setting before it. -/
def isValue (text : String) : Bool := text = "-" || text.toList.head? ≠ some '-'

/-- The remaining arguments; `waiting` is the setting that the next one is the value of. -/
def arguments (g : Given) (waiting : Option Setting) : List String → Option Given
  | [] => if waiting.isSome then none else some g
  | text :: rest => match waiting with
    | some setting => do
      if isValue text then (← g.assign setting text).arguments none rest else none
    | none => do
      if text = "--" then rest.foldlM position g
      else
        let (g, waiting) ← g.argument text
        g.arguments waiting rest

/-- The value of a setting. -/
def value? (g : Given) (setting : Setting) : Option String := g.settings.lookup setting

end Given

/-- The options of a run. -/
structure Options where
  /-- Whether the standard input is read instead of a file. -/
  stdin : Bool
  /-- Whether JSON is written instead of text. -/
  json : Bool
  /-- The file to write to, if not the standard output. -/
  out : Option String
  /-- The file to read. -/
  file : Option String
  /-- What the simplification is asked to do. -/
  preferences : Preferences
deriving DecidableEq, Repr

/-- The options that were given, and the usual ones in place of the others. -/
def Given.options (g : Given) : Options where
  stdin := .stdin ∈ g.flags
  json := .json ∈ g.flags
  out := g.value? .out
  file := g.file
  preferences :=
    { entry := (g.value? .entry).getD defaultEntry
      validate := .noValidate ∉ g.flags
      keepSilentEntry := .removeSilentEntry ∉ g.flags
      debug := .debug ∈ g.flags }

/-- The options that a list of arguments stands for, unless it is refused. -/
def Options.ofArguments? (arguments : List String) : Option Options :=
  (({} : Given).arguments none arguments).map Given.options

end BehaviouralTypes
