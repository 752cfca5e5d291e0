import BehaviouralTypes.Program.Basic

/-!
# Valid programs

A valid program has no empty sequence of statements and invokes only what it defines. The first
function that breaks either rule is reported, and empty sequences are reported before undefined
targets.
-/

namespace BehaviouralTypes

/-- How a function breaks the rules. -/
inductive Violation where
  /-- The function has this many empty sequences of statements, at all depths together. -/
  | emptySequences (function : Name) (count : Nat)
  /-- The function invokes a name without a definition. -/
  | undefinedTarget (function target : Name)
deriving DecidableEq, Repr

/-- The wording of the report. -/
def Violation.message : Violation → String
  | emptySequences function count => s!"Function {function} has {count} empty statement sequences"
  | undefinedTarget function target =>
    s!"Function {function} references undefined function {target}"

/-- The rule that the function breaks when these names are defined. -/
def Func.violation? (defined : List Name) (f : Func) : Option Violation :=
  match f.body.sequences.countP (·.isEmpty) with
  | 0 => (f.body.targets.find? (· ∉ defined)).map (.undefinedTarget f.name)
  | count + 1 => some (.emptySequences f.name (count + 1))

/-- The rule that the first offending function of the program breaks. -/
def Program.violation? (p : Program) : Option Violation :=
  p.functions.findSome? (·.violation? p.names)

end BehaviouralTypes
