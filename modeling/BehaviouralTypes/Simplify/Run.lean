import BehaviouralTypes.Simplify.Pass

/-!
# The whole simplification

The passes run in a fixed order. Definitions are removed first and bodies are tidied afterwards,
since tidying goes by the names that are still defined; the check comes last but for the log.
-/

namespace BehaviouralTypes

/-- The outcome of a sequence of passes. -/
structure Report where
  /-- The program after the last pass that ran. -/
  program : Program
  /-- What the passes logged, in order. -/
  log : List Event
  /-- The objection that ended the sequence. -/
  objection? : Option Violation
deriving DecidableEq

/-- The outcome as a program or the objection to it. -/
def Report.result (r : Report) : Except Violation Program :=
  match r.objection? with
  | some violation => .error violation
  | none => .ok r.program

/-- Runs passes in order, up to the first that objects. -/
def Pass.runAll (entry : Option Name) (p : Program) : List Pass → Report
  | [] => ⟨p, [], none⟩
  | pass :: rest =>
    let log := .passBegun pass.name :: pass.events entry p
    match pass.objection? p with
    | some violation => ⟨pass.apply entry p, log, some violation⟩
    | none =>
      let after := Pass.runAll entry (pass.apply entry p) rest
      { after with log := log ++ after.log }

namespace Program

/-- The passes of a simplification, in order. -/
def schedule (prefs : Preferences) (p : Program) : List Pass :=
  [.removeSilent (prefs.spared p), .removeUnreached, .tidy, .validate, .present].filter
    (·.isWanted prefs)

/-- Simplifies the program as the user wants it. -/
def simplify (prefs : Preferences) (p : Program) : Report :=
  let report := Pass.runAll (prefs.entryIn p) p (p.schedule prefs)
  match report.objection? with
  | some _ => report
  | none => { report with log := report.log ++ [.simplified p.size report.program.size] }

end Program

end BehaviouralTypes
