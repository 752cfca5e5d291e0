import BehaviouralTypes.Explanation
import BehaviouralTypes.Text.Quoted

/-!
# Failures on the console

The explanation of a failure as nested records: what was being attempted and, one level deeper,
what that came to. A failure of which nothing but one sentence is told is that sentence.
-/

namespace BehaviouralTypes

open Text (Quoting)

/-- A line break and four spaces for each level. -/
def reportBreak (depth : Nat) : String := "\n" ++ String.ofList (List.replicate (4 * depth) ' ')

/-- A record with that title and these members, whose lines start at that depth. -/
def reportRecord (depth : Nat) (title : String) (members : List (String × String)) : String :=
  title ++ " \x7b" ++
    String.join (members.map fun (key, value) =>
      reportBreak (depth + 1) ++ key ++ ": " ++ value ++ ",") ++
    reportBreak depth ++ "\x7d"

/-- The cause in a report, whose lines start at that depth. -/
def Cause.report (depth : Nat) : Cause → String
  | message text => Quoting.verbatim.quote text
  | numberTooLarge => reportRecord depth "ParseIntError" [("kind", "PosOverflow")]
  | notUnicode => reportRecord depth "Error"
    [("kind", "InvalidData"), ("message", Quoting.verbatim.quote notUnicode.line)]
  | system e => reportRecord depth "Os"
    [("code", toString e.code), ("kind", e.kind), ("message", Quoting.verbatim.quote e.message)]

/-- The attempts and the cause in a report, whose lines start at that depth. -/
def reportAttempts (depth : Nat) (cause : Cause) : List String → String
  | [] => cause.report depth
  | attempt :: rest => reportRecord depth "Error"
    [("context", Quoting.attempt.quote attempt), ("source", reportAttempts (depth + 1) cause rest)]

/-- The explanation on as many lines as it has details. -/
def Explanation.report (e : Explanation) : String :=
  match e.attempts, e.cause with
  | [], .message text => text
  | attempts, cause => reportAttempts 0 cause attempts

end BehaviouralTypes
