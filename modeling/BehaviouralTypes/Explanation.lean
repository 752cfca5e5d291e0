/-!
# Explanations

What is told about a failure: its cause, and what was being attempted when it struck, from the
whole task down to the detail.
-/

namespace BehaviouralTypes

/-- A refusal of the operating system. -/
structure SystemError where
  /-- The number of the refusal. -/
  code : Nat
  /-- The name of its kind. -/
  kind : String
  /-- The wording of the system. -/
  message : String
deriving DecidableEq, Repr

/-- The root of a failure. -/
inductive Cause where
  /-- The failure is told in one sentence. -/
  | message (text : String)
  /-- A number has no 64-bit representation. -/
  | numberTooLarge
  /-- A text is not encoded in UTF-8. -/
  | notUnicode
  /-- The operating system refused. -/
  | system (error : SystemError)
deriving DecidableEq, Repr

/-- The cause in one line. -/
def Cause.line : Cause → String
  | message text => text
  | numberTooLarge => "number too large to fit in target type"
  | notUnicode => "stream did not contain valid UTF-8"
  | system error => s!"{error.message} (os error {error.code})"

/-- A failure with all that is told about it. -/
structure Explanation where
  /-- What was being attempted, the whole task first. -/
  attempts : List String
  /-- The root of the failure. -/
  cause : Cause
deriving DecidableEq, Repr

namespace Explanation

/-- The failure of a task that attempted this among other things. -/
def during (attempt : String) (e : Explanation) : Explanation :=
  { e with attempts := attempt :: e.attempts }

/-- The explanation in one line. -/
def line (e : Explanation) : String := ": ".intercalate (e.attempts ++ [e.cause.line])

end Explanation

end BehaviouralTypes
