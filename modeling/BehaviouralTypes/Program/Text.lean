import BehaviouralTypes.Text.Printer
import BehaviouralTypes.Text.Reader

/-!
# Programs from text

The definitions of a text are added to a program in order. Several texts can be added one after
the other. A text with a mistake adds the definitions that are complete before the mistake, and
a second definition of a name is refused and ends the text as a mistake does.
-/

namespace BehaviouralTypes

open Text (Position Definition Lexeme Overflow Mistake)

/-- Why a text is not a program. -/
inductive TextError where
  /-- A number is too large. -/
  | overflow (error : Overflow)
  /-- The definition that starts there defines a name again. -/
  | redefinition (start : Position) (error : Redefinition)
  /-- The text is not a sequence of definitions. -/
  | mistake (error : Mistake)
deriving DecidableEq, Repr

/-- The wording of the error. -/
def TextError.explanation : TextError → Explanation
  | overflow error => error.explanation.during "Failed to lex text"
  | redefinition start error =>
    ⟨[s!"Failed to add function {error.name} {start.text}"], .message error.message⟩
  | mistake error => error.explanation

namespace Program

/-- Adds definitions in order, up to the first that is refused. -/
def define (p : Program) : List Definition → Program × Option TextError
  | [] => (p, none)
  | d :: rest => match p.add d.function with
    | .ok q => q.define rest
    | .error e => (p, some (.redefinition d.start e))

/-- Adds the definitions that tokens without comments form, up to the first that is refused or
contains a mistake. -/
def extendBy (p : Program) (lexemes : List Lexeme) : Program × Option TextError :=
  let result := Text.read lexemes
  match p.define result.definitions with
  | (q, some e) => (q, some e)
  | (q, none) => (q, result.mistake?.map .mistake)

/-- Adds the definitions of a text, up to the first that is refused or contains a mistake. -/
def extend (p : Program) (text : String) : Program × Option TextError :=
  match Text.lex text with
  | .error e => (p, some (.overflow e))
  | .ok lexemes => p.extendBy (Text.withoutComments lexemes)

/-- The program that a text describes. -/
def ofText (text : String) : Except TextError Program :=
  match empty.extend text with
  | (p, none) => .ok p
  | (_, some e) => .error e

end Program

end BehaviouralTypes
