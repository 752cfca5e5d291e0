import BehaviouralTypes.Block.Basic
import BehaviouralTypes.Explanation
import BehaviouralTypes.Text.Lexer

/-!
# Mistakes in a text

A mistake is told by what was expected, by the token found instead, if there was one, and by the
constructs that were being read, the outermost first.
-/

namespace BehaviouralTypes.Text

/-- A construct that was being read. -/
inductive Activity where
  /-- The name of a definition. -/
  | functionName
  /-- The parameters of the named function. -/
  | parameters (function : Name)
  /-- The body of the named function. -/
  | body (function : Name)
  /-- The statement that starts there. -/
  | statement (start : Position)
  /-- The name of an invoked function. -/
  | target
  /-- What an invocation hands over to the named function. -/
  | arguments (function : Name)
deriving DecidableEq, Repr

/-- The wording of the activity when it fails. -/
def Activity.text : Activity → String
  | functionName => "Failed to parse function name"
  | parameters function => s!"Failed to parse parameters of function {function}"
  | body function => s!"Failed to parse body of function {function}"
  | statement start => s!"Failed to parse statement {start.text}"
  | target => "Failed to parse called function"
  | arguments function => s!"Failed to parse arguments to {function}"

/-- What had to come next. -/
inductive Expectation where
  /-- The start of a definition. -/
  | definition
  /-- A name. -/
  | name
  /-- The start of a list of names. -/
  | opening
  /-- The continuation or the end of a list of names. -/
  | separator
  /-- The colon after the parameters of the named function. -/
  | colon (function : Name)
  /-- The equals sign after the name of a new channel. -/
  | equal (name : Name)
  /-- The keyword of a new channel. -/
  | newChannel
  /-- The comma after the element type of a new channel. -/
  | comma (element : Name)
  /-- The capacity of a new channel with that element type. -/
  | capacity (element : Name)
  /-- The kind of the named lock. -/
  | lockKind (name : Name)
  /-- The first alternative of a selection. -/
  | firstCase
  /-- The mark that ends the statement with that keyword. -/
  | semicolon (keyword : String)
  /-- A statement, or one of the keywords that end the sequence around it. -/
  | statement (closers : List String)
deriving DecidableEq, Repr

/-- What is told when another token is found. -/
def Expectation.against (e : Expectation) (l : Lexeme) : String :=
  match e, l.token with
  | firstCase, .word "endselect" => s!"Select has no cases {l.position.text}"
  | statement _, .word keyword => s!"Unknown statement '{keyword}' {l.position.text}"
  | _, _ => s!"Expected {wanted} but got {l.token.shown} {l.position.text}"
where
  /-- The words for what was expected. -/
  wanted : String :=
    match e with
    | definition => "'def'"
    | name => "a name"
    | opening => "'('"
    | separator => "',' or ')'"
    | colon _ => "Colon"
    | equal _ => "Equal"
    | newChannel => "'newchan'"
    | comma _ => "Comma"
    | capacity _ => "a channel size"
    | lockKind _ => "'mutex' or 'rwmutex'"
    | firstCase => "'case'"
    | semicolon _ => "Semicolon"
    | statement _ => "a statement"

/-- What is told when the text ends. -/
def Expectation.atEnd : Expectation → String
  | definition => "Expected a function definition"
  | name => "Expected a name but reached the end of input"
  | opening => "Expected '(' but reached the end of input"
  | separator => "Unterminated list of names"
  | colon function => s!"Expected ':' after the parameters of function {function}"
  | equal channel => s!"Expected '=' after let {channel}"
  | newChannel => "Expected 'newchan' but reached the end of input"
  | comma element => s!"Expected ',' after channel {element}"
  | capacity element => s!"Expected the size of channel {element}"
  | lockKind lock => s!"Expected the kind of lock {lock}"
  | firstCase => "Expected 'case' but reached the end of input"
  | semicolon keyword => s!"Expected ';' after statement '{keyword}'"
  | statement closers =>
    let quoted := " or ".intercalate (closers.map fun word => s!"'{word}'")
    s!"Expected {quoted} but reached the end of input"

/-- A text that is not a sequence of definitions. -/
structure Mistake where
  /-- What was being read, the outermost construct first. -/
  activities : List Activity
  /-- What had to come next. -/
  expected : Expectation
  /-- The token found instead, or nothing at the end of the text. -/
  found : Option Lexeme
deriving DecidableEq, Repr

/-- The wording of the mistake. -/
def Mistake.explanation (m : Mistake) : Explanation where
  attempts := m.activities.map Activity.text
  cause := .message <| match m.found with
    | some l => m.expected.against l
    | none => m.expected.atEnd

/-- The wording of a number that is too large. -/
def Overflow.explanation (e : Overflow) : Explanation where
  attempts := [s!"Number {e.digits} is too large {e.position.text}"]
  cause := .numberTooLarge

end BehaviouralTypes.Text
