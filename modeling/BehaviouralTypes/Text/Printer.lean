import BehaviouralTypes.Program.Basic
import BehaviouralTypes.Text.Keyword

/-!
# Programs as text

A function is a heading and its statements, one on a line. The statements nested in a choice
stand on the line of the choice, each after one space, so an empty alternative leaves no trace
between the keywords around it. A definition shows the inner names of its parameters and an
invocation the outer names.
-/

namespace BehaviouralTypes

/-- The target of the invocation and the outer names of what it hands over. -/
def Invocation.text (i : Invocation) : String :=
  i.target ++ "(" ++ ", ".intercalate (i.bindings.map (·.caller)) ++ ")"

/-- The action without the mark that ends a statement. -/
def Action.text : Action → String
  | newChannel name element capacity =>
    "let " ++ name ++ " = newchan " ++ element ++ ", " ++ toString capacity.toNat
  | newLock kind name => "letsync " ++ name ++ " " ++ kind.keyword
  | perform verb name => verb.keyword ++ " " ++ name

mutual

/-- The statement on one line. -/
def Stmt.text : Stmt → String
  | .tau => "tau;"
  | .act action => action.text ++ ";"
  | .invoke mode invocation => mode.keyword ++ " " ++ invocation.text ++ ";"
  | .branch kind yes no =>
    kind.keyword ++ Block.nestedText yes ++ " else" ++ Block.nestedText no ++ " endif;"
  | .select cases => "select" ++ Choices.text cases ++ " endselect;"

/-- The statements on one line, each after a space. -/
def Block.nestedText : Block → String
  | [] => ""
  | s :: block => " " ++ s.text ++ Block.nestedText block

/-- The alternatives on one line, each after its keyword. -/
def Choices.text : Choices → String
  | [] => ""
  | block :: cases => " case" ++ Block.nestedText block ++ Choices.text cases

end

/-- The statements on one line, with a space between neighbours. -/
def Block.text (block : Block) : String := " ".intercalate (block.map Stmt.text)

/-- The function with one statement on a line. -/
def Func.text (f : Func) : String :=
  "def " ++ f.name ++ "(" ++ ", ".intercalate (f.params.map (·.callee)) ++ "):" ++
    String.join (f.body.map fun s => "\n    " ++ s.text)

/-- The functions in order, without a line break at the end. -/
def Program.text (p : Program) : String := "\n".intercalate (p.functions.map Func.text)

/-- The text as it is stored in a file: a last line break unless there is nothing to end. -/
def Program.fileText (p : Program) : String := if p.text.isEmpty then "" else p.text ++ "\n"

end BehaviouralTypes
