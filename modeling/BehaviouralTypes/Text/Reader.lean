import BehaviouralTypes.Program.Basic
import BehaviouralTypes.Text.Keyword
import BehaviouralTypes.Text.Mistake

/-!
# Reading definitions

Tokens are read one by one. What has been read of an unfinished definition is kept as a `Stage`:
its heading, the choices that are open around the current statement, and the statements before it.
A token either leads to the next stage or is a mistake, and what the mistake is told as depends on
the stage alone.

A definition has no closing token. It ends where the next one begins or where the text ends.
-/

namespace BehaviouralTypes.Text

/-! ### Lists of names -/

/-- The places in a list of names in parentheses. -/
inductive ListPlace where
  /-- Before the opening parenthesis. -/
  | opening
  /-- After it, where the list may also end. -/
  | first
  /-- After a comma, where a name must follow. -/
  | later
  /-- After a name. -/
  | separator
deriving DecidableEq, Repr

/-- What has been read of a list of names. -/
structure NameList where
  /-- The place reached. -/
  place : ListPlace
  /-- The names read, the latest first. -/
  names : List Name
deriving DecidableEq, Repr

namespace NameList

/-- A list of which nothing has been read. -/
def start : NameList := ⟨.opening, []⟩

/-- A list after one more token. -/
inductive Step where
  /-- The list goes on. -/
  | more (list : NameList)
  /-- The list has ended with these names, in order. -/
  | closed (names : List Name)

/-- Reads one token of the list. -/
def advance (list : NameList) (token : Token) : Option Step :=
  match list.place, token with
  | .opening, .mark .opening => some (.more ⟨.first, list.names⟩)
  | .first, .word name => some (.more ⟨.separator, name :: list.names⟩)
  | .first, .mark .closing => some (.closed list.names.reverse)
  | .later, .word name => some (.more ⟨.separator, name :: list.names⟩)
  | .separator, .mark .comma => some (.more ⟨.later, list.names⟩)
  | .separator, .mark .closing => some (.closed list.names.reverse)
  | _, _ => none

/-- What must come next in the list. -/
def expects (list : NameList) : Expectation :=
  match list.place with
  | .opening => .opening
  | .first | .later => .name
  | .separator => .separator

end NameList

/-! ### Statements without choices -/

/-- What has been read of a statement after its keyword. -/
inductive Part where
  /-- Nothing of a statement that names one resource. -/
  | resource (verb : Verb)
  /-- Nothing of a new channel. -/
  | channel
  /-- A new channel up to its name. -/
  | channelName (name : Name)
  /-- A new channel up to the equals sign. -/
  | channelEqual (name : Name)
  /-- A new channel up to its keyword. -/
  | channelKeyword (name : Name)
  /-- A new channel up to its element type. -/
  | channelElement (name element : Name)
  /-- A new channel up to the comma. -/
  | channelComma (name element : Name)
  /-- Nothing of a new lock. -/
  | lock
  /-- A new lock up to its name. -/
  | lockName (name : Name)
  /-- Nothing of an invocation. -/
  | target (mode : Mode)
  /-- An invocation up to somewhere in what it hands over. -/
  | arguments (mode : Mode) (target : Name) (list : NameList)
  /-- Nothing of a selection. -/
  | selection
  /-- All but the semicolon. -/
  | whole (stmt : Stmt)
deriving DecidableEq

namespace Part

/-- Reads one token of a statement, as long as it opens no alternative and does not end the
statement. -/
def advance (token : Token) : Part → Option Part
  | resource verb => match token with
    | .word name => some (whole (.act (.perform verb name)))
    | _ => none
  | channel => match token with
    | .word name => some (channelName name)
    | _ => none
  | channelName name => if token = .mark .equal then some (channelEqual name) else none
  | channelEqual name => if token = .word "newchan" then some (channelKeyword name) else none
  | channelKeyword name => match token with
    | .word element => some (channelElement name element)
    | _ => none
  | channelElement name element =>
    if token = .mark .comma then some (channelComma name element) else none
  | channelComma name element => match token with
    | .number capacity => some (whole (.act (.newChannel name element capacity)))
    | _ => none
  | lock => match token with
    | .word name => some (lockName name)
    | _ => none
  | lockName name =>
    if token = .word LockKind.mutex.keyword then some (whole (.act (.newLock .mutex name)))
    else if token = .word LockKind.rwMutex.keyword then some (whole (.act (.newLock .rwMutex name)))
    else none
  | target mode => match token with
    | .word name => some (arguments mode name .start)
    | _ => none
  | arguments mode name list => match list.advance token with
    | some (.more list) => some (arguments mode name list)
    | some (.closed names) => some (whole (.invoke mode ⟨name, names.map .plain⟩))
    | none => none
  | selection | whole _ => none

/-- What must come next in the statement with that keyword. -/
def expects (keyword : String) : Part → Expectation
  | resource _ | channel | channelKeyword _ | lock | target _ => .name
  | channelName name => .equal name
  | channelEqual _ => .newChannel
  | channelElement _ element => .comma element
  | channelComma _ element => .capacity element
  | lockName name => .lockKind name
  | arguments _ _ list => list.expects
  | selection => .firstCase
  | whole _ => .semicolon keyword

/-- What is being read inside the statement. -/
def activities : Part → List Activity
  | target _ => [.target]
  | arguments _ name _ => [.arguments name]
  | _ => []

end Part

/-! ### Choices -/

/-- An open choice: its alternatives before the one being read. -/
inductive Choice where
  /-- The first of two alternatives is being read. -/
  | yes (kind : BranchKind)
  /-- The second of two alternatives is being read. -/
  | no (kind : BranchKind) (yes : Block)
  /-- An alternative of a selection is being read; those before it, the latest first. -/
  | among (before : List Block)
deriving DecidableEq

namespace Choice

/-- The keywords that end the alternative being read. -/
def closers : Choice → List String
  | yes _ => ["else"]
  | no _ _ => ["endif"]
  | among _ => ["case", "endselect"]

/-- The keyword that the choice began with. -/
def keyword : Choice → String
  | yes kind => kind.keyword
  | no kind _ => kind.keyword
  | among _ => "select"

/-- A choice after the end of an alternative. -/
inductive Step where
  /-- Another alternative begins. -/
  | more (choice : Choice)
  /-- The choice is complete. -/
  | closed (stmt : Stmt)

/-- Ends the alternative being read, which is `block`, if the word is one of its closers. -/
def close? (block : Block) (word : String) : Choice → Option Step
  | yes kind => if word = "else" then some (.more (no kind block)) else none
  | no kind first => if word = "endif" then some (.closed (.branch kind first block)) else none
  | among before =>
    if word = "case" then some (.more (among (block :: before)))
    else if word = "endselect" then some (.closed (.select (block :: before).reverse))
    else none

end Choice

/-- An open choice and where it stands. -/
structure Frame where
  /-- Where the choice starts. -/
  start : Position
  /-- The statements before it in its own sequence, the latest first. -/
  before : List Stmt
  /-- The choice. -/
  choice : Choice
deriving DecidableEq

/-- How a statement goes on after its keyword. -/
inductive Beginning where
  /-- With this to come. -/
  | part (part : Part)
  /-- With the first alternative of a choice. -/
  | choice (choice : Choice)

/-- The statement that a keyword begins. -/
def beginning? (keyword : String) : Option Beginning :=
  match keyword with
  | "tau" => some (.part (.whole .tau))
  | "let" => some (.part .channel)
  | "letsync" => some (.part .lock)
  | "call" => some (.part (.target .call))
  | "spawn" => some (.part (.target .spawn))
  | "if" => some (.choice (.yes .condition))
  | "iffor" => some (.choice (.yes .loop))
  | "select" => some (.part .selection)
  | word => (Verb.ofKeyword? word).map fun verb => .part (.resource verb)

/-! ### Definitions -/

/-- A function definition and the place where it starts. -/
structure Definition where
  /-- The place of its keyword. -/
  start : Position
  /-- The function. -/
  function : Func
deriving DecidableEq

/-- The heading of a definition. -/
structure Heading where
  /-- The place of its keyword. -/
  start : Position
  /-- The name of the function. -/
  name : Name
  /-- The names of its parameters, in order. -/
  params : List Name
deriving DecidableEq

/-- The definition with that heading and these statements, the latest first. -/
def Heading.definition (h : Heading) (before : List Stmt) : Definition :=
  ⟨h.start, ⟨h.name, h.params.map .plain, before.reverse⟩⟩

/-- What has been read of a definition. -/
inductive Stage where
  /-- Nothing. -/
  | outside
  /-- Its keyword. -/
  | begun (start : Position)
  /-- Its keyword, its name and some of its parameters. -/
  | params (start : Position) (name : Name) (list : NameList)
  /-- Its heading without the colon. -/
  | headed (heading : Heading)
  /-- Its heading and some statements: inside these choices, the innermost first, and in the
  innermost sequence after these statements, the latest first. -/
  | sequence (heading : Heading) (frames : List Frame) (before : List Stmt)
  /-- The same and a statement up to some part after its keyword. -/
  | statement (heading : Heading) (frames : List Frame) (before : List Stmt)
      (start : Position) (keyword : String) (part : Part)
deriving DecidableEq

namespace Stage

/-- The definition read, if it can end here. -/
def definition? : Stage → Option Definition
  | sequence heading [] before => some (heading.definition before)
  | _ => none

/-- Reads one token of a definition, as long as it does not begin the next one. -/
def advance (l : Lexeme) : Stage → Option Stage
  | outside => if l.token = .word "def" then some (begun l.position) else none
  | begun start => match l.token with
    | .word name => some (params start name .start)
    | _ => none
  | params start name list => match list.advance l.token with
    | some (.more list) => some (params start name list)
    | some (.closed names) => some (headed ⟨start, name, names⟩)
    | none => none
  | headed h => if l.token = .mark .colon then some (sequence h [] []) else none
  | sequence h frames before => match l.token with
    | .word word => match closed? h before word frames with
      | some stage => some stage
      | none => match beginning? word with
        | some (.part part) => some (statement h frames before l.position word part)
        | some (.choice choice) => some (sequence h (⟨l.position, before, choice⟩ :: frames) [])
        | none => none
    | _ => none
  | statement h frames before start word part => match part, l.token with
    | .whole stmt, .mark .semicolon => some (sequence h frames (stmt :: before))
    | .selection, .word "case" => some (sequence h (⟨start, before, .among []⟩ :: frames) [])
    | _, _ => (part.advance l.token).map (statement h frames before start word)
where
  /-- Ends the innermost alternative, if there is one and the word closes it. -/
  closed? (h : Heading) (before : List Stmt) (word : String) : List Frame → Option Stage
    | [] => none
    | frame :: frames => match frame.choice.close? before.reverse word with
      | some (.more choice) => some (sequence h ({ frame with choice } :: frames) [])
      | some (.closed stmt) =>
        some (statement h frames frame.before frame.start frame.choice.keyword (.whole stmt))
      | none => none

/-- What must come next. -/
def expects : Stage → Expectation
  | outside => .definition
  | begun _ => .name
  | params _ _ list => list.expects
  | headed h => .colon h.name
  | sequence _ [] _ => .statement []
  | sequence _ (frame :: _) _ => .statement frame.choice.closers
  | statement _ _ _ _ word part => part.expects word

/-- What is being read, the outermost construct first. -/
def activities : Stage → List Activity
  | outside | headed _ => []
  | begun _ => [.functionName]
  | params _ name _ => [.parameters name]
  | sequence h frames _ => .body h.name :: frames.reverse.map (.statement ·.start)
  | statement h frames _ start _ part =>
    .body h.name :: frames.reverse.map (.statement ·.start) ++ .statement start :: part.activities

/-- The mistake of a token that cannot follow. -/
def mistake (stage : Stage) (l : Lexeme) : Mistake where
  activities := match stage with
    | sequence _ _ _ => stage.activities ++ [.statement l.position]
    | _ => stage.activities
  expected := stage.expects
  found := some l

/-- The mistake of a text that ends inside a definition. -/
def mistakeAtEnd (stage : Stage) : Mistake := ⟨stage.activities, stage.expects, none⟩

end Stage

/-! ### Sequences of definitions -/

/-- What has been read of a text. -/
structure Reader where
  /-- The complete definitions, the latest first. -/
  complete : List Definition
  /-- What has been read of the definition after them. -/
  stage : Stage
deriving DecidableEq

namespace Reader

/-- Before the first token. -/
def start : Reader := ⟨[], .outside⟩

/-- Begins the next definition, if the token does so and the current definition can end. -/
def begin? (r : Reader) (l : Lexeme) : Option Reader :=
  if l.token = .word "def" then
    r.stage.definition?.map fun d => ⟨d :: r.complete, .begun l.position⟩
  else none

/-- Reads one token. -/
def advance (r : Reader) (l : Lexeme) : Option Reader :=
  match r.begin? l with
  | some next => some next
  | none => (r.stage.advance l).map fun stage => ⟨r.complete, stage⟩

/-- The definitions of a text in order, and the mistake in it. -/
structure Result where
  /-- The definitions that are complete before the mistake. -/
  definitions : List Definition
  /-- The mistake, if there is one. -/
  mistake? : Option Mistake
deriving DecidableEq

/-- The result at the end of the text. -/
def finish (r : Reader) : Result :=
  match r.stage, r.stage.definition? with
  | .outside, _ => ⟨r.complete.reverse, none⟩
  | _, some d => ⟨(d :: r.complete).reverse, none⟩
  | stage, none => ⟨r.complete.reverse, some stage.mistakeAtEnd⟩

/-- Reads the rest of a text. -/
def run (r : Reader) : List Lexeme → Result
  | [] => r.finish
  | l :: rest => match r.advance l with
    | some next => next.run rest
    | none => ⟨r.complete.reverse, some (r.stage.mistake l)⟩

end Reader

/-- Reads a text without comments from its first token on. -/
def read (lexemes : List Lexeme) : Reader.Result := Reader.start.run lexemes

end BehaviouralTypes.Text
