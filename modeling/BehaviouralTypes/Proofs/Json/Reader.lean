import BehaviouralTypes.Proofs.Json.Token

/-!
# Reading values of JSON

Tokens are read one by one, and what has been read is kept as the arrays and objects that are open
and what has to come next in the innermost of them. The tokens of a value lead from a place where a
value has to come to the place behind the value (`Json.Value.run_tokens`), so a value is read back
from its layout (`Json.Value.ofText?_layout`).
-/

namespace BehaviouralTypes.Json

/-! ### Reading tokens -/

/-- An array or an object that is open around the current value. -/
inductive Frame where
  /-- An array with the items before the value, the latest first. -/
  | array (items : List Value)
  /-- An object with the members before the value, the latest first, and the key of the value. -/
  | object (members : List (String × Value)) (key : String)

/-- What has been read, with what is open around it from the inside out. -/
inductive Stage where
  /-- A value has to come. -/
  | value (frames : List Frame)
  /-- An array has just been opened. -/
  | opened (frames : List Frame)
  /-- An object has just been opened. -/
  | started (frames : List Frame)
  /-- A key has to come, behind these members of an object. -/
  | key (members : List (String × Value)) (frames : List Frame)
  /-- A colon has to come, behind the key of a member. -/
  | colon (members : List (String × Value)) (key : String) (frames : List Frame)
  /-- A value is complete. -/
  | whole (value : Value) (frames : List Frame)

/-- Reads the first token of a value. -/
def Token.begin (frames : List Frame) : Token → Option Stage
  | .str text => some (.whole (.str text) frames)
  | .num value => some (.whole (.num value) frames)
  | .sign .openArray => some (.opened frames)
  | .sign .openObject => some (.started frames)
  | .sign .closeArray | .sign .closeObject | .sign .comma | .sign .colon => none

/-- Reads the sign behind a value that stands in the frame. -/
def Frame.follow (value : Value) (frames : List Frame) : Frame → Sign → Option Stage
  | array items, .comma => some (.value (array (value :: items) :: frames))
  | array items, .closeArray => some (.whole (.arr (value :: items).reverse) frames)
  | object members key, .comma => some (.key ((key, value) :: members) frames)
  | object members key, .closeObject =>
    some (.whole (.obj ((key, value) :: members).reverse) frames)
  | _, _ => none

namespace Stage

/-- Reads one token. -/
def advance (stage : Stage) (token : Token) : Option Stage :=
  match stage, token with
  | value frames, token => token.begin frames
  | opened frames, .sign .closeArray => some (whole (.arr []) frames)
  | opened frames, token => token.begin (.array [] :: frames)
  | started frames, .sign .closeObject => some (whole (.obj []) frames)
  | started frames, .str text => some (colon [] text frames)
  | key members frames, .str text => some (colon members text frames)
  | colon members own frames, .sign .colon => some (value (.object members own :: frames))
  | whole own (frame :: frames), .sign sign => frame.follow own frames sign
  | _, _ => none

/-- Reads tokens in order. -/
def run (stage : Stage) (tokens : List Token) : Option Stage := tokens.foldlM advance stage

variable {stage next : Stage} {token : Token} {tokens more : List Token}

/-- Without tokens the stage stays. -/
theorem run_nil : stage.run [] = some stage := rfl

/-- A token that leads on is read before the others. -/
theorem run_cons_of_advance (advances : stage.advance token = some next) :
    stage.run (token :: tokens) = next.run tokens := by
  rw [run, List.foldlM_cons, advances]
  rfl

/-- Behind the opening of an array a value has to come, unless the array ends there. -/
theorem advance_opened {frames : List Frame} (other : token ≠ .sign .closeArray) :
    (opened frames).advance token = (value (.array [] :: frames)).advance token := by
  have later : (value (.array [] :: frames)).advance token = token.begin (.array [] :: frames) :=
    rfl
  rw [later, advance]
  exact other

/-- Tokens are read in parts. -/
theorem run_append_of_run (runs : stage.run tokens = some next) :
    stage.run (tokens ++ more) = next.run more := by
  rw [run] at runs
  rw [run, List.foldlM_append, runs]
  rfl

end Stage

/-- The value that a text describes. -/
def Value.ofText? (text : String) : Option Value := do
  let tokens ← scan text.toList
  match ← (Stage.value []).run tokens with
  | .whole value [] => some value
  | _ => none

/-! ### Reading the tokens of a value -/

/-- Whether the tokens of the value are read as the value, whatever is open around it. -/
def Value.IsRead (v : Value) : Prop :=
  ∀ frames, (Stage.value frames).run v.tokens = some (.whole v frames)

/-- No value begins with the end of an array. -/
theorem Value.exists_tokens_cons (v : Value) :
    ∃ token more, v.tokens = token :: more ∧ token ≠ .sign .closeArray := by
  cases v with
  | str text => exact ⟨.str text, [], by rw [tokens], Token.noConfusion⟩
  | num value => exact ⟨.num value, [], by rw [tokens], Token.noConfusion⟩
  | arr items => cases items <;> exact ⟨.sign .openArray, _, by rw [tokens], by decide⟩
  | obj members => cases members <;> exact ⟨.sign .openObject, _, by rw [tokens], by decide⟩

/-- The first item of an array is read as a later item is. -/
theorem Value.IsRead.first {v : Value} (read : v.IsRead) (frames : List Frame) :
    (Stage.opened frames).run v.tokens = some (.whole v (.array [] :: frames)) := by
  obtain ⟨token, more, begins, other⟩ := v.exists_tokens_cons
  have later := read (.array [] :: frames)
  rw [begins, Stage.run, List.foldlM_cons] at later ⊢
  rw [Stage.advance_opened other]
  exact later

/-- Further items of an array are read up to its end. -/
theorem run_items {items : List Value} (all : ∀ item ∈ items, item.IsRead) (item : Value)
    (before : List Value) (frames : List Frame) :
    (Stage.whole item (.array before :: frames)).run
        (itemTokens items ++ [.sign .closeArray]) =
      some (.whole (.arr (before.reverse ++ item :: items)) frames) := by
  induction items generalizing item before with
  | nil =>
    rw [itemTokens, List.nil_append, Stage.run_cons_of_advance rfl, Stage.run_nil,
      List.reverse_cons]
  | cons next items ih =>
    obtain ⟨first, others⟩ := List.forall_mem_cons.1 all
    rw [itemTokens, List.cons_append, Stage.run_cons_of_advance rfl, List.append_assoc,
      Stage.run_append_of_run (first _), ih others]
    simp

/-- Further members of an object are read up to its end. -/
theorem run_members {members : List (String × Value)}
    (all : ∀ member ∈ members, member.2.IsRead) (key : String) (value : Value)
    (before : List (String × Value)) (frames : List Frame) :
    (Stage.whole value (.object before key :: frames)).run
        (memberTokens members ++ [.sign .closeObject]) =
      some (.whole (.obj (before.reverse ++ (key, value) :: members)) frames) := by
  induction members generalizing key value before with
  | nil =>
    rw [memberTokens, List.nil_append, Stage.run_cons_of_advance rfl, Stage.run_nil,
      List.reverse_cons]
  | cons next members ih =>
    obtain ⟨first, others⟩ := List.forall_mem_cons.1 all
    rw [memberTokens, List.cons_append, Stage.run_cons_of_advance rfl, List.cons_append,
      Stage.run_cons_of_advance rfl, List.cons_append, Stage.run_cons_of_advance rfl,
      List.append_assoc, Stage.run_append_of_run (first _), ih others]
    simp

/-- The tokens of a value are read as the value. -/
theorem Value.run_tokens (v : Value) : v.IsRead := by
  induction v using Value.induction with
  | str text =>
    intro frames
    rw [tokens]
    rfl
  | num value =>
    intro frames
    rw [tokens]
    rfl
  | arr items all =>
    intro frames
    cases items with
    | nil =>
      rw [tokens]
      rfl
    | cons item rest =>
      obtain ⟨first, others⟩ := List.forall_mem_cons.1 all
      -- Only the first item is read where the array could also have ended.
      rw [tokens, Stage.run_cons_of_advance rfl, Stage.run_append_of_run (first.first frames)]
      exact run_items others item [] frames
  | obj members all =>
    intro frames
    cases members with
    | nil =>
      rw [tokens]
      rfl
    | cons member rest =>
      obtain ⟨first, others⟩ := List.forall_mem_cons.1 all
      rw [tokens, Stage.run_cons_of_advance rfl, Stage.run_cons_of_advance rfl,
        Stage.run_cons_of_advance rfl, Stage.run_append_of_run (first _)]
      exact run_members others member.1 member.2 [] frames

/-- A value is read back from its layout, on lines that start at any depth. -/
theorem Value.ofText?_layout (v : Value) (depth : Nat) : ofText? (v.layout depth) = some v := by
  have tokens := v.scan_layout depth
  have read := v.run_tokens []
  simp [ofText?, tokens, read]

end BehaviouralTypes.Json
