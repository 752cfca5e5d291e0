import BehaviouralTypes.Proofs.Json.Escape
import BehaviouralTypes.Proofs.Layout

/-!
# The tokens of JSON

A text of JSON is cut into tokens, which goes by the rules of JSON and not by the lines on which a
value is laid out: white space between tokens is skipped, and the escapes of a string are read
back. The layout of a value on lines is cut into the tokens of the value
(`Json.Value.scan_layout`).
-/

namespace BehaviouralTypes.Json

open Text (decimal)

/-! ### Tokens -/

/-- The characters that are tokens by themselves. -/
inductive Sign where
  /-- The opening bracket. -/
  | openArray
  /-- The closing bracket. -/
  | closeArray
  /-- The opening brace. -/
  | openObject
  /-- The closing brace. -/
  | closeObject
  /-- The comma. -/
  | comma
  /-- The colon. -/
  | colon
deriving DecidableEq, Repr

/-- The character of the sign. -/
def Sign.char : Sign → Char
  | openArray => '['
  | closeArray => ']'
  | openObject => '\x7b'
  | closeObject => '\x7d'
  | comma => ','
  | colon => ':'

/-- Every sign. -/
def Sign.all : List Sign := [openArray, closeArray, openObject, closeObject, comma, colon]

/-- The sign with that character. -/
def Sign.ofChar? (c : Char) : Option Sign := all.find? (·.char = c)

/-- A token of JSON. -/
inductive Token where
  /-- A sign. -/
  | sign (sign : Sign)
  /-- A string, its escapes read back. -/
  | str (text : String)
  /-- A number. -/
  | num (value : Nat)
deriving DecidableEq, Repr

mutual

/-- The tokens of a value, in the order in which they are written. -/
def Value.tokens : Value → List Token
  | .str text => [.str text]
  | .num value => [.num value]
  | .arr [] => [.sign .openArray, .sign .closeArray]
  | .arr (item :: rest) =>
    .sign .openArray :: (item.tokens ++ (itemTokens rest ++ [.sign .closeArray]))
  | .obj [] => [.sign .openObject, .sign .closeObject]
  | .obj ((key, value) :: rest) =>
    .sign .openObject :: .str key :: .sign .colon ::
      (value.tokens ++ (memberTokens rest ++ [.sign .closeObject]))

/-- The tokens of further items of an array, each after a comma. -/
def itemTokens : List Value → List Token
  | [] => []
  | item :: rest => .sign .comma :: (item.tokens ++ itemTokens rest)

/-- The tokens of further members of an object, each after a comma. -/
def memberTokens : List (String × Value) → List Token
  | [] => []
  | (key, value) :: rest =>
    .sign .comma :: .str key :: .sign .colon :: (value.tokens ++ memberTokens rest)

end

/-! ### Cutting a text -/

/-- Whether the character is white space between tokens. -/
def isBlank (c : Char) : Bool := c = ' ' || c = '\n' || c = '\t' || c = '\r'

/-- The tokens of a text. -/
def scan (text : List Char) : Option (List Token) :=
  match text with
  | [] => some []
  | c :: rest =>
    if isBlank c then scan rest
    else if c.isDigit then
      let digits := c :: rest.takeWhile Char.isDigit
      (scan (rest.dropWhile Char.isDigit)).map (.num (decimal digits) :: ·)
    else if c = '"' then
      match _read : content? rest with
      | some (chars, after) => (scan after).map (.str (String.ofList chars) :: ·)
      | none => none
    else
      match Sign.ofChar? c with
      | some sign => (scan rest).map (.sign sign :: ·)
      | none => none
termination_by text.length
decreasing_by
  · exact Nat.lt_succ_self _
  · have shorter := (List.dropWhile_sublist Char.isDigit (l := rest)).length_le
    exact Nat.lt_succ_of_le shorter
  · have shorter := length_lt_of_content? _read
    exact Nat.lt_succ_of_lt shorter
  · exact Nat.lt_succ_self _

/-- A digit is no blank. -/
theorem isBlank_of_isDigit {c : Char} (digit : c.isDigit = true) : isBlank c = false := by
  refine Bool.eq_false_iff.2 fun blank => ?_
  simp only [isBlank, Bool.or_eq_true, decide_eq_true_eq] at blank
  rcases blank with ((rfl | rfl) | rfl) | rfl <;> cases digit

/-- Whether the text is cut into these tokens. -/
def Scans (text : String) (tokens : List Token) : Prop := scan text.toList = some tokens

/-- Whether a number can end before the text. -/
def EndsNumber (text : String) : Prop := ∀ c ∈ text.toList.head?, c.isDigit = false

variable {text : String} {tokens : List Token}

/-- A number ends before anything but a digit. -/
theorem endsNumber_of_cons (c : Char) (other : c.isDigit = false) (rest : String) :
    EndsNumber (String.singleton c ++ rest) := by
  intro d first
  rw [String.toList_append, String.toList_singleton] at first
  cases first
  exact other

/-- A number ends before a line break. -/
theorem endsNumber_lineBreak (depth : Nat) (rest : String) :
    EndsNumber (lineBreak depth ++ rest) := by
  rw [lineBreak, String.append_assoc]
  exact endsNumber_of_cons '\n' rfl _

namespace Scans

/-- An empty text has no tokens. -/
theorem nil : Scans "" [] := by
  rw [Scans, String.toList_empty, scan]

/-- A sign is a token of its own. -/
theorem sign (sign : Sign) (scans : Scans text tokens) :
    Scans (String.singleton sign.char ++ text) (.sign sign :: tokens) := by
  have dark : isBlank sign.char = false := by cases sign <;> rfl
  have other : sign.char.isDigit = false := by cases sign <;> rfl
  have unquoted : sign.char ≠ '"' := by cases sign <;> decide
  have found : Sign.ofChar? sign.char = some sign := by cases sign <;> rfl
  rw [Scans, String.toList_append, String.toList_singleton, List.singleton_append, scan]
  rw [Scans] at scans
  simp only [dark, other, unquoted, found, scans, Bool.false_eq_true, if_false, Option.map_some]

/-- A blank stands for nothing. -/
theorem blank (c : Char) (white : isBlank c = true) (scans : Scans text tokens) :
    Scans (String.singleton c ++ text) tokens := by
  rw [Scans, String.toList_append, String.toList_singleton, List.singleton_append, scan,
    if_pos white]
  exact scans

/-- Blanks stand for nothing. -/
theorem blanks (count : Nat) (scans : Scans text tokens) :
    Scans (String.ofList (List.replicate count ' ') ++ text) tokens := by
  induction count with
  | zero => exact scans
  | succ count ih =>
    have split : String.ofList (List.replicate (count + 1) ' ') =
        String.singleton ' ' ++ String.ofList (List.replicate count ' ') := by
      rw [List.replicate_succ, ← List.singleton_append, String.ofList_append]
      rfl
    rw [split, String.append_assoc]
    exact ih.blank ' ' rfl

/-- A line break stands for nothing. -/
theorem lineBreak (depth : Nat) (scans : Scans text tokens) :
    Scans (lineBreak depth ++ text) tokens := by
  rw [Json.lineBreak, String.append_assoc]
  exact (scans.blanks _).blank '\n' rfl

/-- A quoted string is one token. -/
theorem str (own : String) (scans : Scans text tokens) :
    Scans (quoted own ++ text) (.str own :: tokens) := by
  have shape : (quoted own ++ text).toList =
      '"' :: (own.toList.flatMap escaped ++ '"' :: text.toList) := by
    simp [quoted]
  have read := content?_escaped own.toList text.toList
  rw [Scans, shape, scan, if_neg (by decide), if_neg (by decide), if_pos rfl]
  split
  · next chars after found =>
    rw [read] at found
    cases found
    rw [scans, String.ofList_toList]
    rfl
  · next failed =>
    rw [read] at failed
    cases failed

/-- A number is one token if it ends behind its digits. -/
theorem num (value : Nat) (ends : EndsNumber text) (scans : Scans text tokens) :
    Scans (toString value ++ text) (.num value :: tokens) := by
  have digits : ∀ c ∈ Nat.toDigits 10 value, c.isDigit = true := fun c inside =>
    Nat.isDigit_of_mem_toDigits (by decide) (by decide) inside
  have same : decimal (Nat.toDigits 10 value) = value :=
    Nat.ofDigitChars_toDigits (by decide) (by decide)
  have shape : (toString value ++ text).toList = Nat.toDigits 10 value ++ text.toList := by
    rw [String.toList_append]
    exact congrArg (· ++ _) String.toList_ofList
  have nonempty : Nat.toDigits 10 value ≠ [] := Nat.toDigits_ne_nil
  obtain ⟨d, others, begins⟩ := List.exists_cons_of_ne_nil nonempty
  rw [begins] at digits same shape
  obtain ⟨first, later⟩ := List.forall_mem_cons.1 digits
  obtain ⟨own, after⟩ := Text.takeWhile_dropWhile_append later ends
  rw [Scans] at scans
  rw [Scans, shape, List.cons_append, scan]
  simp [isBlank_of_isDigit first, first, own, after, same, scans]

end Scans

/-! ### Laid out values -/

/-- Induction on values. The items of an array and the values of an object are smaller than it. -/
@[elab_as_elim]
theorem Value.induction {motive : Value → Prop} (str : ∀ text, motive (.str text))
    (num : ∀ value, motive (.num value))
    (arr : ∀ items, (∀ item ∈ items, motive item) → motive (.arr items))
    (obj : ∀ members, (∀ member ∈ members, motive member.2) → motive (.obj members)) :
    ∀ v, motive v
  | .str text => str text
  | .num value => num value
  | .arr items => arr items fun item _ => Value.induction str num arr obj item
  | .obj members => obj members fun member _ => Value.induction str num arr obj member.2
termination_by v => sizeOf v
decreasing_by
  · have smaller := List.sizeOf_lt_of_mem ‹_›
    simp only [Value.arr.sizeOf_spec]
    omega
  · have smaller := List.sizeOf_lt_of_mem ‹_›
    have pair : sizeOf member = 1 + sizeOf member.1 + sizeOf member.2 := rfl
    simp only [Value.obj.sizeOf_spec]
    omega

/-- Whether the value is laid out as its tokens, at any depth and before any text that does not
begin with a digit, which would go on a number. -/
def Value.Tells (v : Value) : Prop :=
  ∀ depth text tokens, EndsNumber text → Scans text tokens →
    Scans (v.layout depth ++ text) (v.tokens ++ tokens)

/-- A number ends before further items. -/
theorem endsNumber_items {depth : Nat} {items : List Value} (ends : EndsNumber text) :
    EndsNumber (layoutItems depth items ++ text) := by
  cases items with
  | nil => exact ends
  | cons item rest =>
    simp only [layoutItems, String.append_assoc]
    exact endsNumber_of_cons ',' rfl _

/-- A number ends before further members. -/
theorem endsNumber_members {depth : Nat} {members : List (String × Value)}
    (ends : EndsNumber text) : EndsNumber (layoutMembers depth members ++ text) := by
  cases members with
  | nil => exact ends
  | cons member rest =>
    simp only [layoutMembers, String.append_assoc]
    exact endsNumber_of_cons ',' rfl _

/-- Further items are laid out as their tokens if each of them is. -/
theorem scans_items {depth : Nat} {items : List Value} (all : ∀ item ∈ items, item.Tells)
    (ends : EndsNumber text) (scans : Scans text tokens) :
    Scans (layoutItems depth items ++ text) (itemTokens items ++ tokens) := by
  induction items with
  | nil => exact scans
  | cons item rest ih =>
    obtain ⟨first, others⟩ := List.forall_mem_cons.1 all
    have later := first depth _ _ (endsNumber_items ends) (ih others)
    simp only [layoutItems, itemTokens, String.append_assoc, List.cons_append, List.append_assoc]
    exact (later.lineBreak depth).sign .comma

/-- A member is laid out as its tokens if its value is. -/
theorem scans_member {depth : Nat} {key : String} {value : Value} (tells : value.Tells)
    (ends : EndsNumber text) (scans : Scans text tokens) :
    Scans (lineBreak depth ++ (quoted key ++ (": " ++ (value.layout depth ++ text))))
      (.str key :: .sign .colon :: (value.tokens ++ tokens)) := by
  have split : ": " = ":" ++ " " := rfl
  rw [split, String.append_assoc]
  exact ((((tells depth _ _ ends scans).blank ' ' rfl).sign .colon).str key).lineBreak depth

/-- Further members are laid out as their tokens if the value of each of them is. -/
theorem scans_members {depth : Nat} {members : List (String × Value)}
    (all : ∀ member ∈ members, member.2.Tells) (ends : EndsNumber text)
    (scans : Scans text tokens) :
    Scans (layoutMembers depth members ++ text) (memberTokens members ++ tokens) := by
  induction members with
  | nil => exact scans
  | cons member rest ih =>
    obtain ⟨first, others⟩ := List.forall_mem_cons.1 all
    have later : Scans (lineBreak depth ++ (quoted member.1 ++ (": " ++
        (member.2.layout depth ++ (layoutMembers depth rest ++ text))))) _ :=
      scans_member first (endsNumber_members ends) (ih others)
    simp only [layoutMembers, memberTokens, String.append_assoc, List.cons_append,
      List.append_assoc]
    exact later.sign .comma

/-- A value is laid out as its tokens. -/
theorem Value.tells (v : Value) : v.Tells := by
  induction v using Value.induction with
  | str own =>
    intro depth text tokens _ scans
    rw [layout]
    exact scans.str own
  | num value =>
    intro depth text tokens ends scans
    rw [layout]
    exact scans.num value ends
  | arr items all =>
    intro depth text tokens ends scans
    have closing := (scans.sign .closeArray).lineBreak depth
    cases items with
    | nil =>
      have split : "[]" = "[" ++ "]" := rfl
      rw [layout, split, String.append_assoc]
      exact (scans.sign .closeArray).sign .openArray
    | cons item rest =>
      obtain ⟨first, others⟩ := List.forall_mem_cons.1 all
      -- An item may be a number, so what comes next has to end it: a comma or the last line break.
      have ends := endsNumber_lineBreak depth (String.singleton Sign.closeArray.char ++ text)
      have further : Scans (layoutItems (depth + 1) rest ++ _) _ := scans_items others ends closing
      have later := first (depth + 1) _ _ (endsNumber_items ends) further
      simp only [layout, Value.tokens, String.append_assoc, List.cons_append, List.append_assoc,
        List.nil_append]
      exact (later.lineBreak (depth + 1)).sign .openArray
  | obj members all =>
    intro depth text tokens ends scans
    have closing := (scans.sign .closeObject).lineBreak depth
    cases members with
    | nil =>
      have split : "\x7b\x7d" = "\x7b" ++ "\x7d" := rfl
      rw [layout, split, String.append_assoc]
      exact (scans.sign .closeObject).sign .openObject
    | cons member rest =>
      obtain ⟨first, others⟩ := List.forall_mem_cons.1 all
      have ends := endsNumber_lineBreak depth (String.singleton Sign.closeObject.char ++ text)
      have further : Scans (layoutMembers (depth + 1) rest ++ _) _ :=
        scans_members others ends closing
      have later : Scans (lineBreak (depth + 1) ++ (quoted member.1 ++ _)) _ :=
        scans_member first (endsNumber_members ends) further
      simp only [layout, Value.tokens, String.append_assoc, List.cons_append, List.append_assoc,
        List.nil_append]
      exact later.sign .openObject

/-- The layout of a value is cut into the tokens of the value. -/
theorem Value.scan_layout (v : Value) (depth : Nat) :
    scan (v.layout depth).toList = some v.tokens := by
  have nothing : EndsNumber "" := fun _ first => nomatch first
  have scans := v.tells depth "" [] nothing .nil
  rwa [String.append_empty, List.append_nil] at scans

end BehaviouralTypes.Json
