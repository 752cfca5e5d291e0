import BehaviouralTypes.Json.Value

/-!
# Strings of JSON

Inside a string a character stands for itself or an escape stands for it, by a letter or by its
code. Every character is read back from what it is written as (`Json.character?_escaped`), and the
first quote that no escape hides ends the string (`Json.content?_escaped`).
-/

namespace BehaviouralTypes.Json

/-! ### Reading a string -/

/-- The value of a hexadecimal digit. -/
def hexDigit? (c : Char) : Option Nat :=
  if c.isDigit then some (c.toNat - '0'.toNat)
  else if 'a' ≤ c ∧ c ≤ 'f' then some (c.toNat - 'a'.toNat + 10)
  else if 'A' ≤ c ∧ c ≤ 'F' then some (c.toNat - 'A'.toNat + 10)
  else none

/-- The character whose code these hexadecimal digits are, if it is the code of a character. -/
def charOfHex? (digits : List Char) : Option Char := do
  let values ← digits.mapM hexDigit?
  let code := values.foldl (fun code value => 16 * code + value) 0
  if code.isValidChar then some (Char.ofNat code) else none

/-- The character that an escape of one letter stands for. -/
def charOfLetter? : Char → Option Char
  | '"' => some '"'
  | '\\' => some '\\'
  | '/' => some '/'
  | 'b' => some '\x08'
  | 't' => some '\t'
  | 'n' => some '\n'
  | 'f' => some '\x0c'
  | 'r' => some '\r'
  | _ => none

/-- The first character inside a string, which an escape may stand for, and the text behind it. -/
def character? : List Char → Option (Char × List Char)
  | '\\' :: 'u' :: a :: b :: c :: d :: rest => (charOfHex? [a, b, c, d]).map (·, rest)
  | '\\' :: c :: rest => (charOfLetter? c).map (·, rest)
  | c :: rest => if c.toNat < 0x20 then none else some (c, rest)
  | [] => none

/-- Reading a character makes the text shorter. -/
theorem length_lt_of_character? {text after : List Char} {c : Char}
    (read : character? text = some (c, after)) : after.length < text.length := by
  unfold character? at read
  split at read
  · obtain ⟨d, -, same⟩ := Option.map_eq_some_iff.1 read
    cases same
    simp only [List.length_cons]
    omega
  · obtain ⟨d, -, same⟩ := Option.map_eq_some_iff.1 read
    cases same
    simp only [List.length_cons]
    omega
  · split at read
    · cases read
    · cases read
      exact Nat.lt_succ_self _
  · cases read

/-- The characters of a string up to its closing quote, and the text behind the quote. -/
def content? (text : List Char) : Option (List Char × List Char) :=
  match text with
  | '"' :: rest => some ([], rest)
  | text =>
    match _read : character? text with
    | some (c, rest) => (content? rest).map fun (chars, after) => (c :: chars, after)
    | none => none
termination_by text.length
decreasing_by exact length_lt_of_character? _read

/-- A quotation mark ends the contents of a string. -/
theorem content?_quote (rest : List Char) : content? ('"' :: rest) = some ([], rest) := by
  rw [content?]

/-- The contents go on behind a character that was read. -/
theorem content?_of_character? {text rest : List Char} {c : Char}
    (unquoted : text.head? ≠ some '"') (first : character? text = some (c, rest)) :
    content? text = (content? rest).map fun (chars, after) => (c :: chars, after) := by
  rw [content?]
  · split
    · next found =>
      rw [first] at found
      cases found
      rfl
    · next failed =>
      rw [first] at failed
      cases failed
  · rintro rest rfl
    exact unquoted rfl

/-- A string takes up some of the text. -/
theorem length_lt_of_content? {text chars after : List Char}
    (read : content? text = some (chars, after)) : after.length < text.length := by
  fun_induction content? text generalizing chars with
  | case1 rest =>
    cases read
    exact Nat.lt_succ_self _
  | case2 text unquoted c rest first ih =>
    obtain ⟨later, found, same⟩ := Option.map_eq_some_iff.1 read
    cases same
    exact Nat.lt_trans (ih found) (length_lt_of_character? first)
  | case3 => cases read

/-! ### Reading what was written -/

/-- The digit of a number below 16 has that value. -/
theorem hexDigit?_digitChar {d : Nat} (small : d < 16) : hexDigit? (Nat.digitChar d) = some d := by
  have all : ∀ d : Fin 16, hexDigit? (Nat.digitChar d) = some d.val := by decide
  exact all ⟨d, small⟩

/-- A control character is read back from its code. -/
theorem charOfHex?_control {c : Char} (control : c.toNat < 0x20) :
    charOfHex? ['0', '0', Nat.digitChar (c.toNat / 16), Nat.digitChar (c.toNat % 16)] = some c := by
  have zero : hexDigit? '0' = some 0 := rfl
  have high := hexDigit?_digitChar (d := c.toNat / 16) (by omega)
  have low := hexDigit?_digitChar (d := c.toNat % 16) (by omega)
  have code : 16 * (c.toNat / 16) + c.toNat % 16 = c.toNat := Nat.div_add_mod _ 16
  have valid : c.toNat.isValidChar := c.valid
  simp [charOfHex?, zero, high, low, code, valid, Char.ofNat_toNat]

/-- A character is written as an escape of one letter, as an escape by its code, or as itself. -/
theorem escaped_cases (c : Char) :
    (∃ letter, escaped c = ['\\', letter] ∧ charOfLetter? letter = some c) ∨
      (∃ high low, escaped c = ['\\', 'u', '0', '0', high, low] ∧
        charOfHex? ['0', '0', high, low] = some c) ∨
      (escaped c = [c] ∧ c ≠ '"' ∧ c ≠ '\\' ∧ ¬ c.toNat < 0x20) := by
  by_cases quote : c = '"'
  · subst quote
    exact .inl ⟨'"', rfl, rfl⟩
  by_cases slash : c = '\\'
  · subst slash
    exact .inl ⟨'\\', rfl, rfl⟩
  by_cases backspace : c = '\x08'
  · subst backspace
    exact .inl ⟨'b', rfl, rfl⟩
  by_cases tab : c = '\t'
  · subst tab
    exact .inl ⟨'t', rfl, rfl⟩
  by_cases lineFeed : c = '\n'
  · subst lineFeed
    exact .inl ⟨'n', rfl, rfl⟩
  by_cases formFeed : c = '\x0c'
  · subst formFeed
    exact .inl ⟨'f', rfl, rfl⟩
  by_cases carriageReturn : c = '\r'
  · subst carriageReturn
    exact .inl ⟨'r', rfl, rfl⟩
  have unnamed : escaped c = if c.toNat < 0x20 then
      ['\\', 'u', '0', '0', Nat.digitChar (c.toNat / 16), Nat.digitChar (c.toNat % 16)]
      else [c] := by
    simp only [escaped, quote, slash, backspace, tab, lineFeed, formFeed, carriageReturn, if_false]
  by_cases control : c.toNat < 0x20
  · rw [if_pos control] at unnamed
    exact .inr (.inl ⟨_, _, unnamed, charOfHex?_control control⟩)
  · rw [if_neg control] at unnamed
    exact .inr (.inr ⟨unnamed, quote, slash, control⟩)

/-- What a character is written as inside a string is read back as the character. -/
theorem character?_escaped (c : Char) (rest : List Char) :
    character? (escaped c ++ rest) = some (c, rest) := by
  rcases escaped_cases c with ⟨letter, written, read⟩ | ⟨high, low, written, read⟩ |
    ⟨written, -, plain, visible⟩
  · have short : letter ≠ 'u' := by
      rintro rfl
      cases read
    rw [written, List.cons_append, List.singleton_append, character?, read]
    · rfl
    · exact fun _ _ _ _ _ same => absurd same short
  · rw [written]
    exact congrArg (Option.map (·, rest)) read
  · rw [written, List.singleton_append, character?, if_neg visible]
    · exact fun _ _ _ _ _ same => absurd same plain
    · exact fun _ _ same => absurd same plain

/-- What a character is written as inside a string does not look like the end of the string. -/
theorem head?_escaped_ne_quote (c : Char) (rest : List Char) :
    (escaped c ++ rest).head? ≠ some '"' := by
  rcases escaped_cases c with ⟨letter, written, -⟩ | ⟨high, low, written, -⟩ |
    ⟨written, unquoted, -, -⟩
  · rw [written]
    nofun
  · rw [written]
    nofun
  · rw [written]
    exact fun same => unquoted (Option.some.inj same)

/-- The characters of a string are read back up to its closing quote. -/
theorem content?_escaped (chars rest : List Char) :
    content? (chars.flatMap escaped ++ '"' :: rest) = some (chars, rest) := by
  induction chars with
  | nil => exact content?_quote rest
  | cons c chars ih =>
    rw [List.flatMap_cons, List.append_assoc,
      content?_of_character? (head?_escaped_ne_quote c _) (character?_escaped c _), ih]
    rfl

end BehaviouralTypes.Json
