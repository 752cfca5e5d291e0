import BehaviouralTypes.Simplify.Annotation
import Mathlib.Data.List.Infix
import Mathlib.Data.List.SplitBy
import Mathlib.Tactic.MkIffOfInductiveProp

/-!
# What a comment asks for

The phrases of a comment are looked for anywhere in it, and the entry in its words. A phrase without
white space occurs in a text exactly if it occurs in a word of it (`Text.occurs_iff_words`), so the
word that gives the entry is searched like any other. Two comments that differ only in the name of
the entry therefore agree about a phrase exactly if another word has the phrase in it, or both names
or neither (`Preferences.agree_iff`). The name of an entry can set a preference that no other word
asks for (`Preferences.not_forall_agree`).
-/

namespace BehaviouralTypes

namespace Text

variable {pattern text : List Char}

/-! ### Occurrences -/

/-- A pattern occurs in a text where the text has it as an infix. -/
theorem occurs_iff : occurs pattern text = true ↔ pattern <:+: text := by
  induction text with
  | nil => rw [occurs, List.isEmpty_iff, List.infix_nil]
  | cons c rest ih =>
    rw [occurs, Bool.or_eq_true, List.isPrefixOf_iff_prefix, ih, List.infix_cons_iff]

/-- No pattern without white space lies across the border between a stretch and what follows it, if
one of the two is white space there and the other is not. -/
theorem infix_or_infix_of_border {stretch : List Char} {rest : List (List Char)}
    (dark : ∀ c ∈ pattern, isWhite c = false)
    (border : ∀ next ∈ rest.head?, ∃ (ha : stretch ≠ []) (hb : next ≠ []),
      words.separated (stretch.getLast ha) (next.head hb) = false)
    (found : pattern <:+: stretch ++ rest.flatten) :
    pattern <:+: stretch ∨ pattern <:+: rest.flatten := by
  rcases List.infix_append_iff.1 found with here | later | ⟨left, right, rfl, ends, begins⟩
  · exact .inl here
  · exact .inr later
  by_cases noLeft : left = []
  · rw [noLeft]
    exact .inr begins.isInfix
  by_cases noRight : right = []
  · rw [noRight, List.append_nil]
    exact .inl ends.isInfix
  cases rest with
  | nil => exact absurd (List.prefix_nil.1 begins) noRight
  | cons next others =>
    -- the pattern would have the characters on both sides of the border, and neither is white space
    obtain ⟨filled, nextFilled, different⟩ := border next rfl
    have first : right.head noRight = next.head nextFilled := by
      rw [begins.head noRight]
      exact List.head_append_of_ne_nil nextFilled
    rw [words.separated, ← ends.getLast noLeft, ← first,
      dark _ (List.mem_append_left _ (List.getLast_mem noLeft)),
      dark _ (List.mem_append_right _ (List.head_mem noRight))] at different
    exact absurd different (by decide)

/-- A pattern without white space occurs in stretches in a row exactly if it occurs in one of them,
if one of any two neighbours is white space where they meet and the other is not. -/
theorem infix_flatten_iff {stretches : List (List Char)} (filled : pattern ≠ [])
    (dark : ∀ c ∈ pattern, isWhite c = false)
    (borders : stretches.IsChain fun a b => ∃ (ha : a ≠ []) (hb : b ≠ []),
      words.separated (a.getLast ha) (b.head hb) = false) :
    pattern <:+: stretches.flatten ↔ ∃ stretch ∈ stretches, pattern <:+: stretch := by
  constructor
  · intro found
    induction stretches with
    | nil => exact absurd (List.infix_nil.1 found) filled
    | cons stretch rest ih =>
      rcases infix_or_infix_of_border dark (List.isChain_cons.1 borders).1 found with here | later
      · exact ⟨stretch, List.mem_cons_self, here⟩
      · obtain ⟨other, inside, found⟩ := ih borders.tail later
        exact ⟨other, List.mem_cons_of_mem _ inside, found⟩
  · rintro ⟨stretch, inside, found⟩
    exact found.trans (List.infix_of_mem_flatten inside)

/-- A phrase without white space occurs in a text exactly if it occurs in a word of it. -/
theorem occurs_iff_words (filled : pattern ≠ []) (dark : ∀ c ∈ pattern, isWhite c = false) :
    occurs pattern text = true ↔ ∃ word ∈ words text, pattern <:+: word := by
  have stretches := infix_flatten_iff filled dark (List.isChain_getLast_head_splitBy words.separated
    text)
  rw [List.flatten_splitBy] at stretches
  rw [occurs_iff, stretches]
  constructor
  · rintro ⟨stretch, inside, found⟩
    refine ⟨stretch, List.mem_filter.2 ⟨inside, ?_⟩, found⟩
    obtain ⟨c, mem⟩ := List.exists_mem_of_ne_nil pattern filled
    rw [Bool.not_eq_true', List.all_eq_false]
    exact ⟨c, found.subset mem, by rw [dark c mem]; decide⟩
  · rintro ⟨word, inside, found⟩
    exact ⟨word, (List.mem_filter.1 inside).1, found⟩

/-- No pattern lies across a character that it does not have. -/
theorem infix_append_cons_iff {before after : List Char} {c : Char} (absent : c ∉ pattern) :
    pattern <:+: before ++ c :: after ↔ pattern <:+: before ∨ pattern <:+: after := by
  constructor
  · intro found
    rcases List.infix_append_iff.1 found with here | later | ⟨left, right, rfl, ends, begins⟩
    · exact .inl here
    · rcases List.infix_cons_iff.1 later with begins | behind
      · cases pattern with
        | nil => exact .inl (List.nil_infix)
        | cons d rest =>
          obtain ⟨rfl, -⟩ := List.cons_prefix_cons.1 begins
          exact absurd List.mem_cons_self absent
      · exact .inr behind
    · cases right with
      | nil => exact .inl (by rw [List.append_nil]; exact ends.isInfix)
      | cons d rest =>
        obtain ⟨rfl, -⟩ := List.cons_prefix_cons.1 begins
        exact absurd (List.mem_append_right _ List.mem_cons_self) absent
  · rintro (here | behind)
    · exact here.trans (List.infix_append_left ..)
    · exact behind.trans ⟨before ++ [c], [], by simp⟩

end Text

namespace Preferences

variable {phrase text comment : String} {before after : List (List Char)} {name : Name}

/-! ### Phrases beside the name of an entry -/

/-- A phrase that stands in one word, and that the mark of the entry has no part in. -/
@[mk_iff]
structure IsPhrase (phrase : String) : Prop where
  /-- There is a character. -/
  filled : phrase.toList ≠ []
  /-- No character is white space. -/
  dark : phrase.toList.any Text.isWhite = false
  /-- The phrase does not go from the mark into a name. -/
  unmarked : '=' ∉ phrase.toList
  /-- The mark does not have the phrase in it. -/
  foreign : ¬ phrase.toList <:+: "entry".toList

instance : DecidablePred IsPhrase := fun phrase => decidable_of_iff' _ (isPhrase_iff phrase)

/-- Whether a phrase stands in the words of a comment besides the entry's or in the name of the
entry. -/
def Asked (phrase : String) (others : List (List Char)) (name : Name) : Prop :=
  (∃ word ∈ others, phrase.toList <:+: word) ∨ phrase.toList <:+: name.toList

/-- A phrase stands in the word of the entry exactly if it stands in the name. -/
theorem IsPhrase.infix_entryWord_iff (valid : IsPhrase phrase) :
    phrase.toList <:+: entryMark ++ name.toList ↔ phrase.toList <:+: name.toList := by
  rw [show entryMark ++ name.toList = "entry".toList ++ '=' :: name.toList from rfl,
    Text.infix_append_cons_iff valid.unmarked, or_iff_right valid.foreign]

/-- The search for a phrase goes through the word of the entry too. -/
theorem IsPhrase.contains_iff (valid : IsPhrase phrase)
    (split : Text.words comment.toList = before ++ (entryMark ++ name.toList) :: after) :
    Text.contains phrase comment = true ↔ Asked phrase (before ++ after) name := by
  have dark : ∀ c ∈ phrase.toList, Text.isWhite c = false := by simpa using valid.dark
  rw [Text.contains, Text.occurs_iff_words valid.filled dark, split, Asked,
    ← valid.infix_entryWord_iff]
  simp only [List.perm_middle.mem_iff, List.mem_cons, or_and_right, exists_or, exists_eq_left]
  exact or_comm

/-- The word of the entry gives its name. -/
theorem entryOfWord?_entryMark : entryOfWord? (entryMark ++ name.toList) = some name := by
  rw [entryOfWord?, List.isPrefixOf?_eq_some_iff_append_eq.2 rfl, Option.map_some,
    String.ofList_toList]

/-- A word without the mark gives no entry. -/
theorem entryOfWord?_eq_none {word : List Char} (unmarked : ¬ entryMark <+: word) :
    entryOfWord? word = none := by
  rw [entryOfWord?, Option.map_eq_none_iff, Option.eq_none_iff_forall_ne_some]
  exact fun rest marked => unmarked ⟨rest, List.isPrefixOf?_eq_some_iff_append_eq.1 marked⟩

/-- The name of the entry is read off the first word that gives one. -/
theorem entry_ofComment (single : ∀ word ∈ before, ¬ entryMark <+: word)
    (split : Text.words comment.toList = before ++ (entryMark ++ name.toList) :: after) :
    (ofComment comment).entry = name := by
  have passed : before.findSome? entryOfWord? = none :=
    List.findSome?_eq_none_iff.2 fun word inside => entryOfWord?_eq_none (single word inside)
  rw [ofComment, split, List.findSome?_append, passed, Option.none_or, List.findSome?_cons,
    entryOfWord?_entryMark, Option.getD_some]

/-! ### Two comments -/

/-- The text opens with a comment of the given words, of which only the one in the middle gives an
entry. -/
structure Asks (text : String) (before : List (List Char)) (name : Name)
    (after : List (List Char)) : Prop where
  /-- The first token is a comment of these words. -/
  opens : ∃ comment here rest, Text.lex text = .ok (⟨.comment comment, here⟩ :: rest) ∧
    Text.words comment.toList = before ++ (entryMark ++ name.toList) :: after
  /-- The other words give no entry. -/
  single : ∀ word ∈ before ++ after, ¬ entryMark <+: word

/-- A text gets the entry that it asks for, and each other preference by whether its phrase stands
in another word or in the name. -/
theorem Asks.ofText (asks : Asks text before name after) :
    ∃ prefs, Preferences.ofText text = .ok prefs ∧ prefs.entry = name ∧
      (prefs.validate = true ↔ ¬ Asked "no_validate" (before ++ after) name) ∧
      (prefs.keepSilentEntry = true ↔ ¬ Asked "remove_silent_entry" (before ++ after) name) ∧
      (prefs.debug = true ↔ Asked "debug" (before ++ after) name) := by
  obtain ⟨comment, here, rest, lexed, split⟩ := asks.opens
  refine ⟨ofComment comment, by rw [Preferences.ofText, lexed], ?_, ?_, ?_, ?_⟩
  · refine entry_ofComment (fun word inside => ?_) split
    exact asks.single word (List.mem_append_left _ inside)
  · rw [← IsPhrase.contains_iff (by decide) split, ofComment, Bool.not_eq_true', Bool.not_eq_true]
  · rw [← IsPhrase.contains_iff (by decide) split, ofComment, Bool.not_eq_true', Bool.not_eq_true]
  · rw [← IsPhrase.contains_iff (by decide) split, ofComment]

/-- Whether the choice between two names of the entry makes no difference to a phrase: another word
has the phrase in it, or both names have it or neither. -/
def Indifferent (phrase : String) (others : List (List Char)) (name name' : Name) : Prop :=
  (∃ word ∈ others, phrase.toList <:+: word) ∨
    (phrase.toList <:+: name.toList ↔ phrase.toList <:+: name'.toList)

/-- With either name the phrase is asked for alike exactly if the choice makes no difference
to it. -/
theorem asked_iff_asked {others : List (List Char)} {name' : Name} :
    (Asked phrase others name ↔ Asked phrase others name') ↔
      Indifferent phrase others name name' := by
  rw [Asked, Asked, Indifferent]
  by_cases elsewhere : ∃ word ∈ others, phrase.toList <:+: word
  · simp only [elsewhere, true_or]
  · simp only [elsewhere, false_or]

/-- Two texts that open with comments of the same words except for the name of the entry each get
their own entry, and they get the same of another preference exactly if the choice of the name makes
no difference to its phrase. -/
theorem agree_iff {text' : String} {name' : Name} (asks : Asks text before name after)
    (asks' : Asks text' before name' after) :
    ∃ prefs prefs', ofText text = .ok prefs ∧ ofText text' = .ok prefs' ∧
      prefs.entry = name ∧ prefs'.entry = name' ∧
      (prefs.validate = prefs'.validate ↔
        Indifferent "no_validate" (before ++ after) name name') ∧
      (prefs.keepSilentEntry = prefs'.keepSilentEntry ↔
        Indifferent "remove_silent_entry" (before ++ after) name name') ∧
      (prefs.debug = prefs'.debug ↔ Indifferent "debug" (before ++ after) name name') := by
  obtain ⟨prefs, read, entry, validate, keep, debug⟩ := asks.ofText
  obtain ⟨prefs', read', entry', validate', keep', debug'⟩ := asks'.ofText
  refine ⟨prefs, prefs', read, read', entry, entry', ?_, ?_, ?_⟩
  · rw [Bool.eq_iff_iff, validate, validate', not_iff_not, asked_iff_asked]
  · rw [Bool.eq_iff_iff, keep, keep', not_iff_not, asked_iff_asked]
  · rw [Bool.eq_iff_iff, debug, debug', asked_iff_asked]

/-- Another word asks for `debug` here, but none asks not to validate. -/
theorem agree_iff_no_validate :
    Asks "-- entry=main debug" [] "main" ["debug".toList] ∧
    Asks "-- entry=no_validate debug" [] "no_validate" ["debug".toList] ∧
    ∃ prefs prefs', ofText "-- entry=main debug" = .ok prefs ∧
      ofText "-- entry=no_validate debug" = .ok prefs' ∧
      prefs.entry = "main" ∧ prefs'.entry = "no_validate" ∧
      prefs.debug = prefs'.debug ∧ prefs.validate ≠ prefs'.validate := by
  have asks : Asks "-- entry=main debug" [] "main" ["debug".toList] :=
    ⟨⟨"entry=main debug", ⟨1, 1⟩, [], by decide +kernel, by decide +kernel⟩, by decide⟩
  have asks' : Asks "-- entry=no_validate debug" [] "no_validate" ["debug".toList] :=
    ⟨⟨"entry=no_validate debug", ⟨1, 1⟩, [], by decide +kernel, by decide +kernel⟩, by decide⟩
  obtain ⟨prefs, prefs', read, read', entry, entry', validate, -, debug⟩ := agree_iff asks asks'
  refine ⟨asks, asks', prefs, prefs', read, read', entry, entry', debug.2 ?_, validate.not.2 ?_⟩
  · exact .inl ⟨_, List.mem_singleton_self _, List.infix_rfl⟩
  · unfold Indifferent
    decide

/-- The name of an entry can set a preference that no other word asks for. -/
theorem not_forall_agree : ¬ ∀ (text text' : String) (before after : List (List Char))
    (name name' : Name) (prefs prefs' : Preferences), name ≠ "" → name' ≠ "" → name ≠ name' →
    Asks text before name after → Asks text' before name' after →
    ofText text = .ok prefs → ofText text' = .ok prefs' →
      prefs.validate = prefs'.validate ∧ prefs.keepSilentEntry = prefs'.keepSilentEntry ∧
      prefs.debug = prefs'.debug ∧ prefs.entry = name ∧ prefs'.entry = name' := by
  intro claimed
  have asks : Asks "-- entry=main" [] "main" [] :=
    ⟨⟨"entry=main", ⟨1, 1⟩, [], by decide +kernel, by decide +kernel⟩, by decide⟩
  have asks' : Asks "-- entry=debug" [] "debug" [] :=
    ⟨⟨"entry=debug", ⟨1, 1⟩, [], by decide +kernel, by decide +kernel⟩, by decide⟩
  have read : ofText "-- entry=main" = .ok { entry := "main" } := by decide +kernel
  have read' : ofText "-- entry=debug" = .ok { entry := "debug", debug := true } := by
    decide +kernel
  have equal := (claimed _ _ _ _ _ _ _ _ (by decide) (by decide) (by decide) asks asks' read
    read').2.2.1
  cases equal

end Preferences

end BehaviouralTypes
