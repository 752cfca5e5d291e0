import BehaviouralTypes.Program.Text
import BehaviouralTypes.Proofs.Recognition
import BehaviouralTypes.Proofs.Table
import BehaviouralTypes.Proofs.Transcript

/-!
# What tokens define

Definitions are added one by one, and all of them are accepted exactly when the names differ
(`Program.define_eq_iff`). Together with what a reader records and what it accepts this tells which
tokens define a program and which one: those of the program itself, if a text can tell it
(`Program.extendBy_empty_iff`).
-/

namespace BehaviouralTypes

open Text (Lexeme Definition)

namespace Program

variable {p q : Program} {f : Func} {lexemes : List Lexeme}

/-! ### Adding definitions -/

/-- Definitions are all accepted when the result is a program, and then they come last. -/
theorem define_eq_iff {definitions : List Definition} :
    p.define definitions = (q, none) ↔
      q.functions = p.functions ++ definitions.map (·.function) := by
  induction definitions generalizing p with
  | nil =>
    rw [define, Prod.mk.injEq, List.map_nil, List.append_nil]
    exact ⟨fun same => same.1 ▸ rfl, fun same => ⟨ext_functions same.symm, rfl⟩⟩
  | cons d rest ih =>
    have split : p.functions ++ (d :: rest).map (·.function) =
        p.functions ++ [d.function] ++ rest.map (·.function) := by
      rw [List.map_cons, List.append_assoc, List.singleton_append]
    rw [split, define]
    cases added : p.add d.function with
    | ok r => rw [ih, add_eq_ok_iff.1 added]
    | error e =>
      constructor
      · intro refused
        cases refused
      · intro whole
        -- The first functions of the result would be a program with the definition.
        have nodup : ((p.functions ++ [d.function]).map (·.name)).Nodup := by
          have distinct := q.nodup
          rw [whole, List.map_append] at distinct
          exact (List.nodup_append.1 distinct).1
        have accepted : p.add d.function = .ok ⟨p.functions ++ [d.function], nodup⟩ :=
          add_eq_ok_iff.2 rfl
        rw [added] at accepted
        cases accepted

/-- Tokens define a program without a mistake when they are read so and the names differ. -/
theorem extendBy_eq_iff : p.extendBy lexemes = (q, none) ↔
    ∃ definitions, Text.read lexemes = ⟨definitions, none⟩ ∧
      q.functions = p.functions ++ definitions.map (·.function) := by
  unfold extendBy
  constructor
  · intro fine
    dsimp only at fine
    split at fine
    · cases fine
    · next defined =>
      obtain ⟨rfl, clean⟩ := Prod.mk.inj fine
      have whole : Text.read lexemes = ⟨(Text.read lexemes).definitions, none⟩ := by
        rw [Option.map_eq_none_iff] at clean
        rw [← clean]
      exact ⟨_, whole, define_eq_iff.1 defined⟩
  · rintro ⟨definitions, whole, functions⟩
    rw [whole]
    dsimp only
    rw [define_eq_iff.2 functions]
    rfl

/-! ### Programs of tokens -/

/-- A program that a text can tell is plain already. -/
theorem plain_eq_self (tellable : ∀ f ∈ p.functions, f.IsTellable) : p.plain = p :=
  ext_functions (Func.map_plain_eq_self tellable)

/-- The tokens of a program whose selections offer something define its plain form. -/
theorem extendBy_of_tokens (offers : ∀ f ∈ p.functions, ∀ s ∈ f.body.statements, s ≠ .select [])
    (tokens : lexemes.map (·.token) = p.tokens) :
    empty.extendBy lexemes = (p.plain, none) := by
  obtain ⟨definitions, whole, same⟩ := Text.read_of_tokens offers tokens
  exact extendBy_eq_iff.2 ⟨definitions, whole, by rw [same]; rfl⟩

/-- Tokens define a program when they are those of the program and a text can tell it. -/
theorem extendBy_empty_iff : empty.extendBy lexemes = (p, none) ↔
    lexemes.map (·.token) = p.tokens ∧ ∀ f ∈ p.functions, f.IsTellable := by
  constructor
  · intro fine
    obtain ⟨definitions, whole, functions⟩ := extendBy_eq_iff.1 fine
    obtain ⟨tokens, tellable⟩ := Text.tokens_of_read whole
    have functions : p.functions = definitions.map (·.function) := functions
    refine ⟨?_, fun f inside => ?_⟩
    · rw [tokens, Program.tokens, functions, List.flatMap_map]
    · rw [functions] at inside
      obtain ⟨d, within, rfl⟩ := List.mem_map.1 inside
      exact tellable d within
  · rintro ⟨tokens, tellable⟩
    have offers : ∀ f ∈ p.functions, ∀ s ∈ f.body.statements, s ≠ .select [] :=
      fun f inside s deep => ((tellable f inside).body s deep).offers
    rw [extendBy_of_tokens offers tokens, plain_eq_self tellable]

end Program

end BehaviouralTypes
