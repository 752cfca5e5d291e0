import BehaviouralTypes.Proofs.Idempotence
import BehaviouralTypes.Proofs.Retention
import BehaviouralTypes.Proofs.RoundTrip

/-!
# The text of an outcome

The outcome of a simplification is written as a text from which the outcome is read back, since it
has no names and bindings but those of the program, and every selection that it keeps offers
something. The simplification of what was read back changes nothing, so the text of an outcome is
written again without a difference (`Program.ofText_fileText_of_simplify`).
-/

namespace BehaviouralTypes

/-- A statement with names in it is an action or an invocation. -/
theorem Stmt.isDeed_of_mem_names {s : Stmt} {name : Name} (inside : name ∈ s.names) :
    s.isDeed = true := by
  cases s with
  | act action => rfl
  | invoke mode invocation => rfl
  | tau | branch | select => cases inside

/-- A statement that invokes is one of the deeds of its block. -/
theorem Stmt.isDeed_of_invocation? {s : Stmt} {i : Invocation} (found : s.invocation? = some i) :
    s.isDeed = true := by
  rw [isDeed, found, Option.isSome_some, Bool.or_true]

/-- Tidying adds no action and no invocation. -/
theorem Block.mem_statements_of_mem_tidy {defined : List Name} {s : Stmt} {b : Block}
    (inside : s ∈ (b.tidy defined).statements) (deed : s.isDeed = true) : s ∈ b.statements := by
  have among : s ∈ (b.tidy defined).deeds := List.mem_filter.2 ⟨inside, deed⟩
  rw [Block.deeds_tidy] at among
  exact List.mem_of_mem_filter (List.mem_of_mem_filter among)

namespace Program

variable {p : Program} {prefs : Preferences} {text : String}

/-- The outcome for a program that can be written can be written. -/
theorem IsPrintable.simplified (printable : p.IsPrintable) (prefs : Preferences) :
    (p.simplified prefs).IsPrintable := by
  constructor
  · intro g inside name named
    obtain ⟨f, original, rfl⟩ := exists_of_mem_simplified inside
    have words := printable.names f original
    rcases List.mem_cons.1 named with rfl | others
    · exact words f.name List.mem_cons_self
    · refine words name (List.mem_cons_of_mem _ (List.mem_append.2 ?_))
      rcases List.mem_append.1 others with param | nested
      · exact .inl param
      · obtain ⟨s, deep, own⟩ := List.mem_flatMap.1 nested
        have before := Block.mem_statements_of_mem_tidy deep (Stmt.isDeed_of_mem_names own)
        exact .inr (List.mem_flatMap.2 ⟨s, before, own⟩)
  · rintro g inside s deep rfl
    have tidy : g.body.IsTidy (p.simplified prefs).names := isTidy_of_mem_tidy inside
    obtain ⟨body, within, -⟩ := tidy.varied _ deep rfl
    cases within

/-- The outcome for a program with plain bindings has plain bindings. -/
theorem IsPlain.simplified (plain : p.IsPlain) (prefs : Preferences) :
    (p.simplified prefs).IsPlain := by
  constructor
  · intro g inside
    obtain ⟨f, original, rfl⟩ := exists_of_mem_simplified inside
    exact plain.params f original
  · intro g inside s deep i found
    obtain ⟨f, original, rfl⟩ := exists_of_mem_simplified inside
    have before := Block.mem_statements_of_mem_tidy deep (Stmt.isDeed_of_invocation? found)
    exact plain.handed f original s before i found

/-- A program with plain bindings that can be written is read back from its file. -/
theorem ofText_fileText (printable : p.IsPrintable) (plain : p.IsPlain) :
    ofText p.fileText = .ok p := by
  have read := ofText_of_tells printable.offers (tells_fileText printable.names)
  have same : p.plain = p := plain_eq_self (printable.isTellable plain)
  rwa [same] at read

/-- **The text of an outcome is fixed.** If a text describes a program, its simplification succeeds,
the outcome is read back from the file in which it is written, and the same simplification of what
was read back succeeds and is written as the same file. -/
theorem ofText_fileText_of_simplify (described : ofText text = .ok p) (prefs : Preferences) :
    ∃ q, (p.simplify prefs).result = .ok q ∧ ofText q.fileText = .ok q ∧
      ∃ r, (q.simplify prefs).result = .ok r ∧ r.fileText = q.fileText := by
  have printable := (isPrintable_of_ofText described).simplified prefs
  have plain := (isPlain_of_ofText described).simplified prefs
  have again : ((p.simplified prefs).simplify prefs).result = .ok (p.simplified prefs) := by
    rw [result_simplify, Program.simplified, removeSilent_simplified, removeUnreached_simplified,
      tidy_simplified]
  exact ⟨p.simplified prefs, result_simplify prefs p, ofText_fileText printable plain,
    p.simplified prefs, again, rfl⟩

/-- A text with a comment, a selection that disappears and an alternative that comes down to `tau`;
its function `idle` is removed and its parameter is named like a keyword. -/
theorem ofText_fileText_of_simplify_vanishing_select :
    let text := "def main(else): if call idle(); else send else; endif; -- on\n" ++
      "select case spawn idle(); endselect; def idle(): tau;"
    let p : Program := ⟨[⟨"main", [.plain "else"], [
        .branch .condition [.invoke .call ⟨"idle", []⟩] [.act (.perform .send "else")],
        .select [[.invoke .spawn ⟨"idle", []⟩]]]⟩, ⟨"idle", [], [.tau]⟩], by decide⟩
    let prefs : Preferences := { entry := "main" }
    ofText text = .ok p ∧ ∃ q, (p.simplify prefs).result = .ok q ∧ ofText q.fileText = .ok q ∧
      ∃ r, (q.simplify prefs).result = .ok r ∧ r.fileText = q.fileText := by
  intro text p prefs
  have described : ofText text = .ok p := by decide +kernel
  exact ⟨described, ofText_fileText_of_simplify described prefs⟩

end Program

end BehaviouralTypes
