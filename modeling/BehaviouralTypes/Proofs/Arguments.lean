import BehaviouralTypes.CommandLine.Options
import BehaviouralTypes.Proofs.Layout
import Mathlib.Data.List.Nodup

/-!
# What a command line asks for

A list of arguments is a way of writing down requests: options, values of settings and a file. Which
lists stand for which requests is said here without reading a list (`Request.Spelled`), and the
options of an accepted list are those that meet its requests (`Options.meets_of_ofArguments?`). A
list is accepted if it stands for requests of which no two are about the same thing
(`Options.isSome_ofArguments?_iff`).
-/

namespace BehaviouralTypes

/-- One thing that is asked for on the command line. -/
inductive Request where
  /-- An option without a value. -/
  | flag (flag : Flag)
  /-- An option with its value. -/
  | setting (setting : Setting) (value : String)
  /-- The file to read. -/
  | file (path : String)
deriving DecidableEq

namespace Request

/-! ### How requests are written -/

/-- The long names of the options. -/
def longNames : List (String × Switch) :=
  [("stdin", .flag .stdin), ("json", .flag .json), ("no-validate", .flag .noValidate),
    ("remove-silent-entry", .flag .removeSilentEntry), ("debug", .flag .debug),
    ("out", .setting .out), ("entry", .setting .entry)]

/-- The short names of the options. -/
def shortNames : List (Char × Switch) :=
  [('s', .flag .stdin), ('d', .flag .debug), ('o', .setting .out), ('e', .setting .entry)]

/-- Whether the characters after a hyphen are these requests by their short names. The setting is
the last one if its value is still to come. -/
inductive Cluster : List Char → List Request → Option Setting → Prop
  /-- The cluster ends. -/
  | nil : Cluster [] [] none
  /-- An option without a value comes first. -/
  | flag {c : Char} {f : Flag} {chars : List Char} {requests : List Request}
      {waiting : Option Setting} : (c, .flag f) ∈ shortNames → Cluster chars requests waiting →
      Cluster (c :: chars) (.flag f :: requests) waiting
  /-- The value is the next argument. -/
  | waiting {c : Char} {s : Setting} : (c, .setting s) ∈ shortNames → Cluster [c] [] (some s)
  /-- The value stands behind an equals sign. -/
  | assigned {c : Char} {s : Setting} (value : List Char) : (c, .setting s) ∈ shortNames →
      Cluster (c :: '=' :: value) [.setting s (String.ofList value)] none
  /-- The value follows at once. -/
  | attached {c d : Char} {s : Setting} {value : List Char} : (c, .setting s) ∈ shortNames →
      d ≠ '=' → Cluster (c :: d :: value) [.setting s (String.ofList (d :: value))] none

/-- Whether one argument is these requests. The setting is the last one if its value is still to
come. -/
inductive Argument : List Char → List Request → Option Setting → Prop
  /-- An argument that is a hyphen or begins otherwise is the file. -/
  | file {chars : List Char} : chars = ['-'] ∨ chars.head? ≠ some '-' →
      Argument chars [.file (String.ofList chars)] none
  /-- An option without a value. -/
  | flag {name : String} {f : Flag} : (name, .flag f) ∈ longNames →
      Argument ('-' :: '-' :: name.toList) [.flag f] none
  /-- An option whose value is the next argument. -/
  | waiting {name : String} {s : Setting} : (name, .setting s) ∈ longNames →
      Argument ('-' :: '-' :: name.toList) [] (some s)
  /-- An option whose value stands behind an equals sign. -/
  | assigned {name : String} {s : Setting} (value : List Char) :
      (name, .setting s) ∈ longNames →
      Argument ('-' :: '-' :: name.toList ++ '=' :: value) [.setting s (String.ofList value)] none
  /-- Options by their short names. -/
  | cluster {chars : List Char} {requests : List Request} {waiting : Option Setting} :
      chars ≠ [] → Cluster chars requests waiting → Argument ('-' :: chars) requests waiting

/-- Whether a list of arguments is these requests. The setting is the one before them whose value
is still to come, if there is one. -/
inductive Spelled : Option Setting → List String → List Request → Prop
  /-- Nothing is asked for. -/
  | nil : Spelled none [] []
  /-- Whatever follows two hyphens is a file. -/
  | ended (paths : List String) : Spelled none ("--" :: paths) (paths.map .file)
  /-- An argument, which may leave the value of its last setting to the next one. -/
  | argument {text : String} {rest : List String} {requests more : List Request}
      {waiting : Option Setting} : Argument text.toList requests waiting →
      Spelled waiting rest more → Spelled none (text :: rest) (requests ++ more)
  /-- The value of the setting before it, which is a hyphen or begins otherwise. -/
  | value {s : Setting} {value : String} {rest : List String} {more : List Request} :
      value = "-" ∨ value.toList.head? ≠ some '-' → Spelled none rest more →
      Spelled (some s) (value :: rest) (.setting s value :: more)

/-- What a request is about: an option, or the file. -/
def subject : Request → Option Switch
  | flag f => some (.flag f)
  | setting s _ => some (.setting s)
  | file _ => none

/-! ### Names of options -/

/-- The table of long names is complete. -/
theorem mem_longNames_iff {name : String} {switch : Switch} :
    (name, switch) ∈ longNames ↔ Switch.ofLong? name = some switch := by
  constructor
  · simp only [longNames, List.mem_cons, Prod.mk.injEq, List.not_mem_nil, or_false]
    rintro (⟨rfl, rfl⟩ | ⟨rfl, rfl⟩ | ⟨rfl, rfl⟩ | ⟨rfl, rfl⟩ | ⟨rfl, rfl⟩ | ⟨rfl, rfl⟩ |
      ⟨rfl, rfl⟩) <;> rfl
  · intro found
    unfold Switch.ofLong? at found
    split at found <;> cases found <;> simp [longNames]

/-- The table of short names is complete. -/
theorem mem_shortNames_iff {c : Char} {switch : Switch} :
    (c, switch) ∈ shortNames ↔ Switch.ofShort? c = some switch := by
  constructor
  · simp only [shortNames, List.mem_cons, Prod.mk.injEq, List.not_mem_nil, or_false]
    rintro (⟨rfl, rfl⟩ | ⟨rfl, rfl⟩ | ⟨rfl, rfl⟩ | ⟨rfl, rfl⟩) <;> rfl
  · intro found
    unfold Switch.ofShort? at found
    split at found <;> cases found <;> simp [shortNames]

/-- No long name has an equals sign in it. -/
theorem not_mem_of_mem_longNames {name : String} {switch : Switch}
    (named : (name, switch) ∈ longNames) : '=' ∉ name.toList := by
  have all : ∀ entry ∈ longNames, '=' ∉ entry.1.toList := by decide
  exact all _ named

/-- A hyphen is no short name. -/
theorem ne_hyphen_of_mem_shortNames {c : Char} {switch : Switch}
    (named : (c, switch) ∈ shortNames) : c ≠ '-' := by
  rintro rfl
  rw [mem_shortNames_iff] at named
  cases named

/-- Options by their short names do not begin with a hyphen. -/
theorem Cluster.head?_ne {chars : List Char} {requests : List Request} {waiting : Option Setting}
    (derived : Cluster chars requests waiting) : chars.head? ≠ some '-' := by
  cases derived with
  | nil => exact Option.some_ne_none '-' |>.symm
  | flag listed | waiting listed | assigned _ listed | attached listed =>
    exact fun same => ne_hyphen_of_mem_shortNames listed (Option.some.inj same)

/-- Two hyphens alone ask for nothing. -/
theorem Argument.ne_hyphens {text : String} {requests : List Request} {waiting : Option Setting}
    (derived : Argument text.toList requests waiting) : text ≠ "--" := by
  rintro rfl
  generalize written : ("--" : String).toList = chars at derived
  have hyphens : chars = ['-', '-'] := written.symm
  clear written
  have filled : ∀ {name : String} {switch : Switch}, (name, switch) ∈ longNames →
      name.toList ≠ [] := fun listed => by
    have all : ∀ entry ∈ longNames, entry.1.toList ≠ [] := by decide
    exact all _ listed
  cases derived with
  | file other =>
    subst hyphens
    rcases other with same | other
    · cases (List.cons.inj same).2
    · exact other rfl
  | flag listed | waiting listed =>
    exact filled listed (List.cons.inj (List.cons.inj hyphens).2).2
  | assigned value listed =>
    have nothing := (List.cons.inj (List.cons.inj hyphens).2).2
    exact filled listed (List.append_eq_nil_iff.1 nothing).1
  | cluster _ derived =>
    rw [(List.cons.inj hyphens).2] at derived
    exact derived.head?_ne rfl

end Request

/-! ### Requests one after the other -/

namespace Given

variable {g after : Given} {r : Request} {requests more : List Request}

/-- What has been given after one more request, unless there is one about the same thing already. -/
def accept (g : Given) : Request → Option Given
  | .flag f => g.raise f
  | .setting s value => g.assign s value
  | .file path => g.position path

/-- What has been given after further requests. -/
def acceptAll (g : Given) : List Request → Option Given
  | [] => some g
  | r :: rest => (g.accept r).bind (·.acceptAll rest)

/-- Requests are accepted in parts. -/
theorem acceptAll_append (g : Given) (requests more : List Request) :
    g.acceptAll (requests ++ more) = (g.acceptAll requests).bind (·.acceptAll more) := by
  induction requests generalizing g with
  | nil => rfl
  | cons r rest ih =>
    rw [List.cons_append, acceptAll, acceptAll, Option.bind_assoc]
    exact congrArg _ (funext ih)

/-- One request is accepted as it is. -/
theorem acceptAll_single (g : Given) (r : Request) : g.acceptAll [r] = g.accept r := by
  rw [acceptAll]
  cases g.accept r <;> rfl

/-- Whether these are the requests that made what has been given. -/
structure Holds (g : Given) (requests : List Request) : Prop where
  /-- The flags are those asked for. -/
  flags : ∀ f, f ∈ g.flags ↔ .flag f ∈ requests
  /-- The settings are those asked for, with their values. -/
  settings : ∀ s value, (s, value) ∈ g.settings ↔ .setting s value ∈ requests
  /-- The file is the one asked for. -/
  file : ∀ path, g.file = some path ↔ .file path ∈ requests
  /-- Nothing is asked for twice. -/
  once : (requests.map Request.subject).Nodup

/-- Nothing holds no request. -/
theorem holds_nil : ({} : Given).Holds [] where
  flags := by simp
  settings := by simp
  file := by simp
  once := List.nodup_nil

/-- What has been given after one more request. -/
def add (g : Given) : Request → Given
  | .flag f => { g with flags := f :: g.flags }
  | .setting s value => { g with settings := (s, value) :: g.settings }
  | .file path => { g with file := some path }

/-- What a request is about has been given already if an earlier request is about it. -/
theorem Holds.accept_eq (holds : g.Holds requests) (r : Request) :
    g.accept r = if r.subject ∈ requests.map Request.subject then none else some (g.add r) := by
  cases r with
  | flag f =>
    have known : f ∈ g.flags ↔ some (.flag f) ∈ requests.map Request.subject := by
      rw [holds.flags, List.mem_map]
      constructor
      · exact fun inside => ⟨_, inside, rfl⟩
      · rintro ⟨_ | _ | _, inside, same⟩ <;> cases same
        exact inside
    exact if_congr known rfl rfl
  | setting s value =>
    have known : s ∈ g.settings.map (·.1) ↔
        some (.setting s) ∈ requests.map Request.subject := by
      rw [List.mem_map, List.mem_map]
      constructor
      · rintro ⟨⟨_, value⟩, inside, rfl⟩
        exact ⟨_, (holds.settings _ _).1 inside, rfl⟩
      · rintro ⟨_ | ⟨_, value⟩ | _, inside, same⟩ <;> cases same
        exact ⟨_, (holds.settings _ _).2 inside, rfl⟩
    exact if_congr known rfl rfl
  | file path =>
    have known : g.file.isSome ↔ none ∈ requests.map Request.subject := by
      rw [Option.isSome_iff_exists, List.mem_map]
      constructor
      · rintro ⟨path, same⟩
        exact ⟨_, (holds.file path).1 same, rfl⟩
      · rintro ⟨_ | _ | path, inside, same⟩ <;> cases same
        exact ⟨path, (holds.file path).2 inside⟩
    exact if_congr known rfl rfl

/-- A request among others is about something else than those before it. -/
theorem not_mem_of_nodup (once : ((requests ++ r :: more).map Request.subject).Nodup) :
    r.subject ∉ requests.map Request.subject := by
  rw [List.map_append, List.map_cons] at once
  exact fun known => (List.nodup_append.1 once).2.2 _ known _ List.mem_cons_self rfl

/-- One more request about something else is held besides the earlier ones. -/
theorem Holds.add (holds : g.Holds requests)
    (fresh : r.subject ∉ requests.map Request.subject) : (g.add r).Holds (requests ++ [r]) := by
  have once : ((requests ++ [r]).map Request.subject).Nodup := by
    rw [List.map_append, List.map_singleton, ← List.concat_eq_append]
    exact holds.once.concat fresh
  cases r with
  | flag f =>
    refine ⟨fun other => ?_, fun s value => ?_, fun path => ?_, once⟩
    · simp [Given.add, holds.flags, or_comm]
    · simp [Given.add, holds.settings]
    · simp [Given.add, holds.file]
  | setting s value =>
    refine ⟨fun f => ?_, fun other value => ?_, fun path => ?_, once⟩
    · simp [Given.add, holds.flags]
    · simp [Given.add, holds.settings, or_comm]
    · simp [Given.add, holds.file]
  | file path =>
    refine ⟨fun f => ?_, fun s value => ?_, fun other => ?_, once⟩
    · simp [Given.add, holds.flags]
    · simp [Given.add, holds.settings]
    · have first : .file other ∉ requests := fun inside => fresh (List.mem_map.2 ⟨_, inside, rfl⟩)
      simp [Given.add, first, eq_comm]

/-- Requests are accepted exactly if nothing is asked for twice, and then they are held. -/
theorem Holds.acceptAll_eq_some_iff (holds : g.Holds requests) :
    g.acceptAll more = some after ↔
      ((requests ++ more).map Request.subject).Nodup ∧ after = more.foldl Given.add g := by
  induction more generalizing g requests with
  | nil =>
    rw [List.append_nil, acceptAll, Option.some.injEq, eq_comm]
    exact (and_iff_right holds.once).symm
  | cons r more ih =>
    rw [acceptAll, holds.accept_eq, List.foldl_cons]
    split
    · next known =>
      constructor
      · rintro ⟨⟩
      · rintro ⟨once, -⟩
        exact absurd known (not_mem_of_nodup once)
    · next fresh =>
      rw [Option.bind_some, ih (holds.add fresh), List.append_assoc, List.singleton_append]

/-- Further requests about other things are held besides the earlier ones. -/
theorem Holds.foldl_add (holds : g.Holds requests)
    (once : ((requests ++ more).map Request.subject).Nodup) :
    (more.foldl Given.add g).Holds (requests ++ more) := by
  induction more generalizing g requests with
  | nil =>
    rw [List.append_nil]
    exact holds
  | cons r more ih =>
    have fresh := not_mem_of_nodup once
    rw [← List.singleton_append, ← List.append_assoc] at once ⊢
    exact ih (holds.add fresh) once

/-! ### Reading a list of arguments -/

open Request (Cluster Argument Spelled mem_longNames_iff mem_shortNames_iff)

variable {chars : List Char} {text : String} {arguments : List String}
  {waiting waiting' : Option Setting}

/-- Characters behind a hyphen that are read are requests that are accepted. -/
theorem exists_cluster (read : g.cluster chars = some (after, waiting)) :
    ∃ requests, Cluster chars requests waiting ∧ g.acceptAll requests = some after := by
  induction chars generalizing g with
  | nil =>
    cases read
    exact ⟨[], .nil, rfl⟩
  | cons c rest ih =>
    rw [cluster] at read
    split at read
    · next f named =>
      obtain ⟨next, raised, later⟩ := Option.bind_eq_some_iff.1 read
      obtain ⟨requests, derived, accepted⟩ := ih later
      exact ⟨_, .flag (mem_shortNames_iff.2 named) derived,
        Option.bind_eq_some_iff.2 ⟨next, raised, accepted⟩⟩
    · next s named =>
      have listed := mem_shortNames_iff.2 named
      split at read
      · cases read
        exact ⟨[], .waiting listed, rfl⟩
      · next value =>
        obtain ⟨next, assigned, same⟩ := Option.bind_eq_some_iff.1 read
        cases same
        exact ⟨_, .assigned value listed, (acceptAll_single g _).trans assigned⟩
      · next value some_value other =>
        obtain ⟨next, assigned, same⟩ := Option.bind_eq_some_iff.1 read
        cases same
        obtain ⟨d, tail, rfl⟩ := List.exists_cons_of_ne_nil some_value
        refine ⟨_, .attached listed ?_, (acceptAll_single g _).trans assigned⟩
        rintro rfl
        exact other tail rfl
    · cases read

/-- Where requests are written behind a hyphen, they are what is read. -/
theorem cluster_of (derived : Cluster chars requests waiting) :
    g.cluster chars = (g.acceptAll requests).map (·, waiting) := by
  induction derived generalizing g with
  | nil => rfl
  | @flag c f chars requests waiting listed _ ih =>
    rw [cluster, mem_shortNames_iff.1 listed, acceptAll, Option.map_bind]
    exact congrArg (Option.bind _) (funext fun next => ih)
  | waiting listed =>
    rw [cluster, mem_shortNames_iff.1 listed]
    rfl
  | assigned value listed =>
    rw [cluster, mem_shortNames_iff.1 listed, acceptAll_single]
    exact Option.map_eq_bind.symm
  | @attached c d s value listed other =>
    rw [cluster, mem_shortNames_iff.1 listed, acceptAll_single]
    dsimp only
    split
    · next nothing => cases nothing
    · next same => exact absurd (List.cons.inj same).1 other
    · exact Option.map_eq_bind.symm

/-- Characters behind two hyphens that are read are requests that are accepted. -/
theorem exists_long (read : g.long chars = some (after, waiting)) : ∃ requests,
    Argument ('-' :: '-' :: chars) requests waiting ∧ g.acceptAll requests = some after := by
  have whole : chars = (String.ofList (chars.takeWhile (· ≠ '='))).toList ++
      chars.dropWhile (· ≠ '=') := by
    rw [String.toList_ofList, List.takeWhile_append_dropWhile]
  unfold long at read
  dsimp only at read
  split at read
  · next f named nothing =>
    obtain ⟨next, raised, same⟩ := Option.bind_eq_some_iff.1 read
    cases same
    rw [nothing, List.append_nil] at whole
    rw [whole]
    exact ⟨_, .flag (mem_longNames_iff.2 named), (acceptAll_single g _).trans raised⟩
  · next s named nothing =>
    cases read
    rw [nothing, List.append_nil] at whole
    rw [whole]
    exact ⟨_, .waiting (mem_longNames_iff.2 named), rfl⟩
  · next s d value named rest =>
    obtain ⟨next, assigned, same⟩ := Option.bind_eq_some_iff.1 read
    cases same
    have sign : d = '=' := by
      have stops := Text.eq_false_of_mem_head?_dropWhile
        (show d ∈ (chars.dropWhile (· ≠ '=')).head? by rw [rest]; rfl)
      simpa using stops
    rw [rest, sign] at whole
    rw [whole]
    exact ⟨_, .assigned value (mem_longNames_iff.2 named), (acceptAll_single g _).trans assigned⟩
  · cases read

/-- A long name ends where an equals sign stands, or with the argument. -/
theorem long_name {name : String} {switch : Switch} (rest : List Char)
    (listed : (name, switch) ∈ Request.longNames) (sign : ∀ c ∈ rest.head?, c = '=') :
    String.ofList ((name.toList ++ rest).takeWhile (· ≠ '=')) = name ∧
      (name.toList ++ rest).dropWhile (· ≠ '=') = rest := by
  have plain : ∀ c ∈ name.toList, decide (c ≠ '=') = true := fun c inside => decide_eq_true <| by
    rintro rfl
    exact Request.not_mem_of_mem_longNames listed inside
  obtain ⟨own, left⟩ := Text.takeWhile_dropWhile_append plain fun c next => by simp [sign c next]
  exact ⟨by rw [own, String.ofList_toList], left⟩

/-- Two hyphens introduce a long name. -/
theorem argument_of_hyphens (written : text.toList = '-' :: '-' :: chars) :
    g.argument text = g.long chars := by
  unfold argument
  rw [written]
  rfl

/-- One hyphen introduces short names. -/
theorem argument_of_hyphen (written : text.toList = '-' :: chars) (filled : chars ≠ [])
    (single : chars.head? ≠ some '-') : g.argument text = g.cluster chars := by
  unfold argument
  rw [written]
  split
  · next rest same =>
    rw [(List.cons.inj same).2] at single
    exact absurd rfl single
  · next same => exact absurd (List.cons.inj same).2 filled
  · next rest _ _ same => rw [(List.cons.inj same).2]
  · next _ _ other => exact absurd rfl (other chars)

/-- Anything else is a file. -/
theorem argument_of_other (other : text.toList = ['-'] ∨ text.toList.head? ≠ some '-') :
    g.argument text = (g.position text).map (·, none) := by
  unfold argument
  split
  · next rest written =>
    rw [written] at other
    rcases other with same | other
    · cases (List.cons.inj same).2
    · exact absurd rfl other
  · cases g.position text <;> rfl
  · next rest _ filled written =>
    rw [written] at other
    rcases other with same | other
    · exact absurd (List.cons.inj same).2 filled
    · exact absurd rfl other
  · cases g.position text <;> rfl

/-- An argument that is read is requests that are accepted. -/
theorem exists_argument (read : g.argument text = some (after, waiting)) :
    ∃ requests, Argument text.toList requests waiting ∧ g.acceptAll requests = some after := by
  unfold argument at read
  split at read
  · next rest written =>
    rw [written]
    exact exists_long read
  · next written =>
    obtain ⟨next, placed, same⟩ := Option.bind_eq_some_iff.1 read
    cases same
    refine ⟨_, .file (.inl written), (acceptAll_single g _).trans ?_⟩
    rw [String.ofList_toList]
    exact placed
  · next rest other filled written =>
    obtain ⟨requests, derived, accepted⟩ := exists_cluster read
    rw [written]
    exact ⟨requests, .cluster filled derived, accepted⟩
  · next other hyphen cluster =>
    obtain ⟨next, placed, same⟩ := Option.bind_eq_some_iff.1 read
    cases same
    refine ⟨_, .file (.inr ?_), (acceptAll_single g _).trans ?_⟩
    · intro first
      obtain ⟨rest, written⟩ := List.head?_eq_some_iff.1 first
      exact cluster rest written
    · rw [String.ofList_toList]
      exact placed

/-- Where requests are written as one argument, they are what is read. -/
theorem argument_of (derived : Argument text.toList requests waiting) :
    g.argument text = (g.acceptAll requests).map (·, waiting) := by
  generalize written : text.toList = chars at derived
  cases derived with
  | file other =>
    rw [← written] at other
    rw [argument_of_other other, acceptAll_single, ← written, String.ofList_toList]
    rfl
  | @flag name f listed =>
    obtain ⟨own, left⟩ := long_name [] listed nofun
    rw [List.append_nil] at own left
    rw [argument_of_hyphens written, long, own, left, mem_longNames_iff.1 listed, acceptAll_single]
    exact Option.map_eq_bind.symm
  | @waiting name s listed =>
    obtain ⟨own, left⟩ := long_name [] listed nofun
    rw [List.append_nil] at own left
    rw [argument_of_hyphens written, long, own, left, mem_longNames_iff.1 listed]
    rfl
  | @assigned name s value listed =>
    obtain ⟨own, left⟩ := long_name ('=' :: value) listed fun c first => by
      cases first
      rfl
    rw [List.cons_append, List.cons_append] at written
    rw [argument_of_hyphens written, long, own, left, mem_longNames_iff.1 listed, acceptAll_single]
    exact Option.map_eq_bind.symm
  | cluster filled derived =>
    rw [argument_of_hyphen written filled derived.head?_ne]
    exact cluster_of derived

/-- A value is a hyphen or begins otherwise. -/
theorem isValue_iff {value : String} :
    isValue value = true ↔ value = "-" ∨ value.toList.head? ≠ some '-' := by
  rw [isValue, Bool.or_eq_true, decide_eq_true_eq, decide_eq_true_eq]

/-- Files one after the other are requests. -/
theorem foldlM_position (g : Given) (paths : List String) :
    paths.foldlM position g = g.acceptAll (paths.map .file) := by
  induction paths generalizing g with
  | nil => rfl
  | cons path rest ih =>
    rw [List.foldlM_cons, List.map_cons, acceptAll]
    exact congrArg _ (funext ih)

/-- Arguments that are read are requests that are accepted. -/
theorem exists_arguments (read : g.arguments waiting arguments = some after) :
    ∃ requests, Spelled waiting arguments requests ∧ g.acceptAll requests = some after := by
  induction arguments generalizing g waiting with
  | nil =>
    cases waiting with
    | none =>
      cases read
      exact ⟨[], .nil, rfl⟩
    | some s => cases read
  | cons text rest ih =>
    cases waiting with
    | some s =>
      rw [Given.arguments] at read
      split at read
      · next value =>
        obtain ⟨next, assigned, later⟩ := Option.bind_eq_some_iff.1 read
        obtain ⟨more, spelled, accepted⟩ := ih later
        exact ⟨_, .value (isValue_iff.1 value) spelled,
          Option.bind_eq_some_iff.2 ⟨next, assigned, accepted⟩⟩
      · cases read
    | none =>
      rw [Given.arguments] at read
      split at read
      · next ends =>
        rw [foldlM_position] at read
        rw [ends]
        exact ⟨_, .ended rest, read⟩
      · obtain ⟨⟨next, waiting⟩, first, later⟩ := Option.bind_eq_some_iff.1 read
        obtain ⟨requests, derived, accepted⟩ := exists_argument first
        obtain ⟨more, spelled, others⟩ := ih later
        refine ⟨_, .argument derived spelled, ?_⟩
        rw [acceptAll_append, accepted]
        exact others

/-- Where requests are written as a list of arguments, they are what is read. -/
theorem arguments_of (spelled : Spelled waiting arguments requests) :
    g.arguments waiting arguments = g.acceptAll requests := by
  induction spelled generalizing g with
  | nil => rfl
  | ended paths => rw [Given.arguments, if_pos rfl, foldlM_position]
  | argument derived _ ih =>
    rw [Given.arguments, if_neg derived.ne_hyphens, argument_of derived, acceptAll_append]
    cases g.acceptAll _ with
    | none => rfl
    | some next => exact ih
  | @value s value rest more plain _ ih =>
    rw [Given.arguments, if_pos (isValue_iff.2 plain), acceptAll]
    exact congrArg _ (funext fun next => ih)

/-- A setting has a value exactly if it was asked for with that value. -/
theorem Holds.value?_eq_some_iff (holds : g.Holds requests) {s : Setting} {value : String} :
    g.value? s = some value ↔ .setting s value ∈ requests := by
  have known : ∀ {value}, g.value? s = some value → .setting s value ∈ requests := by
    intro value found
    obtain ⟨before, later, same, -⟩ := List.lookup_eq_some_iff.1 found
    exact (holds.settings s value).1 (same ▸ List.mem_append_right _ List.mem_cons_self)
  refine ⟨known, fun asked => ?_⟩
  cases found : g.value? s with
  | none =>
    have apart := List.lookup_eq_none_iff.1 found _ ((holds.settings s value).2 asked)
    exact absurd rfl (bne_iff_ne.1 apart)
  | some other =>
    cases List.inj_on_of_nodup_map holds.once (known found) asked rfl
    rfl

end Given

/-! ### Options -/

namespace Options

open Request (Spelled)

variable {o : Options} {requests : List Request} {arguments : List String}

/-- Whether the options are those that the requests ask for, with the usual ones for whatever is not
asked for. -/
structure Meets (o : Options) (requests : List Request) : Prop where
  /-- The standard input is read if that is asked for. -/
  stdin : o.stdin = true ↔ .flag .stdin ∈ requests
  /-- JSON is written if that is asked for. -/
  json : o.json = true ↔ .flag .json ∈ requests
  /-- The result goes to the file that is named for it. -/
  out : ∀ path, o.out = some path ↔ .setting .out path ∈ requests
  /-- The file that is read is the one named. -/
  file : ∀ path, o.file = some path ↔ .file path ∈ requests
  /-- The entry is the one named. -/
  entry : ∀ name, .setting .entry name ∈ requests → o.preferences.entry = name
  /-- If none is named, the entry is the usual one. -/
  usualEntry : (∀ name, .setting .entry name ∉ requests) →
    o.preferences.entry = "\"main\".main"
  /-- The result is checked unless that is declined. -/
  validate : o.preferences.validate = true ↔ .flag .noValidate ∉ requests
  /-- A silent entry stays unless it is let go. -/
  keepSilentEntry : o.preferences.keepSilentEntry = true ↔ .flag .removeSilentEntry ∉ requests
  /-- The result is logged if that is asked for. -/
  debug : o.preferences.debug = true ↔ .flag .debug ∈ requests

/-- Options made of what has been given are those that were asked for. -/
theorem meets_of_holds {g : Given} (holds : g.Holds requests) : g.options.Meets requests where
  stdin := by rw [← holds.flags]; exact decide_eq_true_iff
  json := by rw [← holds.flags]; exact decide_eq_true_iff
  out path := holds.value?_eq_some_iff
  file := holds.file
  entry name asked := by
    rw [Given.options, holds.value?_eq_some_iff.2 asked]
    rfl
  usualEntry unasked := by
    have absent : g.value? .entry = none := Option.eq_none_iff_forall_ne_some.2 fun name same =>
      unasked name (holds.value?_eq_some_iff.1 same)
    rw [Given.options, absent]
    rfl
  validate := by rw [← holds.flags]; exact decide_eq_true_iff
  keepSilentEntry := by rw [← holds.flags]; exact decide_eq_true_iff
  debug := by rw [← holds.flags]; exact decide_eq_true_iff

/-- An accepted list of arguments is a list of requests. -/
theorem spelled_of_ofArguments? (accepted : ofArguments? arguments = some o) :
    ∃ requests, Spelled none arguments requests := by
  obtain ⟨g, read, -⟩ := Option.map_eq_some_iff.1 accepted
  obtain ⟨requests, spelled, -⟩ := Given.exists_arguments read
  exact ⟨requests, spelled⟩

/-- A list of arguments that is these requests stands for the options that they ask for, unless
something is asked for twice. -/
theorem ofArguments?_eq_some_iff (spelled : Spelled none arguments requests) :
    ofArguments? arguments = some o ↔ (requests.map Request.subject).Nodup ∧
      o = (requests.foldl Given.add {}).options := by
  rw [ofArguments?, Given.arguments_of spelled, Option.map_eq_some_iff]
  simp only [Given.holds_nil.acceptAll_eq_some_iff, List.nil_append, and_assoc, exists_and_left,
    exists_eq_left, eq_comm]

/-- The options of an accepted list of arguments are those that its requests ask for, and these ask
for nothing twice. -/
theorem meets_of_ofArguments? (accepted : ofArguments? arguments = some o)
    (spelled : Spelled none arguments requests) :
    (requests.map Request.subject).Nodup ∧ o.Meets requests := by
  obtain ⟨once, rfl⟩ := (ofArguments?_eq_some_iff spelled).1 accepted
  exact ⟨once, meets_of_holds (Given.holds_nil.foldl_add once)⟩

/-- A list of arguments is accepted exactly if it is a list of requests that ask for nothing twice.
-/
theorem isSome_ofArguments?_iff : (ofArguments? arguments).isSome ↔
    ∃ requests, Spelled none arguments requests ∧ (requests.map Request.subject).Nodup := by
  rw [Option.isSome_iff_exists]
  constructor
  · rintro ⟨o, accepted⟩
    obtain ⟨requests, spelled⟩ := spelled_of_ofArguments? accepted
    exact ⟨requests, spelled, (meets_of_ofArguments? accepted spelled).1⟩
  · rintro ⟨requests, spelled, once⟩
    exact ⟨_, (ofArguments?_eq_some_iff spelled).2 ⟨once, rfl⟩⟩

end Options

end BehaviouralTypes
