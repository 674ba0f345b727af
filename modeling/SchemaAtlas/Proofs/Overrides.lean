import Mathlib.Data.List.Infix
import SchemaAtlas.Proofs.Journaled
import SchemaAtlas.Proofs.Keyed
import SchemaAtlas.Types.Provider

/-!
Type dictionaries under a series of overrides. A dictionary is the merge of all entries it was ever
given, so that what it says of a name is what the last mapping with that name says, and a mapping is
refused for what it says itself, never for what was there before.
-/

set_option autoImplicit false

namespace SchemaAtlas.TypeMap

/-- What a list of entries says of a name: the last entry counts. -/
def given? (entries : List (String × String)) (name : String) : Option String :=
  ((entries.filter (·.1 = name)).getLast?).map (·.2)

/-- Whether a list of entries maps some name to an empty type. -/
def GivesEmptyType (entries : List (String × String)) : Prop :=
  ∃ name, given? entries name = some ""

section Entries

variable (entries others : List (String × String)) (name : String)

theorem given?_append :
    given? (entries ++ others) name = (given? others name).or (given? entries name) := by
  rw [given?, List.filter_append, List.getLast?_append, Option.map_or]
  rfl

theorem given?_flatten (mappings : List (List (String × String))) :
    given? mappings.flatten name = mappings.reverse.findSome? (given? · name) := by
  induction mappings with
  | nil => rfl
  | cons mapping mappings ih =>
    rw [List.flatten_cons, given?_append, ih, List.reverse_cons, List.findSome?_append]
    simp

theorem given?_eq_none_iff : given? entries name = none ↔ name ∉ entries.map (·.1) := by
  rw [given?, Option.map_eq_none_iff, List.getLast?_eq_none_iff, List.filter_eq_nil_iff]
  simp only [decide_eq_true_eq, List.mem_map, not_exists, not_and]

theorem given?_ne_empty {entries : List (String × String)}
    (typed : ∀ entry ∈ entries, entry.2 ≠ "") : given? entries name ≠ some "" := by
  intro empty
  obtain ⟨entry, last, same⟩ := Option.map_eq_some_iff.mp empty
  exact typed entry (List.mem_filter.mp (List.mem_of_getLast? last)).1 same

theorem put_eq (type : String) : put entries name type = Keyed.put (·.1) entries (name, type) := by
  induction entries with
  | nil => rfl
  | cons entry entries ih => rw [put, Keyed.put, ih]

/-- The entries of a dictionary that is made of a list of entries. -/
abbrev merge : List (String × String) := Keyed.merge (·.1) entries

theorem merge_eq : entries.foldl (fun merged entry => put merged entry.1 entry.2) [] =
    merge entries := by
  simp only [put_eq]
  rfl

theorem find?_merge : ((merge entries).find? (·.1 = name)).map (·.2) = given? entries name := by
  rw [merge, Keyed.find?_merge, given?]

theorem givesEmptyType_iff : GivesEmptyType entries ↔ ∃ entry ∈ merge entries, entry.2 = "" := by
  constructor
  next =>
    rintro ⟨name, empty⟩
    rw [← find?_merge] at empty
    obtain ⟨entry, found, same⟩ := Option.map_eq_some_iff.mp empty
    exact ⟨entry, List.mem_of_find?_eq_some found, same⟩
  next =>
    rintro ⟨entry, member, empty⟩
    have found := (find?_eq_some_of_nodup (Keyed.nodup_keys_merge entries)).mpr ⟨member, rfl⟩
    exact ⟨entry.1, by rw [← find?_merge, found, Option.map_some, empty]⟩

end Entries

section Made

variable {entries : List (String × String)} {map : TypeMap}

theorem ofEntries?_eq_ok : ofEntries? entries = .ok map ↔ map.entries = merge entries := by
  rw [← merge_eq]
  unfold ofEntries?
  simp only
  split
  next entry found =>
    have empty : entry.2 = "" := by simpa using List.find?_some found
    refine ⟨nofun, fun same => ?_⟩
    exact absurd empty (map.type_ne_empty entry (same ▸ List.mem_of_find?_eq_some found))
  next =>
    constructor
    next =>
      intro made
      cases made
      rfl
    next =>
      intro same
      cases map
      cases same
      rfl

theorem ofEntries?_refused_iff :
    (∃ refusal, ofEntries? entries = .error refusal) ↔ GivesEmptyType entries := by
  rw [givesEmptyType_iff, ← merge_eq]
  unfold ofEntries?
  simp only
  split
  next entry found =>
    have empty : entry.2 = "" := by simpa using List.find?_some found
    exact iff_of_true ⟨_, rfl⟩ ⟨entry, List.mem_of_find?_eq_some found, empty⟩
  next none =>
    refine iff_of_false nofun ?_
    rintro ⟨entry, member, empty⟩
    exact List.find?_eq_none.mp none entry member (decide_eq_true empty)

/-- What a dictionary holds already is never the reason to refuse more. -/
theorem withOverrides?_refused_iff (map : TypeMap) (step : List (String × String)) :
    (∃ refusal, map.withOverrides? step = .error refusal) ↔ GivesEmptyType step := by
  rw [withOverrides?, ofEntries?_refused_iff]
  refine exists_congr fun name => ?_
  -- The new entries come last: only where they are silent do the old ones count, none of them empty.
  rw [given?_append, Option.or_eq_some_iff]
  exact or_iff_left fun old => given?_ne_empty name map.type_ne_empty old.2

theorem ofEntries?_of_withOverrides? {step : List (String × String)} {next : TypeMap}
    (made : ofEntries? entries = .ok map) (accepted : map.withOverrides? step = .ok next) :
    ofEntries? (entries ++ step) = .ok next := by
  rw [withOverrides?, ofEntries?_eq_ok, ofEntries?_eq_ok.mp made, merge,
    Keyed.merge_merge_append] at accepted
  exact ofEntries?_eq_ok.mpr accepted

end Made

/-- What a dictionary says that is made of a base and of overrides after it. -/
structure Answers (base : List (String × String)) (steps : List (List (String × String)))
    (map : TypeMap) : Prop where
  resolve : ∀ name, map.resolve name =
    (steps.reverse.findSome? (given? · name)).or (given? base name)
  hasType : ∀ name, map.hasType name = true ↔ name ∈ map.typeNames
  typeNames : map.typeNames = ((base ++ steps.flatten).map (·.1)).eraseDups
  distinct : map.typeNames.Nodup
  filled : ∀ name, map.resolve name ≠ some ""

theorem answers_of_made {base : List (String × String)} {steps : List (List (String × String))}
    {map : TypeMap} (named : ∀ mapping ∈ base :: steps, ∀ entry ∈ mapping, entry.1 ≠ "")
    (made : ofEntries? (base ++ steps.flatten) = .ok map) : map.Answers base steps := by
  have entries := ofEntries?_eq_ok.mp made
  have known : ∀ name ∈ (base ++ steps.flatten).map (·.1), name ≠ "" := by
    intro name member
    obtain ⟨entry, inside, rfl⟩ := List.mem_map.mp member
    rw [← List.flatten_cons] at inside
    obtain ⟨mapping, given, listed⟩ := List.mem_flatten.mp inside
    exact named mapping given entry listed
  have names : map.typeNames = ((base ++ steps.flatten).map (·.1)).eraseDups := by
    rw [typeNames, entries, merge, Keyed.keys_merge]
  have resolved (name : String) : map.resolve name = given? (base ++ steps.flatten) name := by
    -- The empty name is never looked up; no mapping has it.
    unfold resolve
    split
    next empty =>
      have absent : name ∉ (base ++ steps.flatten).map (·.1) := fun member =>
        known name member empty
      rw [(given?_eq_none_iff _ _).mpr absent]
    next => rw [entries, find?_merge]
  refine ⟨fun name => ?_, fun name => ?_, names, ?_, fun name empty => ?_⟩
  next => rw [resolved, given?_append, given?_flatten]
  next =>
    rw [hasType, resolved, names, List.mem_eraseDups, Option.isSome_iff_ne_none, Ne,
      given?_eq_none_iff, not_not]
  next =>
    rw [names]
    exact Firsts.nodup_eraseDups _
  next => exact (resolve_eq_some empty).2 rfl

/-- The dictionaries that a series of overrides leaves behind, up to the newest. -/
structure Chain where
  earlier : List TypeMap := []
  newest : TypeMap

namespace Chain

variable {base step : List (String × String)} {steps : List (List (String × String))}
  {chain next : Chain}

def maps (chain : Chain) : List TypeMap := chain.earlier ++ [chain.newest]

def extend (chain : Chain) (step : List (String × String)) : Except Refusal Chain := do
  return { earlier := chain.maps, newest := ← chain.newest.withOverrides? step }

def ofSteps? (base : List (String × String)) (steps : List (List (String × String))) :
    Except Refusal Chain := do
  steps.foldlM extend { newest := ← ofEntries? base }

theorem maps_extend (extended : chain.extend step = .ok next) :
    chain.newest.withOverrides? step = .ok next.newest ∧
      next.maps = chain.maps ++ [next.newest] := by
  obtain ⟨map, accepted, same⟩ := bind_eq_ok.mp extended
  cases same
  exact ⟨accepted, rfl⟩

theorem exists_extend_iff : (∃ next, chain.extend step = .ok next) ↔ ¬ GivesEmptyType step := by
  rw [← withOverrides?_refused_iff chain.newest, ← exists_eq_ok_iff]
  constructor
  next =>
    rintro ⟨next, extended⟩
    exact ⟨_, (maps_extend extended).1⟩
  next =>
    rintro ⟨map, accepted⟩
    exact ⟨_, bind_eq_ok.mpr ⟨map, accepted, rfl⟩⟩

theorem ofSteps?_concat : ofSteps? base (steps ++ [step]) =
    ofSteps? base steps >>= fun chain => chain.extend step := by
  simp [ofSteps?, List.foldlM_append]

theorem ofSteps?_append (later : List (List (String × String))) :
    ofSteps? base (steps ++ later) =
      ofSteps? base steps >>= fun chain => later.foldlM extend chain := by
  simp [ofSteps?, List.foldlM_append]

/-- Each dictionary of a chain is made of the base and of the steps up to it, and of nothing else. -/
structure Holds (base : List (String × String)) (steps : List (List (String × String)))
    (chain : Chain) : Prop where
  newest : ofEntries? (base ++ steps.flatten) = .ok chain.newest
  maps : List.Forall₂ (fun front map => ofEntries? (base ++ front.flatten) = .ok map) steps.inits
    chain.maps

theorem Holds.start {map : TypeMap} (made : ofEntries? base = .ok map) :
    Holds base [] { newest := map } := by
  have whole : ofEntries? (base ++ [].flatten) = .ok map := by
    rwa [List.flatten_nil, List.append_nil]
  exact ⟨whole, .cons whole .nil⟩

theorem Holds.extend (holds : Holds base steps chain) (extended : chain.extend step = .ok next) :
    Holds base (steps ++ [step]) next := by
  obtain ⟨accepted, maps⟩ := maps_extend extended
  have newest : ofEntries? (base ++ (steps ++ [step]).flatten) = .ok next.newest := by
    rw [List.flatten_append, List.flatten_singleton, ← List.append_assoc]
    exact ofEntries?_of_withOverrides? holds.newest accepted
  refine ⟨newest, ?_⟩
  rw [maps, List.inits_append]
  exact List.rel_append holds.maps (.cons newest .nil)

theorem holds_of_steps (ran : ofSteps? base steps = .ok chain) : Holds base steps chain := by
  -- From the end, where the newest dictionary takes one more step.
  induction steps using List.reverseRecOn generalizing chain with
  | nil =>
    obtain ⟨map, made, same⟩ := bind_eq_ok.mp ran
    cases same
    exact .start made
  | append_singleton steps step ih =>
    rw [ofSteps?_concat] at ran
    obtain ⟨before, ran, extended⟩ := bind_eq_ok.mp ran
    exact (ih ran).extend extended

theorem exists_chain_iff : (∃ chain, ofSteps? base steps = .ok chain) ↔
    ∀ mapping ∈ base :: steps, ¬ GivesEmptyType mapping := by
  -- Whether a step is accepted does not depend on the chain that it extends, so that each mapping
  -- can be judged on its own.
  induction steps using List.reverseRecOn with
  | nil =>
    rw [List.forall_mem_singleton, ← ofEntries?_refused_iff, ← exists_eq_ok_iff]
    constructor
    next =>
      rintro ⟨chain, ran⟩
      obtain ⟨map, made, -⟩ := bind_eq_ok.mp ran
      exact ⟨map, made⟩
    next =>
      rintro ⟨map, made⟩
      exact ⟨_, bind_eq_ok.mpr ⟨map, made, rfl⟩⟩
  | append_singleton steps step ih =>
    rw [← List.cons_append, List.forall_mem_append, List.forall_mem_singleton, ← ih]
    simp only [ofSteps?_concat, bind_eq_ok]
    constructor
    next =>
      rintro ⟨next, chain, ran, extended⟩
      exact ⟨⟨chain, ran⟩, exists_extend_iff.mp ⟨next, extended⟩⟩
    next =>
      rintro ⟨⟨chain, ran⟩, typed⟩
      obtain ⟨next, extended⟩ := exists_extend_iff.mpr typed
      exact ⟨next, chain, ran, extended⟩

/-- What comes later leaves the dictionaries at hand as they are. -/
theorem prefix_of_steps (ran : steps.foldlM extend chain = .ok next) : chain.maps <+: next.maps := by
  induction steps generalizing chain with
  | nil =>
    cases ran
    exact List.prefix_refl _
  | cons step steps ih =>
    rw [List.foldlM_cons] at ran
    obtain ⟨between, extended, ran⟩ := bind_eq_ok.mp ran
    have first : chain.maps <+: between.maps := by
      rw [(maps_extend extended).2]
      exact List.prefix_append _ _
    exact first.trans (ih ran)

end Chain

/-- Overrides one after the other, on a base, each mapping from names that are not empty: they are
all accepted if none of them maps a name to an empty type, and each dictionary on the way answers by
the mappings up to it alone, then as ever after. -/
theorem chain_answers {base : List (String × String)} {steps : List (List (String × String))}
    (named : ∀ mapping ∈ base :: steps, ∀ entry ∈ mapping, entry.1 ≠ "") :
    ((∃ chain, Chain.ofSteps? base steps = .ok chain) ↔
      ∀ mapping ∈ base :: steps, ¬ GivesEmptyType mapping) ∧
    ∀ chain, Chain.ofSteps? base steps = .ok chain →
      List.Forall₂ (Answers base) steps.inits chain.maps ∧
      (∀ front, front <+: steps → ∃ before, Chain.ofSteps? base front = .ok before ∧
        before.maps <+: chain.maps) ∧
      ∀ step, (∃ refusal, chain.newest.withOverrides? step = .error refusal) ↔
        GivesEmptyType step := by
  refine ⟨Chain.exists_chain_iff, fun chain ran => ⟨?_, fun front within => ?_, fun step =>
    withOverrides?_refused_iff chain.newest step⟩⟩
  next =>
    -- Only the mappings up to a dictionary count for it, and these have names that are not empty.
    have fronts : ∀ front ∈ steps.inits, ∀ mapping ∈ base :: front, ∀ entry ∈ mapping,
        entry.1 ≠ "" := fun front member mapping given =>
      named mapping ((List.cons_subset_cons _ ((List.mem_inits _ _).mp member).subset) given)
    have made := (Chain.holds_of_steps ran).maps
    exact ((List.forall₂_and_left _ _).mpr ⟨fronts, made⟩).imp fun _ _ here =>
      answers_of_made here.1 here.2
  next =>
    obtain ⟨later, rfl⟩ := within
    rw [Chain.ofSteps?_append] at ran
    obtain ⟨before, reached, ran⟩ := bind_eq_ok.mp ran
    exact ⟨before, reached, Chain.prefix_of_steps ran⟩

def scalars : List (String × String) := [("Int", "integer"), ("String", "text")]

def widenings : List (List (String × String)) :=
  [[("Money", "numeric"), ("Int", "bigint")], [("Int", "int8")]]

theorem chain_answers_widenings :
    (∀ mapping ∈ scalars :: widenings, ∀ entry ∈ mapping, entry.1 ≠ "") ∧
      ∃ chain, Chain.ofSteps? scalars widenings = .ok chain ∧
        chain.maps.map (·.resolve "Int") = [some "integer", some "bigint", some "int8"] ∧
        chain.newest.typeNames = ["Int", "String", "Money"] ∧
        List.Forall₂ (Answers scalars) widenings.inits chain.maps ∧
        ∃ refusal, chain.newest.withOverrides? [("Uuid", "uuid"), ("Int", "")] =
          .error refusal := by
  have named : ∀ mapping ∈ scalars :: widenings, ∀ entry ∈ mapping, entry.1 ≠ "" := by decide
  have ran : (Chain.ofSteps? scalars widenings).toOption.map (fun chain =>
      (chain.maps.map (·.resolve "Int"), chain.newest.typeNames)) =
      some ([some "integer", some "bigint", some "int8"], ["Int", "String", "Money"]) := by
    decide +kernel
  obtain ⟨chain, held, found⟩ := Option.map_eq_some_iff.mp ran
  obtain ⟨resolved, names⟩ := Prod.mk.inj found
  have ran := toOption_eq_some.mp held
  obtain ⟨answers, -, refuses⟩ := (chain_answers named).2 chain ran
  exact ⟨named, chain, ran, resolved, names, answers, (refuses _).mpr ⟨"Int", by decide⟩⟩

end SchemaAtlas.TypeMap
