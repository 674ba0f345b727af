import SchemaAtlas.Fluent.Scan
import SchemaAtlas.Proofs.Registry
import SchemaAtlas.Proofs.Schema
import SchemaAtlas.Proofs.Text.Runs

/-!
The coarse reading of a script: its schema obeys the same rules as one that is read structurally,
only that links are never merged and that nothing need be found.
-/

set_option autoImplicit false

namespace SchemaAtlas.Fluent.Scan

theorem column?_speaks (types : TypeProvider) (cs : List Char) :
    FailsOnly Fault.Speaks (column? types cs) := by
  unfold column?
  simp only
  split
  next => exact .ok none
  next name builder modifiers _ =>
    refine .bind (types.speaks _) fun type => ?_
    exact .bind (.mapError Fault.refused_speaks) fun column => .ok (some column)

theorem columns_speaks (types : TypeProvider) (cs : List Char) :
    FailsOnly Fault.Speaks (columns types cs) :=
  .bind (.mapM _ fun entry _ => column?_speaks types entry) fun _ => .ok _

variable {R : Type} [Coordinate R]

theorem addTable_congr {config config' : Config R}
    (keywords : config.drizzleKeywords = config'.drizzleKeywords)
    (types : config.drizzleTypes = config'.drizzleTypes)
    (layout : config.layout = config'.layout) : addTable config = addTable config' := by
  funext draws state opening
  simp only [addTable, keywords, types, layout]

theorem addTable_keeps (config : Config R) (draws : Nat → R) {state : Registry R × Nat}
    (distinct : state.1.Distinct) (opening : Opening) :
    (addTable config draws state opening).Keeps (·.reportsDrop = false) Fault.Speaks
      (·.1.Distinct) := by
  obtain ⟨registry, drawn⟩ := state
  unfold addTable
  simp only
  split
  next => exact .pure distinct
  next name body _ =>
    refine .bind (.ofExcept (columns_speaks _ _) fun _ _ => trivial) fun columns _ => ?_
    exact Registry.enter_keeps drawn (distinct.entered _)

theorem scan_keeps (config : Config R) (draws : Nat → R) (cleaned : List Char) :
    (scan config draws cleaned).Keeps
      (·.Allowed config.onUnresolved) Fault.Speaks
      (fun schema => schema.Settled config.onUnresolved false
        (Relationship.ofReferences schema.tables)) := by
  unfold scan
  have tables := Journaled.Keeps.foldlM
    (Text.allMatches (fun _ => opening?) cleaned)
    (fun state opening _ distinct => addTable_keeps config draws distinct opening)
    ({}, 0) Registry.distinct_empty
  refine (tables.allowed _).bind fun (registry, _) distinct => ?_
  refine .bind (Relationship.resolve_keeps _ _ _) fun kept ⟨same, strict⟩ => .pure ?_
  exact Registry.settled distinct (fun _ => Relationship.isNamed_of_mem_ofReferences) same strict _

theorem readSchema_keeps (config : Config R) (draws : Nat → R) (text : List Char) :
    (readSchema config draws text).Keeps
      (·.Allowed config.onUnresolved)
      (fun fault => fault.isExtractionFault = true ∧ fault.Speaks)
      (fun schema => schema.Settled config.onUnresolved false
        (Relationship.ofReferences schema.tables)) :=
  (scan_keeps config draws _).mapFault fun _ speaks =>
    ⟨Fault.isExtractionFault_inFallback _ _, fun _ => Fault.inFallback_message_ne_empty _ speaks⟩

theorem readSchema_ignore (config : Config R) (draws : Nat → R) (text : List Char) :
    readSchema { config with onUnresolved := .ignore } draws text =
      (readSchema { config with onUnresolved := .warn } draws text).without
        Warning.reportsDrop := by
  rw [readSchema, readSchema, Journaled.without_mapFault]
  congr 1
  have same : addTable { config with onUnresolved := .ignore } =
      addTable { config with onUnresolved := .warn } := addTable_congr rfl rfl rfl
  simp only [scan, same]
  have tables := Journaled.Keeps.foldlM
    (Text.allMatches (fun _ => opening?) (Text.stripComments text))
    (fun state opening _ distinct =>
      addTable_keeps { config with onUnresolved := .warn } draws distinct opening)
    ({}, 0) Registry.distinct_empty
  refine Journaled.bind_eq_without tables.without_eq_self.symm fun registry => ?_
  exact Journaled.bind_eq_without (Relationship.resolve_ignore _ _) fun _ => rfl

theorem readSchema_once (config : Config R) (draws : Nat → R) (text : List Char) :
    readSchema { config with deduplicateRelationships := true } draws text =
      readSchema { config with deduplicateRelationships := false } draws text := by
  have same : addTable { config with deduplicateRelationships := true } =
      addTable { config with deduplicateRelationships := false } := addTable_congr rfl rfl rfl
  simp only [readSchema, scan, same]

theorem readSchema_fail_or (config : Config R) (draws : Nat → R) (text : List Char) :
    Journaled.FailsOr (·.isUnresolvedReference = true)
      (readSchema { config with onUnresolved := .fail } draws text)
      (readSchema { config with onUnresolved := .warn } draws text) := by
  have same : addTable { config with onUnresolved := .fail } =
      addTable { config with onUnresolved := .warn } := addTable_congr rfl rfl rfl
  refine .mapFault ?_ fun _ => Fault.isUnresolvedReference_inFallback _
  simp only [scan, same]
  refine .bind (.refl _) fun registry => ?_
  exact (Relationship.resolve_fail_or _ _ _).bind fun _ => .refl _

/-- With a dictionary of types every entry is a column, of a word and with a type, or passed over. -/
theorem column?_returns (types : TypeMap) (cs : List Char) :
    ∃ found, column? types.provider cs = .ok found ∧
      ∀ column ∈ found, Text.IsWordText column.name.toList ∧ column.type ≠ "" := by
  unfold column?
  simp only
  split
  next => exact ⟨none, rfl, nofun⟩
  next name builder modifiers parts =>
    simp only [Option.bind_eq_bind, Option.bind_eq_some_iff] at parts
    obtain ⟨⟨key, cs₁⟩, first, cs₂, -, ⟨callee, cs₃⟩, second, cs₄, -, same⟩ := parts
    cases same
    have word := Text.isWordText_of_takeWord? first
    have called := Text.isWordText_of_takeWord? second
    have typed : ((types.resolve (String.ofList callee)).filter (· ≠ "")).getD
        (String.ofList callee) ≠ "" := by
      cases held : (types.resolve (String.ofList callee)).filter (· ≠ "") with
      | none => simpa using called.1
      | some type => simpa using (Option.filter_eq_some_iff.mp held).2
    have resolved : types.provider.resolve (String.ofList callee) =
        .ok (types.resolve (String.ofList callee)) := rfl
    simp only [resolved, bind, Except.bind,
      Column.ofFields?_ok (by simpa using word.1 : String.ofList key ≠ "") typed]
    refine ⟨_, rfl, ?_⟩
    rintro _ ⟨⟩
    exact ⟨by simpa using word, typed⟩

theorem columns_returns (types : TypeMap) (cs : List Char) :
    ∃ found, columns types.provider cs = .ok found := by
  have each (entries : List (List Char)) :
      ∃ found, entries.mapM (column? types.provider) = .ok found := by
    obtain ⟨found, mapped, -⟩ := exists_mapM (List.forall₂_same.mpr fun _ _ => trivial)
      fun entry (_ : entry ∈ entries) other (_ : True) => column?_returns types other
    exact ⟨found, mapped⟩
  obtain ⟨found, mapped⟩ := each (Text.splitCommas (((Text.closeGroup? '\x7b' cs).map (·.1)).getD cs))
  exact ⟨_, bind_eq_ok.mpr ⟨found, mapped, rfl⟩⟩

section Lenient

variable {config : Config R} {types : TypeMap} (known : config.drizzleTypes = types.provider)

include known

theorem addTable_returns (draws : Nat → R) (state : Registry R × Nat) (opening : Opening) :
    (addTable config draws state opening).Returns fun _ => True := by
  obtain ⟨registry, drawn⟩ := state
  unfold addTable
  simp only
  split
  next => exact .pure trivial
  next name body _ =>
    obtain ⟨found, read⟩ := columns_returns types body
    rw [known]
    refine (Journaled.Returns.ofExcept read).bind fun _ _ => ?_
    refine (Journaled.Returns.record _).bind fun _ _ => ?_
    exact (Registry.register_returns _ _).bind fun _ _ => .pure trivial

/-- With a dictionary of types a coarse reading succeeds, unless unknown tables are to be faults. -/
theorem readSchema_completes (lenient : config.onUnresolved ≠ .fail) (draws : Nat → R)
    (text : List Char) :
    (readSchema config draws text).Returns fun schema =>
      schema.enums = (Text.allMatches (fun _ => opening?) (Text.stripComments text)).filterMap
        (enumeration? config.drizzleKeywords) := by
  have tables (openings : List Opening) :
      (openings.foldlM (addTable config draws) ({}, 0)).Returns fun _ => True :=
    .foldlM openings (fun state opening _ _ => addTable_returns known draws state opening) _ trivial
  refine .mapFault _ ?_
  refine (tables _).bind fun (registry, _) _ => ?_
  exact (Relationship.resolve_returns fun strict => absurd strict lenient).bind fun kept _ => .pure rfl

end Lenient

theorem readSchema_returns (draws : Nat → R) (text : List Char) :
    (readSchema Config.default draws text).Returns fun schema =>
      schema.enums = (Text.allMatches (fun _ => opening?) (Text.stripComments text)).filterMap
        (enumeration? {}) :=
  readSchema_completes rfl (show ErrorMode.warn ≠ .fail by decide) draws text

end SchemaAtlas.Fluent.Scan
