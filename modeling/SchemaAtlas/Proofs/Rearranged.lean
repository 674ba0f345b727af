import Mathlib.Data.Multiset.AddSub
import SchemaAtlas.Proofs.Registry

/-!
Lists in another order: the same relationships are kept of candidates, and the finished tables of a
registry hold the same.
-/

set_option autoImplicit false

namespace SchemaAtlas

/-- What a table holds besides its place, with its indexes in no order. -/
@[ext]
structure TableContents where
  id : String
  name : String
  columns : List Column
  indexes : Multiset Index

namespace TableContents

def addIndexes (contents : TableContents) (indexes : Multiset Index) : TableContents :=
  { contents with indexes := contents.indexes + indexes }

-- Relationships do not look at indexes or at places.
def references (contents : TableContents) : List Relationship :=
  contents.columns.filterMap fun column => column.references.map fun reference =>
    Relationship.link contents.id column.name reference.table reference.column

end TableContents

namespace Table

variable {R : Type}

def contents (table : Table R) : TableContents where
  id := table.id
  name := table.name
  columns := table.columns
  indexes := table.indexes

theorem contents_addIndexes (table : Table R) (indexes : List Index) :
    (table.addIndexes indexes).contents = table.contents.addIndexes indexes := by
  simp [contents, addIndexes, TableContents.addIndexes]

end Table

/-- Two schemas hold the same but for the order and the places of their tables. -/
structure Schema.SameContents {R : Type} (schema other : Schema R) : Prop where
  tables : (schema.tables.map Table.contents).Perm (other.tables.map Table.contents)
  relationships : schema.relationships.Perm other.relationships
  enums : schema.enums.Perm other.enums

theorem Schema.SameContents.isEmpty {R : Type} {schema other : Schema R}
    (same : schema.SameContents other) : schema.isEmpty = other.isEmpty := by
  have tables := same.tables.isEmpty_eq
  rw [List.isEmpty_map, List.isEmpty_map] at tables
  rw [Schema.isEmpty, Schema.isEmpty, tables, same.enums.isEmpty_eq]

namespace Relationship

theorem eq_of_linkKey {first second : Relationship} (named : first.IsNamed)
    (named' : second.IsNamed) (same : first.linkKey = second.linkKey) : first = second := by
  obtain ⟨source, sourceColumn, target, targetColumn⟩ := LinkKey.mk.inj same
  rw [IsNamed] at named named'
  cases first
  cases second
  simp_all

theorem deduplicate_perm {candidates others : List Relationship} (perm : candidates.Perm others)
    (named : ∀ candidate ∈ candidates, candidate.IsNamed) :
    (deduplicate candidates).Perm (deduplicate others) := by
  have once (relationships : List Relationship) : (deduplicate relationships).Nodup := by
    have links : ((deduplicate relationships).map (·.linkKey)).Nodup := by
      rw [map_linkKey_deduplicate]
      exact Firsts.nodup_eraseDups _
    exact links.of_map
  -- A kept relationship is the only candidate of its link, so that both sides keep it.
  have kept {first second : List Relationship} (within : first ⊆ second)
      (named : ∀ candidate ∈ second, candidate.IsNamed) (relationship : Relationship)
      (member : relationship ∈ deduplicate first) : relationship ∈ deduplicate second := by
    have inside := within (mem_of_mem_deduplicate member)
    obtain ⟨other, present, linked⟩ := exists_mem_deduplicate inside
    have same := eq_of_linkKey (named _ (mem_of_mem_deduplicate present)) (named _ inside) linked
    exact same ▸ present
  have named' : ∀ candidate ∈ others, candidate.IsNamed := fun candidate member =>
    named candidate (perm.mem_iff.mpr member)
  rw [List.perm_ext_iff_of_nodup (once candidates) (once others)]
  exact fun relationship => ⟨kept perm.subset named' relationship,
    kept perm.symm.subset named relationship⟩

theorem joins_congr {tables others : List String} (same : ∀ id, id ∈ tables ↔ id ∈ others)
    (relationship : Relationship) : relationship.Joins tables ↔ relationship.Joins others := by
  rw [Joins, Joins, same, same]

theorem admitted_perm {tables others : List String} (same : ∀ id, id ∈ tables ↔ id ∈ others)
    {candidates listed : List Relationship} (perm : candidates.Perm listed)
    (named : ∀ candidate ∈ candidates, candidate.IsNamed) (once : Bool) :
    (admitted once tables candidates).Perm (admitted once others listed) := by
  have filtered : (candidates.filter (·.Joins tables)).Perm (listed.filter (·.Joins others)) := by
    simp only [joins_congr same]
    exact perm.filter _
  unfold admitted
  split
  next =>
    refine deduplicate_perm filtered fun candidate member => ?_
    exact named candidate (List.mem_filter.mp member).1
  next => exact filtered

/-- A strict mode asks every candidate to join known tables. -/
theorem settle_eq_ok {tables : List String} {mode : ErrorMode} {once : Bool}
    {candidates settled : List Relationship} :
    (settle tables mode once candidates).outcome = .ok settled ↔
      settled = admitted once tables candidates ∧
        (mode = .fail → ∀ candidate ∈ candidates, candidate.Joins tables) := by
  constructor
  next => exact (settle_keeps tables mode once candidates).value settled
  next =>
    rintro ⟨rfl, strict⟩
    obtain ⟨settled, found, -⟩ : (settle tables mode once candidates).Returns fun _ => True :=
      (resolve_returns strict).bind fun _ _ => .pure trivial
    obtain ⟨rfl, -⟩ := (settle_keeps tables mode once candidates).value settled found
    exact found

end Relationship

namespace Registry

variable {R R' : Type}

def contents (registry : Registry R) : List TableContents := registry.tables.map Table.contents

theorem map_id_contents (registry : Registry R) :
    registry.contents.map (·.id) = registry.tableIds := by
  simp [contents, tableIds, Function.comp_def, Table.contents]

theorem hasTable_eq (registry : Registry R) (id : String) :
    registry.hasTable id = decide (id ∈ registry.tableIds) := by
  rw [hasTable, tableIds, Bool.eq_iff_iff]
  simp

theorem register_of_new {registry : Registry R} {table : Table R}
    (new : table.id ∉ registry.tableIds) :
    (registry.register table).outcome =
      .ok { registry with tables := registry.tables ++ [table] } := by
  obtain ⟨entered, registered, rfl⟩ := register_returns registry table
  rw [registered, put_eq, Keyed.put_of_new new]

theorem map_contents_merged (registry : Registry R) :
    registry.merged.map Table.contents = registry.contents.map fun contents =>
      contents.addIndexes (registry.pendingIndexes contents.id) := by
  rw [merged, contents, List.map_map, List.map_map]
  exact List.map_congr_left fun table _ => table.contents_addIndexes _

theorem ofReferences_merged (registry : Registry R) :
    Relationship.ofReferences registry.merged =
      registry.contents.flatMap TableContents.references := by
  rw [merged, contents, Relationship.ofReferences, List.flatMap_map, List.flatMap_map]
  rfl

/-- Two registries hold the same tables and the same waiting indexes in another order. -/
structure Rearranged (registry : Registry R) (other : Registry R') : Prop where
  contents : registry.contents.Perm other.contents
  pending : registry.pending.Perm other.pending

namespace Rearranged

variable {registry : Registry R} {other : Registry R'}

theorem tableIds (rearranged : registry.Rearranged other) :
    registry.tableIds.Perm other.tableIds := by
  rw [← map_id_contents, ← map_id_contents]
  exact rearranged.contents.map _

theorem merged (rearranged : registry.Rearranged other) :
    (registry.merged.map Table.contents).Perm (other.merged.map Table.contents) := by
  have waiting (id : String) : (registry.pendingIndexes id : Multiset Index) =
      other.pendingIndexes id :=
    Multiset.coe_eq_coe.mpr ((rearranged.pending.filter _).map _)
  rw [map_contents_merged, map_contents_merged]
  simp only [waiting]
  exact rearranged.contents.map _

theorem ofReferences (rearranged : registry.Rearranged other) :
    (Relationship.ofReferences registry.merged).Perm (Relationship.ofReferences other.merged) := by
  rw [ofReferences_merged, ofReferences_merged]
  exact rearranged.contents.flatMap fun _ _ => .refl _

end Rearranged

end Registry

end SchemaAtlas
