import SchemaAtlas.Proofs.Drawing
import SchemaAtlas.Proofs.Keyed
import SchemaAtlas.Proofs.Schema
import SchemaAtlas.Schema.Registry

/-!
The registry of one extraction: every id has one table, and neither registering nor attaching
fails.
-/

set_option autoImplicit false

namespace SchemaAtlas.Registry

variable {R : Type}

theorem put_eq (tables : List (Table R)) (table : Table R) :
    put tables table = Keyed.put (·.id) tables table := by
  induction tables with
  | nil => rfl
  | cons other tables ih => rw [put, Keyed.put, ih]

def Distinct (registry : Registry R) : Prop := registry.tableIds.Nodup

theorem distinct_empty : ({} : Registry R).Distinct := List.nodup_nil

variable {fails : Fault → Prop} {registry : Registry R}

theorem Distinct.entered (distinct : registry.Distinct) (table : Table R) :
    Distinct { registry with tables := put registry.tables table } := by
  rw [put_eq]
  exact Keyed.nodup_keys_put table distinct

theorem register_keeps {invariant : Registry R → Prop} {table : Table R}
    (kept : invariant { registry with tables := put registry.tables table }) :
    (registry.register table).Keeps (·.reportsDrop = false) fails invariant := by
  unfold register
  split
  next =>
    exact (Journaled.reportRedeclaration_keeps table.id).bind fun _ _ => .pure kept
  next => exact .pure kept

theorem register_returns (registry : Registry R) (table : Table R) :
    (registry.register table).Returns
      (· = { registry with tables := put registry.tables table }) := by
  unfold register
  split
  next => exact (Journaled.Returns.record _).bind fun _ _ => .pure rfl
  next => exact .pure rfl

theorem register_gives (registry : Registry R) (table : Table R) :
    (registry.register table).Gives fun drawn next =>
      drawn = 0 ∧ next = { registry with tables := put registry.tables table } := by
  have reported : (Journaled.reportRedeclaration table.id).Gives fun drawn _ => drawn = 0 :=
    .record rfl
  unfold register
  split
  next => exact reported.bind fun _ _ none => .pure ⟨none, rfl⟩
  next => exact .pure ⟨rfl, rfl⟩

/-- The last steps of every reader of a table: a number is drawn and the table is registered. -/
theorem enter_keeps {invariant : Registry R → Prop} {table : Table R} (drawn : Nat)
    (kept : invariant { registry with tables := put registry.tables table }) :
    Journaled.Keeps (·.reportsDrop = false) fails (invariant ·.1) (do
      Journaled.record { draws := 1 }
      let next ← registry.register table
      return (next, drawn + 1)) := by
  -- The number counts even if the table replaces another.
  refine Journaled.draw_keeps.bind fun _ _ => ?_
  exact (register_keeps kept).bind fun _ held => .pure held

theorem attach_keeps (distinct : registry.Distinct) (id : String) (index : Index) :
    (registry.attach id index).Keeps (·.reportsDrop = false) fails (·.2.Distinct) := by
  unfold attach
  split
  next => exact .pure distinct
  next =>
    refine .bind (.warn (Warning.reportsDrop_unresolved_index _ _)) fun _ _ => ?_
    exact .pure distinct

theorem attach_gives (registry : Registry R) (id : String) (index : Index) :
    (registry.attach id index).Gives fun _ found => found.2.tables = registry.tables := by
  unfold attach
  split
  next => exact .pure rfl
  next => exact (Journaled.Gives.warn _).bind fun _ _ _ => .pure rfl

theorem mem_merged {table : Table R} (member : table ∈ registry.merged) :
    ∃ registered ∈ registry.tables, registered.columns = table.columns := by
  obtain ⟨registered, present, rfl⟩ := List.mem_map.mp member
  exact ⟨registered, present, rfl⟩

@[simp] theorem ids_merged (registry : Registry R) :
    registry.merged.map (·.id) = registry.tableIds := by
  simp [merged, tableIds, Table.addIndexes]

theorem settled {mode : ErrorMode} {once : Bool} {candidates relationships : List Relationship}
    (distinct : registry.Distinct) (named : ∀ candidate ∈ candidates, candidate.IsNamed)
    (same : relationships = Relationship.admitted once registry.tableIds candidates)
    (strict : mode = .fail → ∀ candidate ∈ candidates, candidate.Joins registry.tableIds)
    (enums : List Enumeration) :
    Schema.Settled { tables := registry.merged, relationships, enums } mode once candidates := by
  have ids : Schema.tableIds { tables := registry.merged, relationships, enums } =
      registry.tableIds := ids_merged registry
  refine ⟨?_, named, ?_, ?_⟩
  next => rw [ids]; exact distinct
  next => rw [ids]; exact same
  next => rw [ids]; exact strict

end SchemaAtlas.Registry
