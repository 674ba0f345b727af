import Mathlib.Data.List.Nodup
import SchemaAtlas.Proofs.Blocks.Table
import SchemaAtlas.Proofs.Links

/-!
Links that are met more than once: when the references of columns repeat one, and which of the
links of a column is left to be the last.
-/

set_option autoImplicit false

namespace SchemaAtlas

variable {R : Type}

/-- No two columns of one name point at the same column of a known table. -/
def Table.LinksOnce (known : List String) (table : Table R) : Prop :=
  table.columns.Pairwise fun first second =>
    first.name = second.name → first.references = second.references →
      ∀ reference, first.references = some reference → reference.table ∉ known

namespace Relationship

def ofTable (table : Table R) : List Relationship :=
  table.columns.filterMap fun column => column.references.map fun reference =>
    link table.id column.name reference.table reference.column

theorem source_of_mem_ofTable {table : Table R} {relationship : Relationship}
    (member : relationship ∈ ofTable table) : relationship.source = table.id := by
  obtain ⟨column, -, linked⟩ := List.mem_filterMap.mp member
  obtain ⟨reference, -, rfl⟩ := Option.map_eq_some_iff.mp linked
  rfl

theorem nodup_ofTable_iff {known : List String} {table : Table R} (inside : table.id ∈ known) :
    (((ofTable table).filter (·.Joins known)).map (·.linkKey)).Nodup ↔
      table.LinksOnce known := by
  rw [List.Nodup, List.pairwise_map, List.pairwise_filter, ofTable, List.pairwise_filterMap,
    Table.LinksOnce]
  constructor
  next =>
    intro apart
    refine apart.imp fun {first second} distinct named same reference referenced target => ?_
    have linked : first.references.map (fun reference =>
        link table.id first.name reference.table reference.column) =
          some (link table.id first.name reference.table reference.column) := by
      rw [referenced, Option.map_some]
    refine distinct _ linked _ (named ▸ same ▸ linked) ?_ ?_ rfl
    · simpa using ⟨inside, target⟩
    · simpa using ⟨inside, target⟩
  next =>
    intro once
    refine once.imp fun {first second} apart source left target right joins _ same => ?_
    obtain ⟨reference, referenced, rfl⟩ := Option.map_eq_some_iff.mp left
    obtain ⟨other, referenced', rfl⟩ := Option.map_eq_some_iff.mp right
    have known : reference.table ∈ known := (of_decide_eq_true joins).2
    simp only [linkKey, link, LinkKey.mk.injEq] at same
    obtain ⟨-, named, tables, columns⟩ := same
    have equal : reference = other := by cases reference; cases other; simp_all
    exact apart named (by rw [referenced, referenced', equal]) reference referenced known

/-- References repeat a link only within a table: tables have ids of their own. -/
theorem nodup_ofReferences_iff {tables : List (Table R)} (distinct : (tables.map (·.id)).Nodup) :
    (((ofReferences tables).filter (·.Joins (tables.map (·.id)))).map (·.linkKey)).Nodup ↔
      ∀ table ∈ tables, table.LinksOnce (tables.map (·.id)) := by
  have apart : tables.Pairwise fun first second => List.Disjoint
      (((ofTable first).filter (·.Joins (tables.map (·.id)))).map (·.linkKey))
      (((ofTable second).filter (·.Joins (tables.map (·.id)))).map (·.linkKey)) := by
    refine (List.pairwise_map.mp distinct).imp fun {first second} ids key left right => ?_
    obtain ⟨one, inside, rfl⟩ := List.mem_map.mp left
    obtain ⟨two, inside', same⟩ := List.mem_map.mp right
    have source := source_of_mem_ofTable (List.mem_filter.mp inside).1
    have source' := source_of_mem_ofTable (List.mem_filter.mp inside').1
    exact ids (source ▸ source' ▸ (congrArg LinkKey.source same).symm)
  rw [show ofReferences tables = tables.flatMap ofTable from rfl, List.filter_flatMap,
    List.map_flatMap, List.nodup_flatMap]
  constructor
  next =>
    rintro ⟨each, -⟩ table member
    exact (nodup_ofTable_iff (List.mem_map_of_mem member)).mp (each table member)
  next =>
    intro once
    refine ⟨fun table member => ?_, apart⟩
    exact (nodup_ofTable_iff (List.mem_map_of_mem member)).mpr (once table member)

/-- The links from a column, in the order in which they are met. -/
def linksFrom (relationships : List Relationship) (source sourceColumn : String) : List LinkKey :=
  (relationships.map (·.linkKey)).filter fun link =>
    link.source = source ∧ link.sourceColumn = sourceColumn

/-- None of the links is met for the first time behind the one that is met last. -/
def LastIsNewest (links : List LinkKey) : Prop :=
  ∀ last, links.getLast? = some last → ∀ link ∈ links, links.idxOf link ≤ links.idxOf last

instance (links : List LinkKey) : Decidable (LastIsNewest links) :=
  inferInstanceAs (Decidable (∀ last ∈ links.getLast?, ∀ link ∈ links, _))

theorem linksFrom_deduplicate (relationships : List Relationship) (source sourceColumn : String) :
    linksFrom (deduplicate relationships) source sourceColumn =
      (linksFrom relationships source sourceColumn).eraseDups := by
  rw [linksFrom, map_linkKey_deduplicate, Firsts.filter_eraseDups, linksFrom]

theorem linkKey_eq_of_mem_linksFrom {relationships : List Relationship}
    {source sourceColumn : String} {first second : LinkKey}
    (one : first ∈ linksFrom relationships source sourceColumn)
    (other : second ∈ linksFrom relationships source sourceColumn)
    (table : first.target = second.target) (column : first.targetColumn = second.targetColumn) :
    first = second := by
  have origin := of_decide_eq_true (List.mem_filter.mp one).2
  have origin' := of_decide_eq_true (List.mem_filter.mp other).2
  cases first
  cases second
  simp_all

end Relationship

namespace Blocks.Model

open Relationship

theorem reference?_eq_getLast? (relationships : List Relationship) (model field : String) :
    reference? relationships model field =
      (linksFrom relationships model field).getLast?.map fun link =>
        { table := link.target, column := link.targetColumn } := by
  rw [reference?, linksFrom, List.filter_map, List.getLast?_map, Option.map_map]
  rfl

/-- The first mention of a link is kept and the last link of a column counts: the two rules agree
only where the last link is also the newest. -/
theorem reference?_deduplicate_iff (relationships : List Relationship) (model field : String) :
    reference? (deduplicate relationships) model field = reference? relationships model field ↔
      LastIsNewest (linksFrom relationships model field) := by
  rw [reference?_eq_getLast?, reference?_eq_getLast?, linksFrom_deduplicate]
  generalize found : linksFrom relationships model field = links
  cases final : links.getLast? with
  | none =>
    rw [List.getLast?_eq_none_iff.mp final]
    simp [LastIsNewest]
  | some last =>
    have member := List.mem_of_getLast? final
    have newest : LastIsNewest links ↔ links.eraseDups.getLast? = some last := by
      rw [Firsts.getLast?_eraseDups_iff member, LastIsNewest, final]
      exact ⟨fun holds => holds last rfl, fun holds _ same => Option.some.inj same ▸ holds⟩
    rw [newest]
    constructor
    next =>
      intro same
      obtain ⟨kept, ends, pointed⟩ := Option.map_eq_some_iff.mp same
      have inside : kept ∈ links := List.mem_eraseDups.mp (List.mem_of_getLast? ends)
      obtain ⟨table, column⟩ := ColumnReference.mk.inj pointed
      subst found
      rw [ends, linkKey_eq_of_mem_linksFrom inside member table column]
    next =>
      intro same
      rw [same]

end Blocks.Model

end SchemaAtlas
