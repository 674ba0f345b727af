import Mathlib.Algebra.Order.Ring.Rat
import Mathlib.Tactic.Linarith
import Mathlib.Tactic.NormNum
import Mathlib.Tactic.Ring
import SchemaAtlas.Proofs.Extraction.Columns

/-!
Positions of extracted tables in exact arithmetic. A table whose id is declared once stands at its
own place. One that is declared again stands further on, where it may meet another.
-/

set_option autoImplicit false

namespace SchemaAtlas

instance (priority := low) Coordinate.ofRing {R : Type} [CommRing R] [LinearOrder R] :
    Coordinate R where
  ofInt n := n
  isNegative x := decide (x < 0)

variable {R : Type} [CommRing R] [LinearOrder R]

/-- A table stands at a place of the layout, shifted by what was drawn for it. -/
def Table.StandsAt (layout : Layout R) (drawn : R) (place : Nat) (table : Table R) : Prop :=
  table.position.x = 50 + place * layout.spacingX + (2 * drawn - 1) * layout.jitter ∧
    table.position.y = 50 + ((place / layout.perRow : Nat) : R) * layout.spacingY

namespace Table

variable {layout : Layout R} {table : Table R}

theorem standsAt_of_position {drawn : R} {place : Nat}
    (placed : table.position = layout.position drawn place) :
    table.StandsAt layout drawn place := by
  have row : (Coordinate.ofInt ((place : Int).fdiv layout.perRow) : R) =
      ((place / layout.perRow : Nat) : R) := by
    rw [← Int.ofNat_fdiv]
    exact Int.cast_natCast _
  constructor
  next =>
    rw [placed]
    simp only [Layout.position, Layout.margin, Coordinate.ofInt]
    push_cast
    ring
  next =>
    rw [placed, Layout.position, row]
    simp only [Layout.margin, Coordinate.ofInt]
    push_cast
    ring

theorem StandsAt.place_unique [IsStrictOrderedRing R] {first second : R} {place other : Nat}
    {twin : Table R} (one : 0 ≤ first ∧ first < 1) (two : 0 ≤ second ∧ second < 1)
    (stands : table.StandsAt Layout.default first place)
    (stands' : twin.StandsAt Layout.default second other)
    (same : table.position = twin.position) : place = other := by
  obtain ⟨across, -⟩ := stands
  obtain ⟨across', -⟩ := stands'
  rw [same, across'] at across
  simp only [Layout.default, Coordinate.ofInt] at across
  push_cast at across
  -- Places are 250 apart, and a table is shifted by at most 50 to either side.
  rcases Nat.lt_trichotomy place other with before | equal | behind
  next =>
    have apart : (place : R) + 1 ≤ other := by exact_mod_cast before
    linarith
  next => exact equal
  next =>
    have apart : (other : R) + 1 ≤ place := by exact_mod_cast behind
    linarith

end Table

namespace Laid

variable {draws : Nat → R} {drawn : Nat} {declared : List Heading} {tables : List (Table R)}

theorem stands {layout : Layout R} (laid : Laid layout draws drawn declared tables) {place : Nat}
    {table : Table R} (found : tables[place]? = some table) :
    ∃ n < drawn, ∃ taken, place ≤ taken ∧
      (place = taken ↔ (Heading.ids declared).count table.id = 1) ∧
      table.StandsAt layout (draws n) taken := by
  obtain ⟨n, within, taken, least, once, placed⟩ := laid.position found
  exact ⟨n, within, taken, least, once, Table.standsAt_of_position placed⟩

variable [IsStrictOrderedRing R]

theorem stands_iff (laid : Laid Layout.default draws drawn declared tables)
    (unit : ∀ n, 0 ≤ draws n ∧ draws n < 1) {place : Nat} {table : Table R}
    (found : tables[place]? = some table) :
    (∃ n < drawn, table.StandsAt Layout.default (draws n) place) ↔
      (Heading.ids declared).count table.id = 1 := by
  obtain ⟨n, within, taken, -, once, stands⟩ := laid.stands found
  rw [← once]
  constructor
  next =>
    rintro ⟨other, -, own⟩
    exact own.place_unique (unit other) (unit n) stands rfl
  next =>
    intro same
    exact ⟨n, within, same ▸ stands⟩

theorem nodup_positions (laid : Laid Layout.default draws drawn declared tables)
    (unit : ∀ n, 0 ≤ draws n ∧ draws n < 1) (distinct : (Heading.ids declared).Nodup) :
    (tables.map (·.position)).Nodup := by
  have apart : tables.Nodup := List.Nodup.of_map (·.id) (laid.ids ▸ Firsts.nodup_eraseDups _)
  refine apart.map_on fun table member twin member' same => ?_
  obtain ⟨place, found⟩ := List.getElem?_of_mem member
  obtain ⟨place', found'⟩ := List.getElem?_of_mem member'
  have once {table : Table R} {place : Nat} (found : tables[place]? = some table) :
      ∃ n < drawn, table.StandsAt Layout.default (draws n) place := by
    refine (laid.stands_iff unit found).mpr (List.count_eq_one_of_mem distinct ?_)
    rw [← List.mem_eraseDups, ← laid.ids]
    exact List.mem_map_of_mem (List.mem_of_getElem? found)
  obtain ⟨n, -, stands⟩ := once found
  obtain ⟨n', -, stands'⟩ := once found'
  have equal := stands.place_unique (unit n) (unit n') stands' same
  exact Option.some.inj (found.symm.trans (equal ▸ found'))

end Laid

variable [IsStrictOrderedRing R]

/-- Tables stand one behind the other where every id is declared once, as it always is in blocks
that are read one by one. -/
theorem tables_stand_in_order (config : Config R) (draws : Nat → R)
    (unit : ∀ n, 0 ≤ draws n ∧ draws n < 1) (text : Option (List Char)) (dialect : Option String)
    {result : ExtractionResult R} {schema : Schema R}
    (returned : (extract config draws text dialect).returned = .ok result)
    (held : result.schema? = some schema) :
    ∃ tier declared, result.tier = some tier ∧
      declared = Heading.ids (Extraction.headings config result.dialect tier (text.getD [])) ∧
      (∀ (place : Nat) (table : Table R), schema.tables[place]? = some table →
        ∃ n < (extract config draws text dialect).draws, ∃ taken, place ≤ taken ∧
          (place = taken ↔ declared.count table.id = 1) ∧
          table.StandsAt config.layout (draws n) taken) ∧
      (tier = .structural → result.dialect ≠ .drizzle → declared.Nodup) ∧
      (config.layout = Layout.default →
        (∀ (place : Nat) (table : Table R), schema.tables[place]? = some table →
          ((∃ n < (extract config draws text dialect).draws,
            table.StandsAt Layout.default (draws n) place) ↔ declared.count table.id = 1)) ∧
        (declared.Nodup → (schema.tables.map (·.position)).Nodup)) := by
  have ends := Extraction.extract_ends config draws text dialect
  cases returned.symm.trans ends.returned
  obtain ⟨tier, reached, laid⟩ := ends.laid held
  refine ⟨tier, _, reached, rfl, fun _ _ found => laid.stands found, ?_, fun default => ?_⟩
  next =>
    rintro rfl blocks
    exact Extraction.nodup_ids_headings config blocks _
  next =>
    rw [default] at laid
    exact ⟨fun _ _ found => laid.stands_iff unit found, laid.nodup_positions unit⟩

def neighbours : List Char :=
  "export const a = pgTable('a', \x7b id: int('a') \x7d);\n".toList ++
    "export const b = pgTable('b', \x7b id: int('b') \x7d);".toList

theorem tables_stand_in_order_neighbours : ∃ result schema,
    (extract (Config.default : Config ℚ) (fun _ => 1 / 2) (some neighbours) none).returned =
        .ok result ∧
      result.schema? = some schema ∧ schema.tableIds = ["a", "b"] ∧
      (schema.tables.map (·.position)).Nodup := by
  have read : (extract (Config.default : Config ℚ) (fun _ => 1 / 2) (some neighbours)
      none).result.schema?.map (·.tableIds) = some ["a", "b"] := by
    decide +kernel
  have reached : (extract (Config.default : Config ℚ) (fun _ => 1 / 2) (some neighbours)
      none).result.tier = some .structural ∧
        (extract (Config.default : Config ℚ) (fun _ => 1 / 2) (some neighbours)
          none).result.dialect = .drizzle := by
    decide +kernel
  have declared : Extraction.headings (Config.default : Config ℚ) .drizzle .structural neighbours =
      [⟨"a", ["id"]⟩, ⟨"b", ["id"]⟩] := by
    decide +kernel
  obtain ⟨schema, held, ids⟩ := Option.map_eq_some_iff.mp read
  obtain ⟨structural, drizzle⟩ := reached
  have returned := extract_returned (Config.default : Config ℚ) (fun _ => 1 / 2) (some neighbours)
    none
  obtain ⟨tier, found, reached, same, -, -, default⟩ :=
    tables_stand_in_order _ _ (fun _ => by norm_num) _ _ returned held
  cases reached.symm.trans structural
  rw [drizzle, Option.getD_some, declared] at same
  exact ⟨_, schema, returned, held, ids, (default rfl).2 (by simp [same, Heading.ids])⟩

def redeclared : List Char :=
  "export const a = pgTable('a', \x7b id: serial('id') \x7d);\n".toList ++
    "export const a = pgTable('a', \x7b id: uuid('id') \x7d);\n".toList ++
    "export const b = pgTable('b', \x7b id: serial('id') \x7d);\n".toList

/-- The second declaration of a table is placed behind the first one, where the next table stands. -/
theorem redeclared_table_meets_next : ∃ result schema,
    (extract (Config.default : Config ℚ) (fun _ => 1 / 2) (some redeclared) none).returned =
        .ok result ∧
      result.schema? = some schema ∧ ¬ (schema.tables.map (·.position)).Nodup ∧
      ∃ table, schema.tables[0]? = some table ∧ ¬ table.StandsAt Layout.default (1 / 2) 0 := by
  have read : (extract (Config.default : Config ℚ) (fun _ => 1 / 2) (some redeclared)
      none).result.schema?.map (·.tables.map (·.position)) = some [⟨300, 50⟩, ⟨300, 50⟩] := by
    decide +kernel
  obtain ⟨schema, held, positions⟩ := Option.map_eq_some_iff.mp read
  have returned := extract_returned (Config.default : Config ℚ) (fun _ => 1 / 2) (some redeclared)
    none
  refine ⟨_, schema, returned, held, by simp [positions], ?_⟩
  have first : (schema.tables.map (·.position))[0]? = some ⟨300, 50⟩ := by simp [positions]
  rw [List.getElem?_map] at first
  obtain ⟨table, found, placed⟩ := Option.map_eq_some_iff.mp first
  refine ⟨table, found, fun stands => ?_⟩
  have across := stands.1
  rw [placed] at across
  norm_num [Layout.default, Coordinate.ofInt] at across

end SchemaAtlas
