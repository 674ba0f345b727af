import SchemaAtlas.Proofs.Registry

/-!
What the declarations of a text say of its tables, and the tables that come of them. An id has one
table, which has the columns of the last declaration of the id; its position is made from the number
of the ids that were declared before that.
-/

set_option autoImplicit false

namespace SchemaAtlas

/-- What a declaration says of a table: its id and the names of its columns. -/
structure Heading where
  id : String
  columns : List String
  deriving DecidableEq, Repr

namespace Heading

def ids (declared : List Heading) : List String := declared.map (·.id)

def last? (declared : List Heading) (id : String) : Option Heading :=
  (declared.filter (·.id = id)).getLast?

/-- A declaration is the last one of its id, behind the others before it. -/
def IsLast (declared before : List Heading) (heading : Heading) : Prop :=
  ∃ after, declared = before ++ heading :: after ∧ heading.id ∉ ids after

variable {declared before : List Heading} {heading : Heading}

@[simp] theorem ids_append (first second : List Heading) :
    ids (first ++ second) = ids first ++ ids second :=
  List.map_append

theorem isLast_new (declared : List Heading) (heading : Heading) :
    IsLast (declared ++ [heading]) declared heading :=
  ⟨[], rfl, by simp [ids]⟩

theorem IsLast.concat (last : IsLast declared before heading) {other : Heading}
    (apart : heading.id ≠ other.id) : IsLast (declared ++ [other]) before heading := by
  obtain ⟨after, rfl, absent⟩ := last
  refine ⟨after ++ [other], by simp, ?_⟩
  simpa [ids] using ⟨by simpa [ids] using absent, apart⟩

theorem IsLast.last? (last : IsLast declared before heading) :
    last? declared heading.id = some heading := by
  obtain ⟨after, rfl, absent⟩ := last
  exact getLast?_filter_of_last absent

theorem mem_ids_of_last? {id : String} (found : last? declared id = some heading) :
    id ∈ ids declared := by
  have member := List.mem_filter.mp (List.mem_of_getLast? found)
  exact List.mem_map.mpr ⟨heading, member.1, of_decide_eq_true member.2⟩

theorem IsLast.count (last : IsLast declared before heading) :
    (ids declared).count heading.id = 1 ↔ heading.id ∉ ids before := by
  obtain ⟨after, rfl, absent⟩ := last
  have none := List.count_eq_zero.mpr absent
  rw [← List.count_eq_zero]
  simp_all [ids]

theorem IsLast.place_le (last : IsLast declared before heading) :
    (ids declared).eraseDups.idxOf heading.id ≤ (ids before).eraseDups.length := by
  obtain ⟨after, rfl, -⟩ := last
  rw [ids_append]
  exact (Firsts.idxOf_eraseDups_append _ _ _).1

theorem IsLast.place_eq_iff (last : IsLast declared before heading) :
    (ids declared).eraseDups.idxOf heading.id = (ids before).eraseDups.length ↔
      (ids declared).count heading.id = 1 := by
  rw [last.count]
  obtain ⟨after, rfl, -⟩ := last
  rw [ids_append]
  exact (Firsts.idxOf_eraseDups_append _ _ _).2

end Heading

variable {R : Type}

structure Table.MadeFrom [Coordinate R] (layout : Layout R) (draw : R) (before : List Heading)
    (heading : Heading) (table : Table R) : Prop where
  id : heading.id = table.id
  columns : table.columns.map (·.name) = heading.columns
  position : table.position = layout.position draw (Heading.ids before).eraseDups.length

/-- The tables of some declarations, for which so many numbers were drawn. -/
structure Laid [Coordinate R] (layout : Layout R) (draws : Nat → R) (drawn : Nat)
    (declared : List Heading) (tables : List (Table R)) : Prop where
  ids : tables.map (·.id) = (Heading.ids declared).eraseDups
  made : ∀ table ∈ tables, ∃ before heading, Heading.IsLast declared before heading ∧
    ∃ n < drawn, table.MadeFrom layout (draws n) before heading

namespace Laid

variable [Coordinate R] {layout : Layout R} {draws : Nat → R} {drawn : Nat}
  {declared : List Heading} {tables : List (Table R)}

theorem empty (layout : Layout R) (draws : Nat → R) : Laid layout draws 0 [] [] :=
  ⟨rfl, by simp⟩

theorem length (laid : Laid layout draws drawn declared tables) :
    tables.length = (Heading.ids declared).eraseDups.length := by
  rw [← laid.ids, List.length_map]

theorem mono (laid : Laid layout draws drawn declared tables) {more : Nat} (least : drawn ≤ more) :
    Laid layout draws more declared tables := by
  refine ⟨laid.ids, fun table member => ?_⟩
  obtain ⟨before, heading, last, n, within, made⟩ := laid.made table member
  exact ⟨before, heading, last, n, by omega, made⟩

theorem put (laid : Laid layout draws drawn declared tables) {heading : Heading} {table : Table R}
    (made : table.MadeFrom layout (draws drawn) declared heading) :
    Laid layout draws (drawn + 1) (declared ++ [heading]) (Registry.put tables table) := by
  constructor
  next =>
    rw [Registry.put_eq, Keyed.keys_put, laid.ids, Heading.ids_append, ← made.id]
    exact (Firsts.eraseDups_concat _ _).symm
  next =>
    intro other member
    have distinct : (tables.map (·.id)).Nodup := laid.ids ▸ Firsts.nodup_eraseDups _
    -- A table that is replaced is gone, so no other one is of the id that is declared again.
    by_cases same : other = table
    next =>
      exact ⟨declared, heading, Heading.isLast_new _ _, drawn, by omega, same ▸ made⟩
    next =>
      rw [Registry.put_eq] at member
      obtain ⟨old, apart⟩ := Keyed.key_ne_of_mem_put distinct member same
      obtain ⟨before, first, last, n, within, kept⟩ := laid.made other old
      refine ⟨before, first, last.concat ?_, n, by omega, kept⟩
      rw [kept.id, made.id]
      exact apart

theorem unshift {start : Nat}
    (laid : Laid layout (fun n => draws (start + n)) drawn declared tables) :
    Laid layout draws (start + drawn) declared tables := by
  refine ⟨laid.ids, fun table member => ?_⟩
  obtain ⟨before, heading, last, n, within, made⟩ := laid.made table member
  exact ⟨before, heading, last, start + n, by omega, made⟩

theorem columns (laid : Laid layout draws drawn declared tables) {table : Table R}
    (member : table ∈ tables) :
    ∃ heading, Heading.last? declared table.id = some heading ∧
      table.columns.map (·.name) = heading.columns := by
  obtain ⟨before, heading, last, _, -, made⟩ := laid.made table member
  exact ⟨heading, made.id ▸ last.last?, made.columns⟩

theorem nodup_columns_iff (laid : Laid layout draws drawn declared tables) :
    (∀ table ∈ tables, (table.columns.map (·.name)).Nodup) ↔
      ∀ id heading, Heading.last? declared id = some heading → heading.columns.Nodup := by
  constructor
  next =>
    intro apart id heading found
    have known : id ∈ tables.map (·.id) := by
      rw [laid.ids, List.mem_eraseDups]
      exact Heading.mem_ids_of_last? found
    obtain ⟨table, member, rfl⟩ := List.mem_map.mp known
    obtain ⟨same, last, names⟩ := laid.columns member
    cases found.symm.trans last
    exact names ▸ apart table member
  next =>
    intro apart table member
    obtain ⟨heading, last, names⟩ := laid.columns member
    exact names ▸ apart table.id heading last

theorem placed (laid : Laid layout draws drawn declared tables) {table : Table R}
    (member : table ∈ tables) :
    ∃ n < drawn, ∃ taken ≤ tables.length, table.position = layout.position (draws n) taken := by
  obtain ⟨before, heading, ⟨after, rfl, -⟩, n, within, made⟩ := laid.made table member
  refine ⟨n, within, _, ?_, made.position⟩
  rw [laid.length, Heading.ids_append, List.eraseDups_append, List.length_append]
  exact Nat.le_add_right _ _

/-- A table whose id is declared again stands at a place behind its own. -/
theorem position (laid : Laid layout draws drawn declared tables) {place : Nat} {table : Table R}
    (found : tables[place]? = some table) :
    ∃ n < drawn, ∃ taken : Nat, place ≤ taken ∧
      (place = taken ↔ (Heading.ids declared).count table.id = 1) ∧
      table.position = layout.position (draws n) taken := by
  obtain ⟨before, heading, last, n, within, made⟩ := laid.made table (List.mem_of_getElem? found)
  -- Tables stand in the order in which their ids are mentioned first.
  have own : (Heading.ids declared).eraseDups.idxOf heading.id = place := by
    have named : (Heading.ids declared).eraseDups[place]? = some heading.id := by
      rw [← laid.ids, List.getElem?_map, found, Option.map_some, made.id]
    obtain ⟨inside, same⟩ := List.getElem?_eq_some_iff.mp named
    rw [← same]
    exact (Firsts.nodup_eraseDups _).idxOf_getElem place inside
  refine ⟨n, within, _, ?_, ?_, made.position⟩
  next => exact own ▸ last.place_le
  next => rw [← own, ← made.id, last.place_eq_iff]

theorem merged {registry : Registry R} (laid : Laid layout draws drawn declared registry.tables) :
    Laid layout draws drawn declared registry.merged := by
  refine ⟨(Registry.ids_merged registry).trans laid.ids, fun table member => ?_⟩
  obtain ⟨registered, present, rfl⟩ := List.mem_map.mp member
  obtain ⟨before, heading, last, n, within, made⟩ := laid.made registered present
  exact ⟨before, heading, last, n, within, made.id, made.columns, made.position⟩

theorem enter {registry : Registry R} (laid : Laid layout draws drawn declared registry.tables)
    {table : Table R} (placed : table.position = layout.position (draws drawn) registry.size) :
    Journaled.Gives (fun more next => next.2 = drawn + more ∧ Laid layout draws next.2
        (declared ++ [⟨table.id, table.columns.map (·.name)⟩]) next.1.tables) (do
      Journaled.record { draws := 1 }
      let next ← registry.register table
      return (next, drawn + 1)) := by
  have made : table.MadeFrom layout (draws drawn) declared ⟨table.id, table.columns.map (·.name)⟩ :=
    ⟨rfl, rfl, by rw [placed, Registry.size, laid.length]⟩
  have one : (Journaled.record { draws := 1 }).Gives fun more _ => more = 1 := .record rfl
  refine one.bind fun more _ counted => ?_
  refine (Registry.register_gives registry table).bind fun none next ⟨undrawn, entered⟩ => .pure ?_
  subst counted undrawn entered
  exact ⟨rfl, laid.put made⟩

end Laid

section

variable [Coordinate R] {ι : Type}

/-- Each step registers the table of an item if that declares one. -/
def Registers (layout : Layout R) (draws : Nat → R)
    (step : Registry R × Nat → ι → Journaled (Registry R × Nat)) (heading? : ι → Option Heading) :
    Prop :=
  ∀ declared state item, Laid layout draws state.2 declared state.1.tables →
    (step state item).Gives fun more next => next.2 ≤ state.2 + more ∧
      Laid layout draws next.2 (declared ++ (heading? item).toList) next.1.tables

variable {layout : Layout R} {draws : Nat → R} {heading? : ι → Option Heading}
  {step : Registry R × Nat → ι → Journaled (Registry R × Nat)}

theorem Registers.foldlM_from (registers : Registers layout draws step heading?) (items : List ι)
    {declared : List Heading} {state : Registry R × Nat}
    (laid : Laid layout draws state.2 declared state.1.tables) :
    (items.foldlM step state).Gives fun more next => next.2 ≤ state.2 + more ∧
      Laid layout draws next.2 (declared ++ items.filterMap heading?) next.1.tables := by
  -- What is declared so far is general: the first item adds its own heading to it.
  induction items generalizing declared state with
  | nil => exact .pure ⟨Nat.le_refl _, by simpa using laid⟩
  | cons item items ih =>
    rw [List.foldlM_cons]
    refine (registers declared state item laid).bind fun drawn next ⟨counted, first⟩ => ?_
    refine (ih first).imp fun more last ⟨counted', rest⟩ => ⟨by omega, ?_⟩
    cases found : heading? item <;> simpa [found] using rest

theorem Registers.foldlM (registers : Registers layout draws step heading?) (items : List ι) :
    (items.foldlM step ({}, 0)).Gives fun drawn state =>
      Laid layout draws drawn (items.filterMap heading?) state.1.tables := by
  have run : (items.foldlM step ({}, 0)).Gives _ :=
    registers.foldlM_from items (Laid.empty layout draws)
  exact run.imp fun drawn state ⟨counted, laid⟩ => laid.mono (by simpa using counted)

end

end SchemaAtlas
