import Mathlib.Data.List.Perm.Subperm
import Mathlib.Logic.Relation
import SchemaAtlas.Config
import SchemaAtlas.Fluent.Table
import SchemaAtlas.Proofs.Firsts

/-!
Groups that are spread into objects of columns and into one another. Entries are read one by one, a
spread of a group by reading the group in its place unless that is being done already. Such a reading
comes to an end for all groups, also those that spread themselves, and no deeper than there are
groups. As long as groups do not spread one another in a circle it never leaves a group out, however
many ways lead to it, and an object that spreads them is read like the one in which they are written
out.
-/

set_option autoImplicit false

namespace SchemaAtlas.Fluent

open Script

namespace Groups

variable {groups : Groups} {entry : Entry Expr} {group : Group} {expanding : List String}

/-- The names of the groups, each once. -/
def names (groups : Groups) : List String := (groups.map (·.name)).eraseDups

/-- The group that an entry spreads. -/
def spread? (groups : Groups) : Entry Expr → Option Group
  | .spread (.identifier name) => (groups.entries? name).map fun entries => { name, entries }
  | _ => none

theorem entries?_of_spread? (spreads : groups.spread? entry = some group) :
    groups.entries? group.name = some group.entries := by
  unfold spread? at spreads
  split at spreads
  next name =>
    obtain ⟨entries, found, rfl⟩ := Option.map_eq_some_iff.mp spreads
    exact found
  next => cases spreads

theorem mem_names_of_entries? {name : String} {entries : List (Entry Expr)}
    (found : groups.entries? name = some entries) : name ∈ groups.names := by
  obtain ⟨group, last, -⟩ := Option.map_eq_some_iff.mp found
  have member : group ∈ groups := List.mem_reverse.mp (List.mem_of_find?_eq_some last)
  have named : group.name = name := by simpa using List.find?_some last
  exact List.mem_eraseDups.mpr (List.mem_map.mpr ⟨group, member, named⟩)

theorem mem_names_of_spread? (spreads : groups.spread? entry = some group) :
    group.name ∈ groups.names :=
  mem_names_of_entries? (entries?_of_spread? spreads)

theorem replaceSpread_own (own : groups.spread? entry = none)
    (inside : String → List (Entry Expr) → List (Entry Expr)) :
    groups.replaceSpread inside entry = [entry] := by
  unfold spread? at own
  split at own
  next name => simp [replaceSpread, Option.map_eq_none_iff.mp own]
  next other =>
    unfold replaceSpread
    split
    next name => exact absurd rfl (other name)
    next => rfl

theorem replaceSpread_group (spreads : groups.spread? entry = some group)
    (inside : String → List (Entry Expr) → List (Entry Expr)) :
    groups.replaceSpread inside entry = inside group.name group.entries := by
  unfold spread? at spreads
  split at spreads
  next name =>
    obtain ⟨entries, found, rfl⟩ := Option.map_eq_some_iff.mp spreads
    simp [replaceSpread, found]
  next => cases spreads

@[simp] theorem writeOut_nil (depth : Nat) (expanding : List String) :
    groups.writeOut depth expanding [] = [] := by
  cases depth <;> rfl

theorem writeOut_cons (depth : Nat) (expanding : List String) (entry : Entry Expr)
    (entries : List (Entry Expr)) :
    groups.writeOut depth expanding (entry :: entries) =
      groups.writeOut depth expanding [entry] ++ groups.writeOut depth expanding entries := by
  cases depth <;> simp [writeOut]

theorem writeOut_own (own : groups.spread? entry = none) (depth : Nat) :
    groups.writeOut depth expanding [entry] = [entry] := by
  cases depth <;> simp [writeOut, replaceSpread_own own]

theorem writeOut_met (spreads : groups.spread? entry = some group)
    (met : group.name ∈ expanding) (depth : Nat) :
    groups.writeOut depth expanding [entry] = [] := by
  cases depth <;> simp [writeOut, replaceSpread_group spreads, met]

theorem writeOut_new (spreads : groups.spread? entry = some group)
    (new : group.name ∉ expanding) (depth : Nat) :
    groups.writeOut (depth + 1) expanding [entry] =
      groups.writeOut depth (group.name :: expanding) group.entries := by
  simp [writeOut, replaceSpread_group spreads, new]

theorem flatten_spreadless {entries : List (Entry Expr)}
    (spreadless : ∀ entry ∈ entries, groups.spread? entry = none) :
    groups.flatten entries = entries := by
  unfold flatten
  induction entries with
  | nil => exact writeOut_nil _ _
  | cons entry entries ih =>
    obtain ⟨none, rest⟩ := List.forall_mem_cons.mp spreadless
    rw [writeOut_cons, writeOut_own none, ih rest]
    rfl

/-- The groups that are not being written out. -/
def waiting (groups : Groups) (expanding : List String) : List String :=
  groups.names.filter (· ∉ expanding)

theorem length_waiting_lt {name : String} (known : name ∈ groups.names)
    (new : name ∉ expanding) :
    (groups.waiting (name :: expanding)).length < (groups.waiting expanding).length := by
  have fewer : groups.waiting (name :: expanding) =
      (groups.waiting expanding).filter (· ≠ name) := by
    simp [waiting, List.filter_filter]
  have here : name ∈ groups.waiting expanding := by simp [waiting, known, new]
  rw [fewer]
  exact List.length_filter_lt_length_iff_exists.mpr ⟨name, here, by simp⟩

/-- What is true of entries written out entry by entry, a group where it is spread unless that is
being done already. The number of levels does not show: there are enough of them. -/
theorem writeOut_induction (groups : Groups)
    {motive : List String → List (Entry Expr) → List (Entry Expr) → Prop}
    (nil : ∀ expanding, motive expanding [] [])
    (own : ∀ expanding entry entries written, groups.spread? entry = none →
      motive expanding entries written → motive expanding (entry :: entries) (entry :: written))
    (met : ∀ expanding entry group entries written, groups.spread? entry = some group →
      group.name ∈ expanding → motive expanding entries written →
      motive expanding (entry :: entries) written)
    (new : ∀ expanding entry group entries inside written, groups.spread? entry = some group →
      group.name ∉ expanding → motive (group.name :: expanding) group.entries inside →
      motive expanding entries written → motive expanding (entry :: entries) (inside ++ written))
    (depth : Nat) (expanding : List String) (entries : List (Entry Expr))
    (enough : (groups.waiting expanding).length ≤ depth) :
    motive expanding entries (groups.writeOut depth expanding entries) := by
  -- On the levels for a group that is written out, and on the entries for those behind it.
  induction depth using Nat.strongRecOn generalizing expanding entries with
  | ind depth deeper =>
    induction entries with
    | nil =>
      rw [writeOut_nil]
      exact nil expanding
    | cons entry entries behind =>
      rw [writeOut_cons]
      cases spreads : groups.spread? entry with
      | none =>
        rw [writeOut_own spreads]
        exact own _ _ _ _ spreads behind
      | some group =>
        by_cases inside : group.name ∈ expanding
        next =>
          rw [writeOut_met spreads inside]
          exact met _ _ _ _ _ spreads inside behind
        next =>
          have fewer := length_waiting_lt (mem_names_of_spread? spreads) inside
          obtain ⟨depth, rfl⟩ : ∃ less, depth = less + 1 := ⟨depth - 1, by omega⟩
          rw [writeOut_new spreads inside]
          have inner := deeper depth (by omega) (group.name :: expanding) group.entries (by omega)
          exact new _ _ _ _ _ _ spreads inside inner behind

theorem length_waiting_le (groups : Groups) : (groups.waiting []).length ≤ groups.length := by
  have each : (groups.waiting []).Sublist groups.names := List.filter_sublist
  have named : groups.names ⊆ groups.map (·.name) := fun _ => List.mem_eraseDups.mp
  have once := ((Firsts.nodup_eraseDups _).subperm named).length_le
  rw [List.length_map] at once
  exact Nat.le_trans each.length_le once

end Groups

variable {R : Type}

theorem readColumns_append (config : Config R) (table : String) (builders : List String)
    (entries others : List (Entry Expr)) :
    readColumns config table builders (entries ++ others) = do
      return (← readColumns config table builders entries) ++
        (← readColumns config table builders others) := by
  induction entries with
  | nil => simp [readColumns]
  | cons entry entries ih =>
    cases entry with
    | spread argument => simp [readColumns, ih]
    | property name value =>
      simp only [List.cons_append, readColumns, ih, bind_assoc]
      refine bind_congr fun found => ?_
      cases found <;> simp

section

variable (config : Config R) (table : String) (builders : List String) (groups : Groups)

/-- How entries are read while the groups in `expanding` are being read in the place of their spreads.
The nests are the groups read on the way, each behind those it lies in, the outermost one first. They
count groups too that a fault keeps from being reached. -/
inductive Reading :
    List String → List (Entry Expr) → List (List String) → Journaled (List Column) → Prop
  | done {expanding} : Reading expanding [] [] (pure [])
  | own {expanding entry entries nests found} (own : groups.spread? entry = none)
      (rest : Reading expanding entries nests found) :
      Reading expanding (entry :: entries) nests do
        return (← readColumns config table builders [entry]) ++ (← found)
  | met {expanding entry entries nests found} {group : Group}
      (spreads : groups.spread? entry = some group) (met : group.name ∈ expanding)
      (rest : Reading expanding entries nests found) :
      Reading expanding (entry :: entries) nests found
  | new {expanding entry entries inner inside nests found} {group : Group}
      (spreads : groups.spread? entry = some group) (new : group.name ∉ expanding)
      (deeper : Reading (group.name :: expanding) group.entries inner inside)
      (rest : Reading expanding entries nests found) :
      Reading expanding (entry :: entries)
        ([group.name] :: inner.map (group.name :: ·) ++ nests) do
          return (← inside) ++ (← found)

end

section

variable {config : Config R} {table : String} {builders : List String} {groups : Groups}
  {expanding : List String} {entries : List (Entry Expr)} {nests : List (List String)}
  {found : Journaled (List Column)}

/-- The groups of a nest are different ones, and none of them is one that is being read already. -/
theorem Reading.nest_fresh
    (reading : Reading config table builders groups expanding entries nests found) :
    ∀ nest ∈ nests, nest.Nodup ∧ nest ⊆ groups.names ∧ ∀ name ∈ nest, name ∉ expanding := by
  induction reading with
  | done => simp
  | own _ _ behind => exact behind
  | met _ _ _ behind => exact behind
  | @new expanding _ _ inner _ nests _ group spreads fresh _ _ within behind =>
    have known := Groups.mem_names_of_spread? spreads
    intro nest member
    -- What lies in the group avoids it, as the group itself was added to those being read.
    rcases List.mem_append.mp member with here | later
    · rcases List.mem_cons.mp here with rfl | deeper
      · simpa using ⟨known, fresh⟩
      · obtain ⟨nest, listed, rfl⟩ := List.mem_map.mp deeper
        obtain ⟨apart, declared, others⟩ := within nest listed
        have outer : group.name ∉ nest := fun again => others _ again (.head _)
        refine ⟨List.nodup_cons.mpr ⟨outer, apart⟩, List.cons_subset.mpr ⟨known, declared⟩, ?_⟩
        intro name named
        rcases List.mem_cons.mp named with rfl | named
        · exact fresh
        · exact fun again => others name named (.tail _ again)
    · exact behind nest later

theorem Reading.unique {others : List (List String)} {again : Journaled (List Column)}
    (first : Reading config table builders groups expanding entries nests found)
    (second : Reading config table builders groups expanding entries others again) :
    others = nests ∧ again = found := by
  induction first generalizing others again with
  | done =>
    cases second
    exact ⟨rfl, rfl⟩
  | own none _ behind =>
    cases second with
    | own _ rest =>
      obtain ⟨rfl, rfl⟩ := behind rest
      exact ⟨rfl, rfl⟩
    | met spreads | new spreads => simp [none] at spreads
  | met spreads met _ behind =>
    cases second with
    | own none => simp [none] at spreads
    | met _ _ rest => exact behind rest
    | new same new =>
      cases spreads.symm.trans same
      exact absurd met new
  | new spreads new _ _ within behind =>
    cases second with
    | own none => simp [none] at spreads
    | met same met =>
      cases spreads.symm.trans same
      exact absurd met new
    | new same _ deeper rest =>
      cases spreads.symm.trans same
      obtain ⟨rfl, rfl⟩ := within deeper
      obtain ⟨rfl, rfl⟩ := behind rest
      exact ⟨rfl, rfl⟩

end

/-- Entries in which all groups are written out are read as the entries themselves. -/
theorem exists_reading (config : Config R) (table : String) (builders : List String)
    (groups : Groups) (entries : List (Entry Expr)) :
    ∃ nests, Reading config table builders groups [] entries nests
      (readColumns config table builders (groups.flatten entries)) := by
  refine Groups.writeOut_induction groups (motive := fun expanding entries written =>
      ∃ nests, Reading config table builders groups expanding entries nests
        (readColumns config table builders written)) ?nil ?own ?met ?new _ _ _ groups.length_waiting_le
  case nil =>
    intro expanding
    exact ⟨[], .done⟩
  case own =>
    rintro expanding entry entries written none ⟨nests, rest⟩
    have front := readColumns_append config table builders [entry] written
    exact ⟨nests, front ▸ .own none rest⟩
  case met =>
    rintro expanding entry group entries written spreads met ⟨nests, rest⟩
    exact ⟨nests, .met spreads met rest⟩
  case new =>
    rintro expanding entry group entries inside written spreads new ⟨inner, deeper⟩ ⟨nests, rest⟩
    rw [readColumns_append]
    exact ⟨_, .new spreads new deeper rest⟩

/-- Every object of columns is read to the end, whatever its groups spread: there is one reading, and
it gives the columns and warnings of the table. Groups lie at most as deep in one another as there
are groups, and none lies in itself. -/
theorem spread_readings_end (config : Config R) (table : String) (builders : List String)
    (groups : Groups) (entries : List (Entry Expr)) :
    ∃ nests, Reading config table builders groups [] entries nests
        (readColumns config table builders (groups.flatten entries)) ∧
      (∀ others found, Reading config table builders groups [] entries others found →
        others = nests ∧ found = readColumns config table builders (groups.flatten entries)) ∧
      ∀ nest ∈ nests, nest.Nodup ∧ nest.length ≤ groups.names.length := by
  obtain ⟨nests, reading⟩ := exists_reading config table builders groups entries
  refine ⟨nests, reading, fun others found => reading.unique, fun nest member => ?_⟩
  obtain ⟨apart, declared, -⟩ := reading.nest_fresh nest member
  exact ⟨apart, (apart.subperm declared).length_le⟩

/-- Of two groups that spread one another each is written out once. -/
example (value : Expr) :
    Groups.flatten
      [{ name := "a", entries := [.spread (.identifier "b"), .property "first" value] },
       { name := "b", entries := [.spread (.identifier "a"), .property "second" value] }]
      [.spread (.identifier "a")] = [.property "second" value, .property "first" value] := rfl

namespace Groups

/-- Among the entries of the first group stands a spread of the second one. -/
def Spreads (groups : Groups) (outer inner : String) : Prop :=
  ∃ entries, groups.entries? outer = some entries ∧
    ∃ entry ∈ entries, ∃ group, groups.spread? entry = some group ∧ group.name = inner

/-- No group is spread inside of itself, neither at once nor through other groups. -/
def Acyclic (groups : Groups) : Prop := ∀ name, ¬ Relation.TransGen groups.Spreads name name

/-- Groups are acyclic if each of them ranks above those that it spreads. -/
theorem acyclic_of_rank {groups : Groups} (rank : String → Nat)
    (falls : ∀ outer ∈ groups.names, ∀ entry ∈ (groups.entries? outer).getD [],
      ∀ group ∈ groups.spread? entry, rank group.name < rank outer) :
    groups.Acyclic := by
  have once {outer inner : String} (spreads : groups.Spreads outer inner) :
      rank inner < rank outer := by
    obtain ⟨entries, found, entry, member, group, next, rfl⟩ := spreads
    refine falls outer (mem_names_of_entries? found) entry ?_ group next
    simpa [found] using member
  have along {outer inner : String} (leads : Relation.TransGen groups.Spreads outer inner) :
      rank inner < rank outer := by
    induction leads with
    | single spreads => exact once spreads
    | tail _ spreads earlier => exact Nat.lt_trans (once spreads) earlier
  exact fun name circle => Nat.lt_irrefl _ (along circle)

/-- The second entries are the first ones with every spread of a group replaced by the entries of that
group, in which this is done as well. What spreads no group stays. -/
inductive WritesOut (groups : Groups) : List (Entry Expr) → List (Entry Expr) → Prop
  | done : WritesOut groups [] []
  | own {entry entries written} (own : groups.spread? entry = none)
      (rest : WritesOut groups entries written) :
      WritesOut groups (entry :: entries) (entry :: written)
  | group {entry entries inside written} {group : Group}
      (spreads : groups.spread? entry = some group) (inner : WritesOut groups group.entries inside)
      (rest : WritesOut groups entries written) :
      WritesOut groups (entry :: entries) (inside ++ written)

variable {groups : Groups} {entries written : List (Entry Expr)}

theorem WritesOut.unique {other : List (Entry Expr)} (first : groups.WritesOut entries written)
    (second : groups.WritesOut entries other) : other = written := by
  induction first generalizing other with
  | done =>
    cases second
    rfl
  | own none _ behind =>
    cases second with
    | own _ rest => rw [behind rest]
    | group spreads => simp [none] at spreads
  | group spreads _ _ within behind =>
    cases second with
    | own none => simp [none] at spreads
    | group same inner rest =>
      cases spreads.symm.trans same
      rw [within inner, behind rest]

theorem WritesOut.spreadless (writes : groups.WritesOut entries written) :
    ∀ entry ∈ written, groups.spread? entry = none := by
  induction writes with
  | done => simp
  | own none _ behind => exact List.forall_mem_cons.mpr ⟨none, behind⟩
  | group _ _ _ within behind => exact List.forall_mem_append.mpr ⟨within, behind⟩

/-- From the group every group that the entries spread is reached. -/
def LeadsTo (groups : Groups) (outer : String) (entries : List (Entry Expr)) : Prop :=
  ∀ entry ∈ entries, ∀ group, groups.spread? entry = some group →
    Relation.TransGen groups.Spreads outer group.name

theorem leadsTo_own {group : Group} (declared : groups.entries? group.name = some group.entries) :
    groups.LeadsTo group.name group.entries := fun entry member next spreads =>
  .single ⟨_, declared, entry, member, next, spreads, rfl⟩

theorem LeadsTo.behind {outer : String} {entry : Entry Expr}
    (leads : groups.LeadsTo outer (entry :: entries)) : groups.LeadsTo outer entries :=
  fun other member => leads other (.tail _ member)

theorem LeadsTo.inside {outer : String} {entry : Entry Expr} {group : Group}
    (leads : groups.LeadsTo outer (entry :: entries)) (spreads : groups.spread? entry = some group) :
    groups.LeadsTo outer group.entries := fun other member next deeper =>
  have last := leadsTo_own (entries?_of_spread? spreads) other member next deeper
  (leads entry (.head _) group spreads).trans last

/-- Groups without circles are written out at every spread: what is being written out leads to what
is still spread, so to meet it again would close a circle. -/
theorem Acyclic.writesOut_flatten (acyclic : groups.Acyclic) (entries : List (Entry Expr)) :
    groups.WritesOut entries (groups.flatten entries) := by
  refine writeOut_induction groups (motive := fun expanding entries written =>
      (∀ outer ∈ expanding, groups.LeadsTo outer entries) → groups.WritesOut entries written)
    ?nil ?own ?met ?new _ _ _ groups.length_waiting_le (by simp)
  case nil => exact fun _ _ => .done
  case own =>
    intro expanding entry entries written none rest leads
    exact .own none (rest fun outer listed => (leads outer listed).behind)
  case met =>
    intro expanding entry group entries written spreads met _ leads
    exact absurd (leads _ met entry (.head _) group spreads) (acyclic group.name)
  case new =>
    intro expanding entry group entries inside written spreads _ inner rest leads
    refine .group spreads (inner ?_) (rest fun outer listed => (leads outer listed).behind)
    intro outer listed
    rcases List.mem_cons.mp listed with rfl | listed
    · exact leadsTo_own (entries?_of_spread? spreads)
    · exact (leads outer listed).inside spreads

end Groups

/-- To spread groups is to write them out, as long as they do not spread one another in a circle: the
object in which they are written out exists, there is one only, and it gives the same columns and the
same warnings in the same order. -/
theorem spreads_read_as_written_out (config : Config R) (table : String) (builders : List String)
    {groups : Groups} (acyclic : groups.Acyclic) (entries : List (Entry Expr)) :
    ∃ written, groups.WritesOut entries written ∧
      (∀ other, groups.WritesOut entries other → other = written) ∧
      readColumns config table builders (groups.flatten entries) =
        readColumns config table builders (groups.flatten written) := by
  have writes := acyclic.writesOut_flatten entries
  refine ⟨_, writes, fun other => writes.unique, ?_⟩
  rw [Groups.flatten_spreadless writes.spreadless]

/-- Two groups that both spread a third one, which is declared twice. -/
def diamond : Groups :=
  [{ name := "stamps"
     entries := [.property "at" (.call (.identifier "date") [])] },
   { name := "owned"
     entries := [.spread (.identifier "stamps"),
       .property "owner" (.call (.identifier "integer") [.string "owner"])] },
   { name := "named"
     entries := [.property "name" (.call (.identifier "text") [.string "name"]),
       .spread (.identifier "stamps")] },
   { name := "stamps"
     entries := [.property "createdAt" (.call (.identifier "timestamp") [.string "created_at"])] }]

/-- A column between spreads of both, and a spread of what is no group. -/
def diamondEntries : List (Entry Expr) :=
  [.spread (.identifier "owned"),
   .property "id" (.call (.member (.call (.identifier "serial") []) "primaryKey") []),
   .spread (.identifier "others"), .spread (.identifier "named")]

theorem diamond_read_as_written_out :
    diamond.Acyclic ∧
      (∃ written, diamond.WritesOut diamondEntries written ∧
        (∀ other, diamond.WritesOut diamondEntries other → other = written) ∧
        readColumns (Config.default : Config Int) "users" [] (diamond.flatten diamondEntries) =
          readColumns (Config.default : Config Int) "users" [] (diamond.flatten written)) ∧
      (readColumns (Config.default : Config Int) "users" []
          (diamond.flatten diamondEntries)).outcome.toOption.map (·.map (·.name)) =
        some ["createdAt", "owner", "id", "name", "createdAt"] := by
  have acyclic : diamond.Acyclic :=
    Groups.acyclic_of_rank (fun name => if name = "stamps" then 0 else 1) (by decide)
  exact ⟨acyclic, spreads_read_as_written_out _ "users" [] acyclic diamondEntries, by decide +kernel⟩

end SchemaAtlas.Fluent
