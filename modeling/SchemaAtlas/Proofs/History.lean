import Mathlib.Data.List.DropRight
import Mathlib.Data.List.Infix
import SchemaAtlas.Proofs.Rearranged
import SchemaAtlas.Proofs.Registry

/-!
A registry under a sequence of calls. What it holds is read off the calls alone: which ids they
registered behind the last reset, the newest record of each, and the indexes attached to it.
-/

set_option autoImplicit false

namespace SchemaAtlas.Registry

variable {R : Type}

inductive Call (R : Type)
  | register (table : Table R)
  | attach (id : String) (index : Index)
  | reset

namespace Call

def isReset : Call R → Bool
  | reset => true
  | _ => false

def table? : Call R → Option (Table R)
  | register table => some table
  | _ => none

def registers (call : Call R) (id : String) : Bool := call.table?.any (·.id = id)

def index? (call : Call R) (id : String) : Option Index :=
  match call with
  | attach owner index => if owner = id then some index else none
  | _ => none

end Call

def perform (registry : Registry R) : Call R → Journaled (Registry R)
  | .register table => registry.register table
  | .attach id index => return (← registry.attach id index).2
  | .reset => return registry.reset

/-- The calls made one after the other, on a registry without tables. -/
def performAll (calls : List (Call R)) : Journaled (Registry R) := calls.foldlM perform {}

/-! What a sequence of calls says about the tables. -/

def sinceReset (calls : List (Call R)) : List (Call R) := calls.rtakeWhile (!·.isReset)

def registeredTables (calls : List (Call R)) : List (Table R) :=
  (sinceReset calls).filterMap Call.table?

/-- The registered ids, each at the place where it is first registered. -/
def registeredIds (calls : List (Call R)) : List String :=
  ((registeredTables calls).map (·.id)).eraseDups

def newest? (calls : List (Call R)) (id : String) : Option (Table R) :=
  ((registeredTables calls).filter (·.id = id)).getLast?

/-- The indexes of a table. Those attached to its id before its first registration do not count. -/
def attachedIndexes (calls : List (Call R)) (id : String) : List Index :=
  ((sinceReset calls).dropWhile (!·.registers id)).filterMap (·.index? id)

/-- Whether the last of the calls registers an id that is registered already. -/
def endsInRepeat (calls : List (Call R)) : Bool :=
  calls.getLast?.any fun call =>
    call.table?.any fun table => (registeredIds calls.dropLast).contains table.id

def repeats (calls : List (Call R)) : Nat := calls.inits.countP endsInRepeat

end Registry

/-- Whether the warning says that a table is declared more than once. -/
def Warning.reportsRepeat (warning : Warning) : Bool :=
  warning.context.any fun id => warning.message = redeclaration id

namespace Registry

variable {R : Type}

theorem reportsRepeat_redeclaration (severity : Severity) (id : String) :
    Warning.reportsRepeat { severity, message := redeclaration id, context := some id } = true := by
  simp [Warning.reportsRepeat]

theorem reportsRepeat_unresolved_index (reference : String) (context : Option String) :
    (Warning.unresolved "Index" reference context).reportsRepeat = false := by
  -- The two kinds of message differ in their first letter.
  have apart (id : String) : (Warning.unresolved "Index" reference context).message ≠
      redeclaration id := by
    intro same
    have letters := congrArg (fun text : String => text.toList.head?) same
    simp [Warning.unresolved, redeclaration] at letters
  unfold Warning.reportsRepeat
  cases context with
  | none => rfl
  | some id => exact decide_eq_false (apart id)

variable {registry : Registry R} {calls : List (Call R)} {journal : Journal}

/-! One more call. -/

theorem sinceReset_concat (calls : List (Call R)) (call : Call R) :
    sinceReset (calls ++ [call]) = if call.isReset then [] else sinceReset calls ++ [call] := by
  unfold sinceReset
  rw [List.rtakeWhile_concat]
  cases call.isReset <;> rfl

theorem registeredTables_register (calls : List (Call R)) (table : Table R) :
    registeredTables (calls ++ [.register table]) = registeredTables calls ++ [table] := by
  simp [registeredTables, sinceReset_concat, Call.isReset, Call.table?]

theorem registeredTables_attach (calls : List (Call R)) (id : String) (index : Index) :
    registeredTables (calls ++ [.attach id index]) = registeredTables calls := by
  simp [registeredTables, sinceReset_concat, Call.isReset, Call.table?]

theorem registeredTables_reset (calls : List (Call R)) :
    registeredTables (calls ++ [.reset]) = [] := by
  simp [registeredTables, sinceReset_concat, Call.isReset]

theorem registeredIds_register (calls : List (Call R)) (table : Table R) :
    registeredIds (calls ++ [.register table]) =
      if table.id ∈ registeredIds calls then registeredIds calls
      else registeredIds calls ++ [table.id] := by
  unfold registeredIds
  rw [registeredTables_register, List.map_append, List.map_singleton, Firsts.eraseDups_concat]

theorem newest?_register (calls : List (Call R)) (table : Table R) (id : String) :
    newest? (calls ++ [.register table]) id =
      if table.id = id then some table else newest? calls id := by
  unfold newest?
  rw [registeredTables_register, List.filter_append]
  by_cases same : table.id = id <;> simp [same]

theorem mem_registeredIds {id : String} :
    id ∈ registeredIds calls ↔ ∃ call ∈ sinceReset calls, call.registers id = true := by
  simp only [registeredIds, registeredTables, List.mem_eraseDups, List.mem_map, List.mem_filterMap,
    Call.registers, Option.any_eq_true, decide_eq_true_eq]
  constructor
  next =>
    rintro ⟨table, ⟨call, member, found⟩, same⟩
    exact ⟨call, member, table, found, same⟩
  next =>
    rintro ⟨call, member, table, found, same⟩
    exact ⟨table, ⟨call, member, found⟩, same⟩

theorem registeredIds_eq_of_tables {others : List (Call R)}
    (same : registeredTables others = registeredTables calls) :
    registeredIds others = registeredIds calls := by
  rw [registeredIds, registeredIds, same]

theorem newest?_eq_of_tables {others : List (Call R)}
    (same : registeredTables others = registeredTables calls) (id : String) :
    newest? others id = newest? calls id := by
  rw [newest?, newest?, same]

theorem index?_of_registers {call : Call R} {id : String} (registers : call.registers id = true) :
    call.index? id = none := by
  cases call with
  | register table => rfl
  | attach | reset => simp [Call.registers, Call.table?] at registers

theorem unregistered_of_notMem {id : String} (unknown : id ∉ registeredIds calls) :
    (sinceReset calls).dropWhile (!·.registers id) = [] := by
  rw [List.dropWhile_eq_nil_iff]
  intro call member
  cases registers : call.registers id with
  | false => rfl
  | true => exact absurd (mem_registeredIds.mpr ⟨call, member, registers⟩) unknown

theorem attachedIndexes_of_notMem {id : String} (unknown : id ∉ registeredIds calls) :
    attachedIndexes calls id = [] := by
  rw [attachedIndexes, unregistered_of_notMem unknown, List.filterMap_nil]

theorem attachedIndexes_concat (id : String) {call : Call R} (kept : call.isReset = false) :
    attachedIndexes (calls ++ [call]) id =
      if id ∈ registeredIds calls then attachedIndexes calls id ++ (call.index? id).toList
      else [] := by
  unfold attachedIndexes
  rw [sinceReset_concat, kept, if_neg Bool.false_ne_true, List.dropWhile_append]
  by_cases known : id ∈ registeredIds calls
  next =>
    obtain ⟨first, member, registers⟩ := mem_registeredIds.mp known
    have behind : ¬ ((sinceReset calls).dropWhile (!·.registers id)).isEmpty = true := by
      rw [List.isEmpty_iff, List.dropWhile_eq_nil_iff]
      intro skipped
      have passed := skipped first member
      simp [registers] at passed
    rw [if_neg behind, if_pos known, List.filterMap_append]
    cases attached : call.index? id <;> simp [attached]
  next =>
    rw [unregistered_of_notMem known, List.isEmpty_nil, if_pos rfl, if_neg known]
    -- The call that registers the id attaches nothing to it.
    cases registers : call.registers id with
    | false => simp [registers]
    | true => simp [registers, index?_of_registers registers]

theorem attachedIndexes_register (calls : List (Call R)) (table : Table R) (id : String) :
    attachedIndexes (calls ++ [.register table]) id = attachedIndexes calls id := by
  rw [attachedIndexes_concat id rfl]
  split
  next => exact List.append_nil (attachedIndexes calls id)
  next unknown => exact (attachedIndexes_of_notMem unknown).symm

theorem repeats_concat (calls : List (Call R)) (call : Call R) :
    repeats (calls ++ [call]) =
      repeats calls + if endsInRepeat (calls ++ [call]) then 1 else 0 := by
  simp [repeats, List.inits_append, List.countP_append, List.countP_singleton]

theorem endsInRepeat_register (calls : List (Call R)) (table : Table R) :
    endsInRepeat (calls ++ [.register table]) = decide (table.id ∈ registeredIds calls) := by
  simp [endsInRepeat, Call.table?]

theorem endsInRepeat_attach (calls : List (Call R)) (id : String) (index : Index) :
    endsInRepeat (calls ++ [.attach id index]) = false := by
  simp [endsInRepeat, Call.table?]

theorem endsInRepeat_reset (calls : List (Call R)) : endsInRepeat (calls ++ [.reset]) = false := by
  simp [endsInRepeat, Call.table?]

/-! What a registry holds, and what the calls say it holds. -/

structure Recalls (registry : Registry R) (journal : Journal) (calls : List (Call R)) : Prop where
  ids : registry.tableIds = registeredIds calls
  newest : ∀ id, registry.table? id = newest? calls id
  attached : ∀ id, registry.pendingIndexes id = attachedIndexes calls id
  warned : journal.warnings.countP (·.reportsRepeat) = repeats calls
  told : journal.notices.length = repeats calls

theorem register_eq (registry : Registry R) (table : Table R) :
    registry.register table =
      ⟨if table.id ∈ registry.tableIds then (Journaled.reportRedeclaration table.id).journal else {},
        .ok { registry with tables := put registry.tables table }⟩ := by
  unfold register
  rw [hasTable_eq]
  by_cases known : table.id ∈ registry.tableIds
  next => simp only [decide_eq_true known, if_pos known, if_true]; rfl
  next => simp only [decide_eq_false known, if_neg known]; rfl

/-- An index waits for a registered table. Any other is dropped, with one warning and no other
effect. -/
theorem attach_eq (registry : Registry R) (id : String) (index : Index) :
    registry.attach id index =
      if id ∈ registry.tableIds then
        ⟨{}, .ok (true, { registry with pending := registry.pending ++ [(id, index)] })⟩
      else
        ⟨{ warnings := [.unresolved "Index" id (some index.name)] }, .ok (false, registry)⟩ := by
  unfold attach
  rw [hasTable_eq]
  by_cases known : id ∈ registry.tableIds
  next => simp only [decide_eq_true known, if_pos known, if_true]; rfl
  next => simp only [decide_eq_false known, if_neg known]; rfl

theorem pendingIndexes_attach (registry : Registry R) (owner id : String) (index : Index) :
    pendingIndexes { registry with pending := registry.pending ++ [(owner, index)] } id =
      registry.pendingIndexes id ++ ((Call.attach (R := R) owner index).index? id).toList := by
  by_cases same : owner = id <;> simp [pendingIndexes, Call.index?, same]

theorem Recalls.empty : Recalls ({} : Registry R) {} [] where
  ids := rfl
  newest _ := rfl
  attached _ := rfl
  warned := rfl
  told := rfl

theorem Recalls.register (recalls : Recalls registry journal calls) (table : Table R) :
    ∃ next, (registry.register table).outcome = .ok next ∧
      Recalls next (journal ++ (registry.register table).journal) (calls ++ [.register table]) := by
  rw [register_eq, recalls.ids]
  refine ⟨_, rfl, ?_, fun id => ?_, fun id => ?_, ?_, ?_⟩
  next =>
    rw [registeredIds_register, ← recalls.ids, tableIds, tableIds, put_eq]
    exact Keyed.keys_put registry.tables table
  next =>
    rw [newest?_register, ← recalls.newest, table?, table?, put_eq]
    exact Keyed.find?_put registry.tables table id
  next => exact (recalls.attached id).trans (attachedIndexes_register calls table id).symm
  next =>
    rw [repeats_concat, endsInRepeat_register, ← recalls.warned]
    by_cases known : table.id ∈ registeredIds calls <;>
      simp [known, Journaled.reportRedeclaration, Journaled.record, reportsRepeat_redeclaration]
  next =>
    rw [repeats_concat, endsInRepeat_register, ← recalls.told]
    by_cases known : table.id ∈ registeredIds calls <;>
      simp [known, Journaled.reportRedeclaration, Journaled.record]

theorem Recalls.attach (recalls : Recalls registry journal calls) (owner : String)
    (index : Index) :
    ∃ known next, (registry.attach owner index).outcome = .ok (known, next) ∧
      Recalls next (journal ++ (registry.attach owner index).journal)
        (calls ++ [.attach owner index]) := by
  have tables := registeredTables_attach calls owner index
  have ids := recalls.ids.trans (registeredIds_eq_of_tables tables).symm
  have newest (id : String) := (recalls.newest id).trans (newest?_eq_of_tables tables id).symm
  have silent : repeats (calls ++ [.attach owner index]) = repeats calls := by
    rw [repeats_concat, endsInRepeat_attach, if_neg Bool.false_ne_true, Nat.add_zero]
  rw [attach_eq]
  split
  next known =>
    refine ⟨_, _, rfl, ids, newest, fun id => ?_, ?_, ?_⟩
    next =>
      rw [pendingIndexes_attach, attachedIndexes_concat id rfl, recalls.attached]
      split
      next => rfl
      next unknown =>
        have apart : owner ≠ id := by
          rintro rfl
          exact unknown (recalls.ids ▸ known)
        simp [attachedIndexes_of_notMem unknown, Call.index?, apart]
    next => rw [silent, Journal.append_empty, recalls.warned]
    next => rw [silent, Journal.append_empty, recalls.told]
  next unknown =>
    refine ⟨_, _, rfl, ids, newest, fun id => ?_, ?_, ?_⟩
    next =>
      rw [attachedIndexes_concat id rfl, recalls.attached]
      split
      next present =>
        have apart : owner ≠ id := by
          rintro rfl
          exact unknown (recalls.ids ▸ present)
        simp [Call.index?, apart]
      next absent => exact attachedIndexes_of_notMem absent
    next =>
      rw [silent, ← recalls.warned]
      simp [reportsRepeat_unresolved_index]
    next =>
      rw [silent, ← recalls.told]
      simp

theorem Recalls.reset (recalls : Recalls registry journal calls) :
    Recalls registry.reset journal (calls ++ [.reset]) where
  ids := by rw [registeredIds, registeredTables_reset]; rfl
  newest _ := by rw [newest?, registeredTables_reset]; rfl
  attached _ := by rw [attachedIndexes, sinceReset_concat]; rfl
  warned := by
    rw [repeats_concat, endsInRepeat_reset, recalls.warned, if_neg Bool.false_ne_true, Nat.add_zero]
  told := by
    rw [repeats_concat, endsInRepeat_reset, recalls.told, if_neg Bool.false_ne_true, Nat.add_zero]

theorem Recalls.perform (recalls : Recalls registry journal calls) (call : Call R) :
    ∃ next, (registry.perform call).outcome = .ok next ∧
      Recalls next (journal ++ (registry.perform call).journal) (calls ++ [call]) := by
  cases call with
  | register table => exact recalls.register table
  | attach owner index =>
    obtain ⟨known, next, attached, held⟩ := recalls.attach owner index
    have performed : registry.perform (.attach owner index) =
        ⟨(registry.attach owner index).journal, .ok next⟩ := by
      unfold Registry.perform
      simp only [bind, Journaled.bind, attached, pure, Journaled.pure, Journal.append_empty]
    rw [performed]
    exact ⟨next, rfl, held⟩
  | reset =>
    have performed : registry.perform .reset = ⟨{}, .ok registry.reset⟩ := rfl
    rw [performed, Journal.append_empty]
    exact ⟨registry.reset, rfl, recalls.reset⟩

theorem performAll_concat (calls : List (Call R)) (call : Call R) :
    performAll (calls ++ [call]) = performAll calls >>= fun registry => registry.perform call := by
  simp [performAll, List.foldlM_append]

theorem performAll_recalls (calls : List (Call R)) :
    ∃ registry, (performAll calls).outcome = .ok registry ∧
      Recalls registry (performAll calls).journal calls := by
  induction calls using List.reverseRecOn with
  | nil => exact ⟨{}, rfl, .empty⟩
  | append_singleton calls call ih =>
    obtain ⟨registry, reached, recalls⟩ := ih
    obtain ⟨next, performed, recalled⟩ := recalls.perform call
    refine ⟨next, ?_, ?_⟩ <;>
      simp only [performAll_concat, bind, Journaled.bind, reached]
    next => exact performed
    next => exact recalled

theorem Recalls.merged (recalls : Recalls registry journal calls) :
    registry.merged = (registeredIds calls).filterMap fun id =>
      (newest? calls id).map (·.addIndexes (attachedIndexes calls id)) := by
  have distinct : (registry.tables.map (·.id)).Nodup := by
    have ids : registry.tables.map (·.id) = registeredIds calls := recalls.ids
    rw [ids]
    exact Firsts.nodup_eraseDups _
  have finished (table : Table R) (member : table ∈ registry.tables) :
      (newest? calls table.id).map (·.addIndexes (attachedIndexes calls table.id)) =
        some (table.addIndexes (registry.pendingIndexes table.id)) := by
    have found : registry.table? table.id = some table :=
      (find?_eq_some_of_nodup distinct).mpr ⟨member, rfl⟩
    rw [← recalls.newest, ← recalls.attached, found, Option.map_some]
  rw [← recalls.ids, tableIds, List.filterMap_map, Registry.merged, ← List.filterMap_eq_map]
  exact (List.filterMap_congr finished).symm

/-- After any calls, every id registered since the last reset has one table: its newest record with
the indexes attached to it, which a later record neither loses nor repeats. An index of another id
is answered with one warning. The tables declared more than once are reported call by call. -/
theorem holds_of_calls (calls : List (Call R)) :
    ∃ registry journal, performAll calls = ⟨journal, .ok registry⟩ ∧
      (registry.merged.map (·.id) = registeredIds calls ∧ (registeredIds calls).Nodup) ∧
      registry.merged = (registeredIds calls).filterMap (fun id =>
        (newest? calls id).map (·.addIndexes (attachedIndexes calls id))) ∧
      (∀ table id, attachedIndexes (calls ++ [.register table]) id = attachedIndexes calls id) ∧
      (∀ id index, registry.attach id index =
        if id ∈ registeredIds calls then
          ⟨{}, .ok (true, { registry with pending := registry.pending ++ [(id, index)] })⟩
        else
          ⟨{ warnings := [.unresolved "Index" id (some index.name)] }, .ok (false, registry)⟩) ∧
      journal.warnings.countP (·.reportsRepeat) = repeats calls ∧
      journal.notices.length = repeats calls := by
  obtain ⟨registry, reached, recalls⟩ := performAll_recalls calls
  refine ⟨registry, (performAll calls).journal, ?_, ⟨?_, Firsts.nodup_eraseDups _⟩, recalls.merged,
    attachedIndexes_register calls, fun id index => ?_, recalls.warned, recalls.told⟩
  next => rw [← reached]
  next => rw [ids_merged, recalls.ids]
  next => rw [attach_eq, recalls.ids]

end SchemaAtlas.Registry
