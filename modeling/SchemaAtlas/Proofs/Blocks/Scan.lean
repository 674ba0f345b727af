import Mathlib.Data.List.TakeWhile
import SchemaAtlas.Blocks.Scan
import SchemaAtlas.Proofs.Blocks.Table
import SchemaAtlas.Proofs.Registry
import SchemaAtlas.Proofs.Schema
import SchemaAtlas.Proofs.Text.Runs

/-!
The coarse reading of blocks: it finds tables of different ids and no links at all.
-/

set_option autoImplicit false

namespace SchemaAtlas.Blocks.Scan

open Text

theorem flatBlock?_header {kind cs name : List Char} {before : Option Char} {body rest : List Char}
    (header : blockHeader? kind before cs = some (name, body ++ '}' :: rest)) (plain : '}' ∉ body) :
    flatBlock? kind before cs = some ((name, body), rest) := by
  simp only [flatBlock?, header, Option.bind_eq_bind, Option.bind_some, dropWhile_ne plain,
    takeWhile_ne plain]
  rfl

theorem flatBlock?_open {kind cs name behind : List Char} {before : Option Char}
    (header : blockHeader? kind before cs = some (name, behind)) (plain : '}' ∉ behind) :
    flatBlock? kind before cs = none := by
  have gone : behind.dropWhile (· ≠ '}') = [] := List.dropWhile_eq_nil_iff.mpr fun c member =>
    decide_eq_true fun same => plain (same ▸ member)
  simp only [flatBlock?, header, Option.bind_eq_bind, Option.bind_some, gone]

theorem flatBlock?_eq_none {kind cs : List Char} {before : Option Char}
    (nowhere : blockHeader? kind before cs = none) :
    flatBlock? kind before cs = none := by
  rw [flatBlock?, nowhere]
  rfl

theorem column?_fails (types : TypeProvider) (cs : List Char) :
    FailsOnly (ColumnFails types) (column? types cs) := by
  unfold column?
  simp only
  split
  next => exact .ok none
  next =>
    split
    next => exact .ok none
    next =>
      refine .bind (fun _ => .typed) fun resolved => ?_
      cases resolved with
      | none => exact .ok none
      | some type => exact .bind (.mapError .refused) fun column => .ok (some column)

theorem columns_fails (types : TypeProvider) (body : List Char) :
    FailsOnly (ColumnFails types) (columns types body) :=
  .bind (.mapM _ fun line _ => column?_fails types line) fun _ => .ok _

theorem references_of_column? {types : TypeProvider} {cs : List Char} {column : Column}
    (read : column? types cs = .ok (some column)) : column.references = none := by
  unfold column? at read
  simp only at read
  split at read
  next => cases read
  next =>
    split at read
    next => cases read
    next name type _ _ =>
      obtain ⟨resolved, -, read⟩ := bind_eq_ok.mp read
      cases resolved with
      | none => cases read
      | some resolved =>
        obtain ⟨found, built, same⟩ := bind_eq_ok.mp read
        cases same
        exact (Column.ofFields?_eq_ok (mapError_eq_ok.mp built)).2

theorem references_of_columns {types : TypeProvider} {body : List Char} {found : List Column}
    (read : columns types body = .ok found) : ∀ column ∈ found, column.references = none := by
  intro column member
  obtain ⟨lines, mapped, same⟩ := bind_eq_ok.mp read
  cases same
  obtain ⟨entry, present, rfl⟩ := List.mem_filterMap.mp member
  obtain ⟨line, -, here⟩ := exists_of_mem_mapM mapped present
  exact references_of_column? here

section Lines

variable {types : TypeProvider} {line : List Char} {found : Option Column} (whole : '\n' ∉ line)
  (here : column? types line = .ok found)

include whole here

theorem columns_line : columns types line = .ok found.toList := by
  rw [columns, lines, splitAt_whole whole, List.mapM_cons, here]
  cases found <;> rfl

theorem columns_cons {rest : List Char} {others : List Column}
    (later : columns types rest = .ok others) :
    columns types (line ++ '\n' :: rest) = .ok (found.toList ++ others) := by
  obtain ⟨columns, mapped, same⟩ := bind_eq_ok.mp later
  cases same
  rw [Scan.columns, lines_append whole, List.mapM_cons, here, mapped]
  cases found <;> rfl

end Lines

/-- With a dictionary of types every line is a column, of a word and with a type, or passed over. -/
theorem column?_returns (types : TypeMap) (cs : List Char) :
    ∃ found, column? types.provider cs = .ok found ∧
      ∀ column ∈ found, IsWordText column.name.toList ∧ column.type ≠ "" := by
  unfold column?
  simp only
  split
  next => exact ⟨none, rfl, nofun⟩
  next =>
    split
    next => exact ⟨none, rfl, nofun⟩
    next parts =>
      simp only [Field.parts?, Option.bind_eq_bind, Option.bind_eq_some_iff] at parts
      obtain ⟨⟨word, _⟩, taken, _, -, ⟨run, _⟩, -, same⟩ := parts
      cases same
      have text := isWordText_of_takeWord? taken
      simp only [TypeMap.provider]
      cases known : types.resolve (String.ofList (plainType run)) with
      | none => exact ⟨none, rfl, nofun⟩
      | some resolved =>
        have typed := (TypeMap.resolve_eq_some known).2
        simp only [bind, Except.bind,
          Column.ofFields?_ok (by simpa using text.1 : String.ofList word ≠ "") typed]
        refine ⟨_, rfl, ?_⟩
        rintro _ ⟨⟩
        exact ⟨by simpa using text, typed⟩

theorem columns_returns (types : TypeMap) (body : List Char) :
    ∃ found, columns types.provider body = .ok found := by
  obtain ⟨found, mapped, -⟩ := exists_mapM (List.forall₂_same.mpr fun _ _ => trivial)
    fun line (_ : line ∈ lines body) other (_ : True) => column?_returns types other
  exact ⟨_, bind_eq_ok.mpr ⟨found, mapped, rfl⟩⟩

variable {R : Type}

/-- A registry as this reading leaves it: no column references anything. -/
structure Bare (registry : Registry R) : Prop where
  distinct : registry.Distinct
  plain : ∀ table ∈ registry.tables, ∀ column ∈ table.columns, column.references = none

theorem plainType_eq_self {cs : List Char} (word : IsWordText cs) : plainType cs = cs := by
  refine List.filter_eq_self.mpr fun c member => ?_
  have inside := word.2 c member
  rw [decide_eq_true_eq]
  refine ⟨?_, ?_, ?_⟩ <;> rintro rfl <;> cases inside

variable [Coordinate R]

section Added

variable {config : Config R} {model : List Char × List Char} {found : List Column}
  (read : columns config.prismaTypes model.2 = .ok found)

include read

theorem addModel_skips (none : found = []) (draws : Nat → R) (state : Registry R × Nat) :
    (addModel config draws state model).Returns (· = state) := by
  obtain ⟨registry, drawn⟩ := state
  unfold addModel
  refine (Journaled.Returns.ofExcept read).bind fun _ same => ?_
  rw [same, none]
  exact (Journaled.Returns.record _).bind fun _ _ => .pure rfl

/-- The table of a model whose name is new stands behind the others. -/
theorem addModel_enters (some : found ≠ []) (draws : Nat → R) {registry : Registry R}
    (new : String.ofList model.1 ∉ registry.tables.map (·.id)) (drawn : Nat) :
    (addModel config draws (registry, drawn) model).Returns fun next =>
      next.2 = drawn + 1 ∧ next.1 =
        { registry with
          tables := registry.tables ++ [
            { id := String.ofList model.1, name := String.ofList model.1, columns := found
              position := config.layout.position (draws drawn) registry.size }] } := by
  unfold addModel
  refine (Journaled.Returns.ofExcept read).bind fun _ same => ?_
  rw [same, if_neg (by simpa using some)]
  refine (Journaled.Returns.record _).bind fun _ _ => ?_
  refine (Registry.register_returns registry _).bind fun next same => .pure ⟨rfl, ?_⟩
  rw [same, Registry.put_eq, Keyed.put_of_new new]

end Added

theorem addModel_keeps (config : Config R) (draws : Nat → R) {state : Registry R × Nat}
    (bare : Bare state.1) (model : List Char × List Char) :
    (addModel config draws state model).Keeps (·.reportsDrop = false)
      (ColumnFails config.prismaTypes) (Bare ·.1) := by
  obtain ⟨registry, drawn⟩ := state
  unfold addModel
  refine .bind (.ofExcept (columns_fails _ _) fun _ read => references_of_columns read)
    fun columns plain => ?_
  split
  next =>
    refine .bind (.warn ?_) fun _ _ => .pure bare
    simp [Warning.reportsDrop, beginsWith, dropLiteral?]
  next =>
    refine Registry.enter_keeps drawn ⟨bare.distinct.entered _, ?_⟩
    intro table member
    -- A replaced table takes its columns with it.
    rw [Registry.put_eq] at member
    rcases Keyed.mem_put member with rfl | old
    · exact plain
    · exact bare.plain table old

theorem scan_keeps (config : Config R) (draws : Nat → R) (cleaned : List Char) :
    (scan config draws cleaned).Keeps (·.reportsDrop = false) (ColumnFails config.prismaTypes)
      (fun schema => schema.Settled config.onUnresolved false [] ∧
        Reflects schema.relationships schema.tables) := by
  unfold scan
  have tables := Journaled.Keeps.foldlM
    (allMatches (flatBlock? ['m', 'o', 'd', 'e', 'l']) cleaned)
    (fun state model _ bare => addModel_keeps config draws bare model)
    ({}, 0) ⟨Registry.distinct_empty, by simp⟩
  refine tables.bind fun (registry, _) bare => .pure ⟨?_, ?_⟩
  · exact Registry.settled bare.distinct (by simp) (by simp [Relationship.admitted]) (by simp) _
  · intro table member column inside
    obtain ⟨registered, present, same⟩ := Registry.mem_merged member
    exact bare.plain registered present column (same ▸ inside)

theorem readSchema_keeps (config : Config R) (draws : Nat → R) (text : List Char) :
    (readSchema config draws text).Keeps (·.reportsDrop = false)
      (fun fault => ∃ cause, ColumnFails config.prismaTypes cause ∧
        fault = cause.inFallback Dialect.prisma.displayName)
      (fun schema => schema.Settled config.onUnresolved false [] ∧
        Reflects schema.relationships schema.tables) :=
  (scan_keeps config draws _).mapFault fun cause fails => ⟨cause, fails, rfl⟩

section Dictionary

variable {config : Config R} {types : TypeMap} (known : config.prismaTypes = types.provider)

include known

theorem addModel_returns (draws : Nat → R) (state : Registry R × Nat)
    (model : List Char × List Char) :
    (addModel config draws state model).Returns fun _ => True := by
  obtain ⟨registry, drawn⟩ := state
  obtain ⟨found, read⟩ := columns_returns types model.2
  unfold addModel
  rw [known]
  refine (Journaled.Returns.ofExcept read).bind fun columns _ => ?_
  split
  next => exact (Journaled.Returns.record _).bind fun _ _ => .pure trivial
  next =>
    refine (Journaled.Returns.record _).bind fun _ _ => ?_
    exact (Registry.register_returns registry _).bind fun _ _ => .pure trivial

/-- With a dictionary of types a coarse reading succeeds. -/
theorem readSchema_returns (draws : Nat → R) (text : List Char) : ∃ tables,
    (readSchema config draws text).outcome =
      .ok { tables, enums := enums (stripComments text) } := by
  have models (models : List (List Char × List Char)) :
      (models.foldlM (addModel config draws) ({}, 0)).Returns fun _ => True :=
    .foldlM models (fun state model _ _ => addModel_returns known draws state model) _ trivial
  have scanned : (scan config draws (stripComments text)).Returns fun schema => ∃ tables,
      schema = { tables, enums := enums (stripComments text) } :=
    (models _).bind fun (registry, _) _ => .pure ⟨registry.merged, rfl⟩
  obtain ⟨_, found, tables, rfl⟩ := scanned.mapFault (Fault.inFallback Dialect.prisma.displayName)
  exact ⟨tables, found⟩

end Dictionary

theorem readSchema_congr {config config' : Config R}
    (types : config.prismaTypes = config'.prismaTypes)
    (layout : config.layout = config'.layout) : readSchema config = readSchema config' := by
  funext draws text
  have same : addModel config = addModel config' := by
    funext draws state model
    simp only [addModel, types, layout]
  simp only [readSchema, scan, same]

end SchemaAtlas.Blocks.Scan
