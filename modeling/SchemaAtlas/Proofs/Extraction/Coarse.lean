import SchemaAtlas.Proofs.Blocks.Scan
import SchemaAtlas.Proofs.Fluent.Openings
import SchemaAtlas.Proofs.Fluent.Scan
import SchemaAtlas.Proofs.Text.Extents

/-!
The coarse readings complete on every text. They look for the partner of a bracket only behind an
opening bracket, and try to build no column without a name or a type.
-/

set_option autoImplicit false

namespace SchemaAtlas

namespace Text

/-- The text behind an opening bracket of a text, and the group that a lookup at the bracket finds
there, if the group is closed. -/
def LooksUp (cs : List Char) (opener : Char) (behind : List Char) : Prop :=
  ∃ place : Nat, cs[place]? = some opener ∧ cs.drop (place + 1) = behind ∧
    partner? cs place = .ok ((closeGroup? opener behind).map fun group =>
      ((place + 1 + group.1.length : Nat) : Int))

theorem LooksUp.of_suffix {cs behind : List Char} {opener closer : Char}
    (pair : closerOf? opener = some closer) (stands : opener :: behind <:+ cs) :
    LooksUp cs opener behind := by
  obtain ⟨front, rfl⟩ := stands
  have opens : (front ++ opener :: behind)[front.length]? = some opener := by simp
  have rest : (front ++ opener :: behind).drop (front.length + 1) = behind := by simp
  have found := partner?_eq_group opens pair
  rw [rest] at found
  exact ⟨front.length, opens, rest, found⟩

end Text

namespace Fluent.Scan

open Text

variable {cs : List Char} {opening : Opening}
  (member : opening ∈ allMatches (fun _ => opening?) cs)

include member

theorem suffix_of_mem_openings : '(' :: opening.behind <:+ cs := by
  obtain ⟨_, rest, _, stands, opens⟩ := exists_suffix_of_mem_matchesFrom 0 none member
  calc '(' :: opening.behind
    _ <:+ rest.tail := suffix_of_opening? opens
    _ <:+ rest := List.tail_suffix rest
    _ <:+ cs := stands

theorem looksUp_call : LooksUp cs '(' opening.behind :=
  .of_suffix rfl (suffix_of_mem_openings member)

theorem looksUp_columns {keywords : DrizzleKeywords} {arguments name body : List Char}
    (made : tableArguments? keywords opening = some arguments)
    (head : tableHead? arguments = some (name, body)) : LooksUp cs '{' body := by
  refine .of_suffix rfl ?_
  calc '{' :: body
    _ <:+ arguments := suffix_of_tableHead? head
    _ <:+ opening.behind := suffix_of_tableArguments? made
    _ <:+ '(' :: opening.behind := List.suffix_cons '(' opening.behind
    _ <:+ cs := suffix_of_mem_openings member

end Fluent.Scan

variable {R : Type} [Coordinate R]

open Text

/-- Unless unknown tables are to be faults, both coarse readings return a schema for every text. The
script's brackets are looked up where they open, and every entry and every line is a column with a
name and a type or is passed over. -/
theorem coarse_readings_return {config : Config R} {scripts blocks : TypeMap}
    (fluent : config.drizzleTypes = scripts.provider)
    (blockwise : config.prismaTypes = blocks.provider)
    (lenient : config.onUnresolved ≠ .fail) (draws : Nat → R) (text : List Char) :
    (∃ schema, (Fluent.Scan.readSchema config draws text).outcome = .ok schema) ∧
    (∃ schema, (Blocks.Scan.readSchema config draws text).outcome = .ok schema) ∧
    (∀ opening ∈ allMatches (fun _ => Fluent.Scan.opening?) (stripComments text),
      LooksUp (stripComments text) '(' opening.behind ∧
      ∀ arguments name body,
        Fluent.Scan.tableArguments? config.drizzleKeywords opening = some arguments →
        Fluent.Scan.tableHead? arguments = some (name, body) →
        LooksUp (stripComments text) '{' body) ∧
    (∀ entry, ∃ found, Fluent.Scan.column? config.drizzleTypes entry = .ok found ∧
      ∀ column ∈ found, IsWordText column.name.toList ∧ column.type ≠ "") ∧
    ∀ line, ∃ found, Blocks.Scan.column? config.prismaTypes line = .ok found ∧
      ∀ column ∈ found, IsWordText column.name.toList ∧ column.type ≠ "" := by
  obtain ⟨script, scanned, -⟩ := Fluent.Scan.readSchema_completes fluent lenient draws text
  obtain ⟨tables, skimmed⟩ := Blocks.Scan.readSchema_returns blockwise draws text
  refine ⟨⟨script, scanned⟩, ⟨_, skimmed⟩, fun opening member => ⟨?_, ?_⟩, ?_, ?_⟩
  next => exact Fluent.Scan.looksUp_call member
  next => exact fun arguments name body made head => Fluent.Scan.looksUp_columns member made head
  next => exact fluent ▸ Fluent.Scan.column?_returns scripts
  next => exact blockwise ▸ Blocks.Scan.column?_returns blocks

/-- A table that breaks off in the middle of a column. -/
def brokenOff : List Char := "export const users = pgTable('users', \x7b id: serial('id'".toList

theorem coarse_readings_return_brokenOff :
    (Config.default : Config Int).onUnresolved ≠ .fail ∧
      (∃ schema, (Fluent.Scan.readSchema Config.default (fun _ => (0 : Int)) brokenOff).outcome =
        .ok schema) ∧
      (∃ schema, (Blocks.Scan.readSchema Config.default (fun _ => (0 : Int)) brokenOff).outcome =
        .ok schema) ∧
      LooksUp (stripComments brokenOff) '{' " id: serial('id'".toList := by
  let opening : Fluent.Scan.Opening :=
    { name := "users", callee := "pgTable"
      behind := "'users', \x7b id: serial('id'".toList }
  have lenient : (Config.default : Config Int).onUnresolved ≠ .fail := by decide
  obtain ⟨script, blocks, found, -⟩ := coarse_readings_return
    (rfl : Config.default.drizzleTypes = TypeMap.drizzle.provider)
    (rfl : Config.default.prismaTypes = TypeMap.prisma.provider) lenient (fun _ => 0) brokenOff
  have member : opening ∈ allMatches (fun _ => Fluent.Scan.opening?) (stripComments brokenOff) := by
    decide +kernel
  have made : Fluent.Scan.tableArguments? {} opening = some opening.behind := by decide +kernel
  have head : Fluent.Scan.tableHead? opening.behind =
      some ("users".toList, " id: serial('id'".toList) := by decide +kernel
  exact ⟨lenient, script, blocks, (found opening member).2 _ _ _ made head⟩

end SchemaAtlas
