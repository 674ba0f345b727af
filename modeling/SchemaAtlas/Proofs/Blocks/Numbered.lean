import Mathlib.Data.List.DropRight
import SchemaAtlas.Proofs.Blocks.Model
import SchemaAtlas.Proofs.Pairs
import SchemaAtlas.Proofs.Text.Extents

/-!
The line numbers of fields. They are counted from the line that the header of a block begins on,
and so are right for blocks whose header stands on one line.
-/

set_option autoImplicit false

namespace SchemaAtlas.Blocks

open Text

section Lines

/-- What stands in front of a place on its line. -/
def lineFront (cs : List Char) (place : Nat) : List Char :=
  (cs.take place).rtakeWhile (· ≠ '\n')

/-- The rest of a line from a place on. -/
def lineRest (cs : List Char) (place : Nat) : List Char :=
  (cs.drop place).takeWhile (· ≠ '\n')

variable {first rest : List Char} {place : Nat}

theorem takeWhile_feed (cs rest : List Char) :
    (cs ++ '\n' :: rest).takeWhile (· ≠ '\n') = cs.takeWhile (· ≠ '\n') := by
  induction cs with
  | nil => rfl
  | cons c cs ih => simp only [List.cons_append, List.takeWhile_cons, ih]

theorem lineFront_append (within : place ≤ first.length) :
    lineFront (first ++ rest) place = lineFront first place := by
  rw [lineFront, lineFront, List.take_append_of_le_length within]

theorem lineRest_append (within : place ≤ first.length) :
    lineRest (first ++ '\n' :: rest) place = lineRest first place := by
  rw [lineRest, lineRest, List.drop_append_of_le_length within, takeWhile_feed]

theorem drop_behind (first rest : List Char) (place : Nat) :
    (first ++ '\n' :: rest).drop (first.length + 1 + place) = rest.drop place := by
  rw [Nat.add_assoc, List.drop_length_add_append, Nat.add_comm, List.drop_succ_cons]

theorem take_behind (first rest : List Char) (place : Nat) :
    (first ++ '\n' :: rest).take (first.length + 1 + place) = first ++ '\n' :: rest.take place := by
  rw [Nat.add_assoc, List.take_length_add_append, Nat.add_comm, List.take_succ_cons]

theorem lineFront_behind :
    lineFront (first ++ '\n' :: rest) (first.length + 1 + place) = lineFront rest place := by
  rw [lineFront, take_behind, List.rtakeWhile, List.reverse_append, List.reverse_cons,
    List.append_assoc, List.singleton_append, takeWhile_feed, lineFront, List.rtakeWhile]

theorem lineRest_behind :
    lineRest (first ++ '\n' :: rest) (first.length + 1 + place) = lineRest rest place := by
  rw [lineRest, drop_behind, lineRest]

end Lines

/-- A field is written at a place of a body: its name begins there behind blanks, and the rest of the
line declares it. -/
structure Field.WrittenAt (field : Field) (body : List Char) (place : Nat) : Prop where
  indented : ∀ c ∈ lineFront body place, isBlank c = true
  named : field.name.toList <+: body.drop place
  declared : Field.ofLine? field.line (trim (lineRest body place)) = .ok (some field)

namespace Field.WrittenAt

variable {field : Field} {body first rest : List Char} {place : Nat}

theorem lt_length (written : field.WrittenAt body place) : place < body.length := by
  obtain ⟨-, word, -⟩ := Field.of_ofLine? written.declared
  obtain ⟨behind, same⟩ := written.named
  have length := congrArg List.length same
  have some := List.length_pos_iff.mpr word.1
  rw [List.length_append, List.length_drop] at length
  omega

theorem append (written : field.WrittenAt first place) (rest : List Char) :
    field.WrittenAt (first ++ '\n' :: rest) place := by
  have within := Nat.le_of_lt written.lt_length
  obtain ⟨indented, named, declared⟩ := written
  constructor
  next => rwa [lineFront_append within]
  next =>
    rw [List.drop_append_of_le_length within]
    exact named.trans (List.prefix_append _ _)
  next => rwa [lineRest_append within]

theorem behind (written : field.WrittenAt rest place) (first : List Char) :
    field.WrittenAt (first ++ '\n' :: rest) (first.length + 1 + place) := by
  obtain ⟨indented, named, declared⟩ := written
  constructor
  next => rwa [lineFront_behind]
  next => rwa [drop_behind]
  next => rwa [lineRest_behind]

theorem of_line {line : Nat} {cs : List Char} (unbroken : '\n' ∉ cs)
    (read : Field.ofLine? line (trim cs) = .ok (some field)) : ∃ place, field.WrittenAt cs place := by
  obtain ⟨gap, split, blank⟩ := exists_trimLeft cs
  obtain ⟨numbered, -, named⟩ := Field.of_ofLine? read
  have held : '\n' ∉ gap ∧ '\n' ∉ trimLeft cs := by
    rw [split, List.mem_append, not_or] at unbroken
    exact unbroken
  have whole {cs : List Char} (unbroken : '\n' ∉ cs) : ∀ c ∈ cs, decide (c ≠ '\n') = true := by
    intro c member
    simpa using ne_of_mem_of_not_mem member unbroken
  have front : cs.take gap.length = gap := by
    nth_rewrite 1 [split]
    exact List.take_left
  have rest : cs.drop gap.length = trimLeft cs := by
    nth_rewrite 1 [split]
    exact List.drop_left
  have same : trim (trimLeft cs) = trim cs := by
    rw [← trim_append blank, ← split]
  refine ⟨gap.length, ?_, ?_, ?_⟩
  next => rwa [lineFront, front, List.rtakeWhile_eq_self_iff.mpr (whole held.1)]
  next =>
    rw [rest]
    exact named.trans (List.rdropWhile_prefix isBlank _)
  next =>
    rw [lineRest, rest, List.takeWhile_eq_self_iff.mpr (whole held.2), same, numbered]
    exact read

end Field.WrittenAt

namespace Model

def Item.fields : Item → List Field
  | .field declared => [declared]
  | _ => []

theorem fields_of_ofLines? {name : String} {start line : Nat} {cs : List Char}
    {rest : List (List Char)} {model : Model}
    (read : ofLines? name start line (cs :: rest) = .ok model) :
    ∃ item later, Item.ofLine? line cs = .ok item ∧
      ofLines? name start (line + 1) rest = .ok later ∧
      model.fields = item.fields ++ later.fields := by
  rw [ofLines?] at read
  obtain ⟨item, first, read⟩ := bind_eq_ok.mp read
  obtain ⟨later, behind, same⟩ := bind_eq_ok.mp read
  refine ⟨item, later, first, behind, ?_⟩
  cases item <;> cases same <;> rfl

theorem Item.fields_writtenAt {line : Nat} {cs : List Char} {item : Item} (unbroken : '\n' ∉ cs)
    (read : ofLine? line cs = .ok item) : ∃ places : List Nat, places.Pairwise (· < ·) ∧
      List.Forall₂ (fun field place => Field.WrittenAt field cs place ∧
        field.line = line + (cs.take place).count '\n') item.fields places := by
  cases item with
  | nothing => exact ⟨[], .nil, .nil⟩
  | attributes => exact ⟨[], .nil, .nil⟩
  | field declared =>
    have found := Item.field_of_ofLine? read
    obtain ⟨place, written⟩ := Field.WrittenAt.of_line unbroken found
    have none : (cs.take place).count '\n' = 0 :=
      List.count_eq_zero.mpr fun member => unbroken (List.mem_of_mem_take member)
    have numbered : declared.line = line + (cs.take place).count '\n' := by
      rw [none, (Field.of_ofLine? found).1, Nat.add_zero]
    exact ⟨[place], List.pairwise_singleton _ _, .cons ⟨written, numbered⟩ .nil⟩

/-- The fields of a model are those written on the lines of its body, with as many lines in front of
each as there are line feeds. -/
theorem fields_writtenAt {name : String} {start line : Nat} {body : List Char} {model : Model}
    (read : ofLines? name start line (lines body) = .ok model) :
    ∃ places : List Nat, places.Pairwise (· < ·) ∧
      List.Forall₂ (fun field place => Field.WrittenAt field body place ∧
        field.line = line + (body.take place).count '\n') model.fields places := by
  -- The lines are read from the front, so that the induction is on what is left of the body.
  generalize size : body.length = n
  induction n using Nat.strong_induction_on generalizing line body model with
  | _ n ih =>
    by_cases broken : '\n' ∈ body
    next =>
      obtain ⟨first, rest, rfl, unbroken⟩ := List.eq_append_cons_of_mem broken
      rw [lines_append unbroken] at read
      obtain ⟨item, later, here, behind, fields⟩ := fields_of_ofLines? read
      obtain ⟨places, ascends, written⟩ := Item.fields_writtenAt unbroken here
      have shorter : rest.length < n := by
        rw [← size, List.length_append, List.length_cons]
        omega
      obtain ⟨places', ascends', written'⟩ := ih rest.length shorter behind rfl
      refine ⟨places ++ places'.map (first.length + 1 + ·), ?_, ?_⟩
      next =>
        refine List.pairwise_append.mpr ⟨ascends, ?_, ?_⟩
        next => exact ascends'.map _ fun _ _ before => by omega
        next =>
          intro place member other member'
          obtain ⟨field, -, here, -⟩ := exists_of_forall₂ written member
          obtain ⟨earlier, -, rfl⟩ := List.mem_map.mp member'
          have within := here.lt_length
          omega
      next =>
        have none : first.count '\n' = 0 := List.count_eq_zero.mpr unbroken
        rw [fields]
        refine List.rel_append (written.imp ?_) (List.forall₂_map_right_iff.mpr (written'.imp ?_))
        next =>
          rintro field place ⟨here, numbered⟩
          have within := Nat.le_of_lt here.lt_length
          exact ⟨here.append rest, by rwa [List.take_append_of_le_length within]⟩
        next =>
          rintro field place ⟨here, numbered⟩
          refine ⟨here.behind first, ?_⟩
          rw [take_behind, List.count_append, none, List.count_cons_self, numbered]
          omega
    next =>
      rw [lines, splitAt_whole broken] at read
      obtain ⟨item, later, here, behind, fields⟩ := fields_of_ofLines? read
      cases behind
      rw [fields, List.append_nil]
      exact Item.fields_writtenAt broken here

end Model

/-- The fields of a model are written in the body of its block, and each has the number of its line in
the text with all comments, less the line feeds that the header of the block holds: the number is
right if and only if the header holds none. -/
theorem fields_lag_behind_headers (keyword : String) (cs : List Char) :
    ∃ extents : List Extent,
      extents.Pairwise (fun first second => first.close < second.start) ∧
      List.Forall₂ (fun block extent =>
        block.StandsAt keyword.toList (stripComments cs) extent ∧
        ∀ model, Model.ofBlock? block = .ok model →
          ∃ places : List Nat, places.Pairwise (· < ·) ∧
            List.Forall₂ (fun field place =>
              field.WrittenAt block.body place ∧
              (originalLine? cs (extent.brace + 1 + place) = some field.line ↔
                '\n' ∉ extent.header (stripComments cs)) ∧
              originalLine? cs (extent.brace + 1 + place) =
                some (field.line + (extent.header (stripComments cs)).count '\n'))
              model.fields places)
        (blocks keyword (stripComments cs)).blocks extents := by
  obtain ⟨extents, scans⟩ := blocksFrom_scans keyword.toList [] (stripComments cs)
  change Scans keyword.toList (stripComments cs) 0 (blocks keyword (stripComments cs)) extents
    at scans
  refine ⟨extents, scans.ascending, scans.standsAt.imp fun block extent stands => ⟨stands, ?_⟩⟩
  intro model read
  obtain ⟨places, ascends, written⟩ := Model.fields_writtenAt read
  refine ⟨places, ascends, written.imp ?_⟩
  rintro field place ⟨here, numbered⟩
  obtain ⟨within, line⟩ := stands.lineNumberAt_body here.lt_length
  have original : originalLine? cs (extent.brace + 1 + place) =
      some (field.line + (extent.header (stripComments cs)).count '\n') := by
    rw [originalLine?_eq within, line, numbered]
    congr 1
    omega
  refine ⟨here, ?_, original⟩
  rw [original, Option.some.injEq, Nat.add_eq_left, List.count_eq_zero]

def loweredBrace : List Char := "model User\n\x7b\n  id Int @id\n\x7d".toList

/-- With a line feed in front of the brace a field has the number of the line before its own. -/
theorem lowered_brace_misnumbers :
    ∃ block ∈ (blocks "model" (stripComments loweredBrace)).blocks, ∃ extent : Extent,
      block.StandsAt "model".toList (stripComments loweredBrace) extent ∧
      ∃ model, Model.ofBlock? block = .ok model ∧
        ∃ field ∈ model.fields, ∃ place, field.WrittenAt block.body place ∧
          field.line = 2 ∧ originalLine? loweredBrace (extent.brace + 1 + place) = some 3 := by
  let block : Block := { name := "User", body := "\n  id Int @id\n".toList, line := 1 }
  let extent : Extent :=
    { start := 0, brace := 11, close := 26, opens := by decide, closes := by decide }
  let field : Field :=
    { name := "id", type := "Int", isArray := false, isOptional := false
      attributes := [{ name := "id" }], line := 2 }
  let model : Model := { name := "User", fields := [field], attributes := [], line := 1 }
  have header : HeaderAt "model".toList (stripComments loweredBrace) 0 11 "User".toList := by
    constructor
    next => exact fun c before => by cases before
    next => decide
    next => exact ⟨[' '], ['\n'], by decide, by decide, by decide, by decide⟩
    next => decide
  have stands : block.StandsAt "model".toList (stripComments loweredBrace) extent :=
    ⟨header, by decide +kernel, by decide, by decide⟩
  have written : field.WrittenAt block.body 3 := ⟨by decide, by decide, by decide +kernel⟩
  have inside : block ∈ (blocks "model" (stripComments loweredBrace)).blocks := by decide +kernel
  have read : Model.ofBlock? block = .ok model := by decide +kernel
  have original : originalLine? loweredBrace (extent.brace + 1 + 3) = some 3 := by decide +kernel
  exact ⟨block, inside, extent, stands, model, read, field, .head _, 3, written, rfl, original⟩

end SchemaAtlas.Blocks
