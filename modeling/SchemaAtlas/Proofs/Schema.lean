import SchemaAtlas.Proofs.Links
import SchemaAtlas.Schema.Basic

/-!
Schemas as readers leave them: every table has an id of its own, and the relationships are those of
a list of candidates that join two tables, each link once if the settings say so. Strict settings
leave no candidate out.
-/

set_option autoImplicit false

namespace SchemaAtlas

namespace Schema

variable {R : Type}

def mergeLinks (schema : Schema R) : Schema R :=
  { schema with relationships := Relationship.deduplicate schema.relationships }

structure Settled (schema : Schema R) (mode : ErrorMode) (once : Bool)
    (candidates : List Relationship) : Prop where
  distinct : schema.tableIds.Nodup
  named : ∀ relationship ∈ candidates, relationship.IsNamed
  relationships : schema.relationships = Relationship.admitted once schema.tableIds candidates
  strict : mode = .fail → ∀ relationship ∈ candidates, relationship.Joins schema.tableIds

namespace Settled

variable {schema : Schema R} {mode : ErrorMode} {once : Bool} {candidates : List Relationship}

theorem joins (settled : schema.Settled mode once candidates) {relationship : Relationship}
    (member : relationship ∈ schema.relationships) : relationship.Joins schema.tableIds := by
  rw [settled.relationships] at member
  exact (Relationship.mem_of_mem_admitted member).2

theorem isNamed (settled : schema.Settled mode once candidates) {relationship : Relationship}
    (member : relationship ∈ schema.relationships) : relationship.IsNamed := by
  rw [settled.relationships] at member
  exact settled.named relationship (Relationship.mem_of_mem_admitted member).1

theorem linked (settled : schema.Settled mode once candidates) {relationship : Relationship}
    (member : relationship ∈ candidates) (joins : relationship.Joins schema.tableIds) :
    ∃ first ∈ schema.relationships, first.linkKey = relationship.linkKey := by
  rw [settled.relationships]
  exact Relationship.exists_mem_admitted member joins

end Settled

end Schema

end SchemaAtlas
