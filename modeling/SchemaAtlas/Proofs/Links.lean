import SchemaAtlas.Proofs.Firsts
import SchemaAtlas.Proofs.Journaled
import SchemaAtlas.Proofs.Reports
import SchemaAtlas.Proofs.Text.Runs
import SchemaAtlas.Schema.Links

/-!
Relationships between known tables: what is kept of a list, what each mode says of the rest, and
what dropping repeated links leaves.
-/

set_option autoImplicit false

namespace SchemaAtlas.Relationship

def Joins (tables : List String) (relationship : Relationship) : Prop :=
  relationship.source ∈ tables ∧ relationship.target ∈ tables

instance (tables : List String) (relationship : Relationship) :
    Decidable (relationship.Joins tables) :=
  inferInstanceAs (Decidable (_ ∧ _))

def IsNamed (relationship : Relationship) : Prop :=
  relationship.id =
    idOf relationship.source relationship.sourceColumn relationship.target

theorem link_isNamed (source sourceColumn target targetColumn : String) :
    (link source sourceColumn target targetColumn).IsNamed := rfl

theorem toList_idOf (source column target : String) :
    (idOf source column target).toList =
      "rel-".toList ++ (source.toList ++ '-' :: (column.toList ++ '-' :: target.toList)) := by
  simp [idOf, String.toList_append]

/-- The name of a relationship tells its owner, its column and its target, whatever the column is
called, as long as no table has a dash in its name. -/
theorem id_link_inj {source source' target target' : String} (owner : '-' ∉ source.toList)
    (owner' : '-' ∉ source'.toList) (referenced : '-' ∉ target.toList)
    (referenced' : '-' ∉ target'.toList) (column column' key key' : String) :
    (link source column target key).id = (link source' column' target' key').id ↔
      source = source' ∧ column = column' ∧ target = target' := by
  simp only [link, ← String.toList_inj, toList_idOf, List.append_cancel_left_eq]
  rw [Text.append_cons_inj owner owner', Text.append_cons_inj_last referenced referenced']

theorem id_link_dashes :
    '-' ∉ "posts".toList ∧ '-' ∉ "users".toList ∧
      (link "posts" "author-id" "users" "id").id ≠ (link "posts" "author" "users" "id").id := by
  refine ⟨by decide, by decide, fun same => ?_⟩
  have told := (id_link_inj (by decide) (by decide) (by decide) (by decide) _ _ _ _).mp same
  exact absurd told.2.1 (by decide)

theorem missingEnd?_eq_none {tables : List String} {relationship : Relationship} :
    relationship.missingEnd? tables = none ↔ relationship.Joins tables := by
  simp [missingEnd?, Joins]

theorem unresolvedFault_speaks (tables : List String) (relationship : Relationship)
    (missing : String) : (relationship.unresolvedFault tables missing).Speaks :=
  Fault.unresolvedReference_speaks _ _ _ (by simp)

theorem resolve_keeps (tables : List String) (mode : ErrorMode)
    (relationships : List Relationship) :
    (resolve tables mode relationships).Keeps
      (·.Allowed mode) Fault.Speaks
      (fun kept => kept = relationships.filter (·.Joins tables) ∧
        (mode = .fail → ∀ relationship ∈ relationships, relationship.Joins tables)) := by
  induction relationships with
  | nil => exact .pure ⟨rfl, by simp⟩
  | cons relationship relationships ih =>
    unfold resolve
    split
    next known =>
      have joins := missingEnd?_eq_none.mp known
      refine .bind ih fun kept ⟨same, strict⟩ => .pure ⟨by simp [same, joins], ?_⟩
      intro failing
      simpa [joins] using strict failing
    next missing unknown =>
      -- Strict: nothing behind this relationship is looked at.
      exact .fail (unresolvedFault_speaks _ _ _)
    next missing unknown =>
      have apart : ¬ relationship.Joins tables := by simp [← missingEnd?_eq_none, unknown]
      refine .bind (.warn fun _ => rfl) fun _ _ => ?_
      simpa [apart] using ih
    next missing unknown =>
      have apart : ¬ relationship.Joins tables := by simp [← missingEnd?_eq_none, unknown]
      simpa [apart] using ih

/-- Only a strict mode makes a fault of a relationship, and of none that joins known tables. -/
theorem resolve_returns {tables : List String} {mode : ErrorMode}
    {candidates : List Relationship}
    (strict : mode = .fail → ∀ candidate ∈ candidates, candidate.Joins tables) :
    (resolve tables mode candidates).Returns (· ⊆ candidates) := by
  induction candidates with
  | nil => exact .pure (List.Subset.refl _)
  | cons candidate candidates ih =>
    have rest := ih fun failing other member => strict failing other (.tail _ member)
    have later : (resolve tables mode candidates).Returns (· ⊆ candidate :: candidates) :=
      rest.imp fun kept within => List.subset_cons_of_subset _ within
    unfold resolve
    split
    next => exact rest.bind fun kept within => .pure (List.cons_subset_cons _ within)
    next missing unknown =>
      have joins := missingEnd?_eq_none.mpr (strict rfl candidate (.head _))
      rw [joins] at unknown
      cases unknown
    next => exact (Journaled.Returns.record _).bind fun _ _ => later
    next => exact later

/-- No relationship is a fault when warnings are given instead. -/
theorem resolve_warn (tables : List String) (relationships : List Relationship) :
    (resolve tables .warn relationships).Returns (· ⊆ relationships) :=
  resolve_returns nofun

theorem resolve_fail_or (tables : List String) (mode : ErrorMode)
    (relationships : List Relationship) :
    Journaled.FailsOr (·.isUnresolvedReference = true) (resolve tables .fail relationships)
      (resolve tables mode relationships) := by
  induction relationships with
  | nil => exact .refl _
  | cons relationship relationships ih =>
    cases known : relationship.missingEnd? tables with
    | none =>
      simp only [resolve, known]
      exact ih.bind fun _ => .refl _
    | some missing =>
      -- The modes part only here, and here the strict one is over.
      exact .inl ⟨relationship.unresolvedFault tables missing, by simp [resolve, known], rfl⟩

theorem resolve_ignore (tables : List String) (relationships : List Relationship) :
    resolve tables .ignore relationships =
      (resolve tables .warn relationships).without Warning.reportsDrop := by
  induction relationships with
  | nil => rfl
  | cons relationship relationships ih =>
    cases known : relationship.missingEnd? tables with
    | none =>
      simp only [resolve, known]
      exact Journaled.bind_eq_without ih fun _ => rfl
    | some missing =>
      simp only [resolve, known]
      let report := Warning.unresolved "Relationship" missing (some relationship.id)
      have silent : (Journaled.warn report).without Warning.reportsDrop = pure () := by
        simp [report, Journaled.without, Journal.without, Journaled.warn, Journaled.record,
          Warning.reportsDrop_unresolved_relationship]
        rfl
      rw [Journaled.without_bind, silent, pure_bind, ih]

theorem mem_ofReferences {R : Type} {tables : List (Table R)} {relationship : Relationship} :
    relationship ∈ ofReferences tables ↔
      ∃ table ∈ tables, ∃ column ∈ table.columns, ∃ reference,
        column.references = some reference ∧
          link table.id column.name reference.table reference.column = relationship := by
  simp only [ofReferences, List.mem_flatMap, List.mem_filterMap, Option.map_eq_some_iff]

theorem link_mem_ofReferences {R : Type} {tables : List (Table R)} {table : Table R}
    (present : table ∈ tables) {column : Column} (inside : column ∈ table.columns)
    {reference : ColumnReference} (referenced : column.references = some reference) :
    link table.id column.name reference.table reference.column ∈ ofReferences tables :=
  mem_ofReferences.mpr ⟨table, present, column, inside, reference, referenced, rfl⟩

theorem isNamed_of_mem_ofReferences {R : Type} {tables : List (Table R)}
    {relationship : Relationship} (member : relationship ∈ ofReferences tables) :
    relationship.IsNamed := by
  obtain ⟨_, -, _, -, _, -, rfl⟩ := mem_ofReferences.mp member
  exact link_isNamed _ _ _ _

theorem firstLinks_sublist (seen : List LinkKey) (relationships : List Relationship) :
    (firstLinks seen relationships).Sublist relationships := by
  induction relationships generalizing seen with
  | nil => exact .slnil
  | cons relationship relationships ih =>
    unfold firstLinks
    split
    next => exact (ih seen).cons relationship
    next => exact (ih _).cons_cons relationship

theorem exists_mem_firstLinks {seen : List LinkKey} {relationships : List Relationship}
    {relationship : Relationship} (member : relationship ∈ relationships)
    (unseen : relationship.linkKey ∉ seen) :
    ∃ first ∈ firstLinks seen relationships, first.linkKey = relationship.linkKey := by
  induction relationships generalizing seen with
  | nil => simp at member
  | cons head relationships ih =>
    unfold firstLinks
    -- Either the head has the link, or it is sought behind it with one more link seen.
    by_cases same : head.linkKey = relationship.linkKey
    · rw [if_neg (same ▸ unseen)]
      exact ⟨head, by simp, same⟩
    · have later : relationship ∈ relationships := by
        rcases List.mem_cons.mp member with rfl | later
        · exact absurd rfl same
        · exact later
      split
      next => exact ih later unseen
      next =>
        have fresh : relationship.linkKey ∉ head.linkKey :: seen := by
          simp [unseen, Ne.symm same]
        obtain ⟨first, found, linked⟩ := ih later fresh
        exact ⟨first, by simp [found], linked⟩

theorem mem_of_mem_deduplicate {relationships : List Relationship} {relationship : Relationship}
    (member : relationship ∈ deduplicate relationships) : relationship ∈ relationships :=
  (firstLinks_sublist [] relationships).subset member

theorem exists_mem_deduplicate {relationships : List Relationship} {relationship : Relationship}
    (member : relationship ∈ relationships) :
    ∃ first ∈ deduplicate relationships, first.linkKey = relationship.linkKey :=
  exists_mem_firstLinks member (by simp)

theorem map_linkKey_firstLinks (seen : List LinkKey) (relationships : List Relationship) :
    (firstLinks seen relationships).map (·.linkKey) =
      ((relationships.map (·.linkKey)).removeAll seen).eraseDups := by
  induction relationships generalizing seen with
  | nil => rfl
  | cons relationship relationships ih =>
    unfold firstLinks
    split
    next known => simp [ih, List.removeAll, known]
    next fresh =>
      have later : (relationships.map (·.linkKey)).removeAll (relationship.linkKey :: seen) =
          ((relationships.map (·.linkKey)).removeAll seen).filter (!· == relationship.linkKey) := by
        simp [List.removeAll, List.filter_filter, Bool.and_comm]
        rfl
      rw [List.map_cons, ih, later, ← List.eraseDups_cons]
      simp [List.removeAll, fresh]

theorem map_linkKey_deduplicate (relationships : List Relationship) :
    (deduplicate relationships).map (·.linkKey) = (relationships.map (·.linkKey)).eraseDups := by
  rw [deduplicate, map_linkKey_firstLinks]
  simp [List.removeAll]

/-- What is left of candidates between these tables. -/
def admitted (once : Bool) (tables : List String) (candidates : List Relationship) :
    List Relationship :=
  let kept := candidates.filter (·.Joins tables)
  if once then deduplicate kept else kept

variable {once : Bool} {tables : List String} {candidates : List Relationship}
  {relationship : Relationship}

theorem mem_of_mem_admitted (member : relationship ∈ admitted once tables candidates) :
    relationship ∈ candidates ∧ relationship.Joins tables := by
  have kept : relationship ∈ candidates.filter (·.Joins tables) := by
    unfold admitted at member
    split at member
    next => exact mem_of_mem_deduplicate member
    next => exact member
  simpa using kept

theorem exists_mem_admitted (member : relationship ∈ candidates)
    (joins : relationship.Joins tables) :
    ∃ first ∈ admitted once tables candidates, first.linkKey = relationship.linkKey := by
  have kept : relationship ∈ candidates.filter (·.Joins tables) := by simp [member, joins]
  unfold admitted
  split
  next => exact exists_mem_deduplicate kept
  next => exact ⟨relationship, kept, rfl⟩

theorem settle_keeps (tables : List String) (mode : ErrorMode) (once : Bool)
    (candidates : List Relationship) :
    (settle tables mode once candidates).Keeps
      (·.Allowed mode) Fault.Speaks
      (fun settled => settled = admitted once tables candidates ∧
        (mode = .fail → ∀ relationship ∈ candidates, relationship.Joins tables)) := by
  refine (resolve_keeps tables mode candidates).bind fun kept ⟨same, strict⟩ => .pure ⟨?_, strict⟩
  rw [same, admitted]

theorem settle_warn (tables : List String) (once : Bool) (candidates : List Relationship) :
    (settle tables .warn once candidates).Returns (· ⊆ candidates) := by
  refine (resolve_warn tables candidates).bind fun kept within => .pure ?_
  split
  next => exact fun relationship member => within (mem_of_mem_deduplicate member)
  next => exact within

theorem settle_once (tables : List String) (mode : ErrorMode) (candidates : List Relationship) :
    settle tables mode true candidates = deduplicate <$> settle tables mode false candidates := by
  simp [settle]

theorem settle_ignore (tables : List String) (once : Bool) (candidates : List Relationship) :
    settle tables .ignore once candidates =
      (settle tables .warn once candidates).without Warning.reportsDrop :=
  Journaled.bind_eq_without (resolve_ignore tables candidates) fun _ => rfl

theorem settle_fail_or (tables : List String) (mode : ErrorMode) (once : Bool)
    (candidates : List Relationship) :
    Journaled.FailsOr (·.isUnresolvedReference = true) (settle tables .fail once candidates)
      (settle tables mode once candidates) :=
  (resolve_fail_or tables mode candidates).bind fun _ => .refl _

theorem settle_fails (tables : List String) (mode : ErrorMode) (once : Bool)
    (candidates : List Relationship) :
    FailsOnly (·.isUnresolvedReference = true) (settle tables mode once candidates).outcome := by
  obtain ⟨kept, settled, -⟩ := settle_warn tables once candidates
  intro fault failed
  cases mode with
  | fail =>
    rcases settle_fail_or tables .warn once candidates with ⟨other, found, unresolved⟩ | same
    · rw [found] at failed
      cases failed
      exact unresolved
    · rw [same, settled] at failed
      cases failed
  | warn =>
    rw [settled] at failed
    cases failed
  | ignore =>
    rw [settle_ignore, Journaled.without_outcome, settled] at failed
    cases failed

end SchemaAtlas.Relationship
