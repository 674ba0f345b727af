import SchemaAtlas.Proofs.Links

/-!
Relationships settled against the tables of a schema. Of each link the first relationship is kept; of
the ends, those that are no tables are reported or refused one by one, the first one first. Whether
an end is missing is up to the link alone, so that either may be done before the other.
-/

set_option autoImplicit false

namespace SchemaAtlas.Relationship

theorem firstLinks_concat (seen : List LinkKey) (relationships : List Relationship)
    (last : Relationship) :
    firstLinks seen (relationships ++ [last]) =
      if last.linkKey ∈ seen ∨ last.linkKey ∈ relationships.map (·.linkKey) then
        firstLinks seen relationships
      else firstLinks seen relationships ++ [last] := by
  induction relationships generalizing seen with
  | nil => simp [firstLinks]
  | cons relationship relationships ih =>
    rw [List.cons_append, firstLinks, firstLinks, ih, ih]
    by_cases known : relationship.linkKey ∈ seen
    next =>
      have same : (last.linkKey ∈ seen ∨ last.linkKey ∈ relationships.map (·.linkKey)) ↔
          (last.linkKey ∈ seen ∨ last.linkKey ∈ (relationship :: relationships).map (·.linkKey)) := by
        have seen : last.linkKey = relationship.linkKey → last.linkKey ∈ seen := (· ▸ known)
        simp only [List.map_cons, List.mem_cons]
        tauto
      simp only [if_pos known, same]
    next =>
      have same : (last.linkKey ∈ relationship.linkKey :: seen ∨
            last.linkKey ∈ relationships.map (·.linkKey)) ↔
          (last.linkKey ∈ seen ∨ last.linkKey ∈ (relationship :: relationships).map (·.linkKey)) := by
        simp only [List.map_cons, List.mem_cons]
        tauto
      simp only [if_neg known, same]
      split <;> rfl

theorem deduplicate_concat (relationships : List Relationship) (last : Relationship) :
    deduplicate (relationships ++ [last]) =
      if last.linkKey ∈ relationships.map (·.linkKey) then deduplicate relationships
      else deduplicate relationships ++ [last] := by
  rw [deduplicate, firstLinks_concat]
  simp [deduplicate]

/-- The places at which the link of a relationship comes for the first time. -/
def IsFirst (relationships : List Relationship) (place : Nat) : Prop :=
  ∃ relationship, relationships[place]? = some relationship ∧
    relationship.linkKey ∉ (relationships.take place).map (·.linkKey)

/-- The relationships that stay of a list when only the first one of each link does. -/
structure FirstOfEach (relationships kept : List Relationship) : Prop where
  sublist : kept.Sublist relationships
  distinct : (kept.map (·.linkKey)).Nodup
  covers : ∀ relationship ∈ relationships, relationship.linkKey ∈ kept.map (·.linkKey)
  first : ∃ places : List Nat, places.Pairwise (· < ·) ∧
    (∀ place, place ∈ places ↔ IsFirst relationships place) ∧
    places.map (relationships[·]?) = kept.map some

theorem isFirst_concat (relationships : List Relationship) (last : Relationship) (place : Nat) :
    IsFirst (relationships ++ [last]) place ↔
      IsFirst relationships place ∨
        place = relationships.length ∧ last.linkKey ∉ relationships.map (·.linkKey) := by
  unfold IsFirst
  rcases Nat.lt_trichotomy place relationships.length with before | rfl | behind
  next =>
    have other : place ≠ relationships.length := Nat.ne_of_lt before
    have taken : (relationships ++ [last]).take place = relationships.take place :=
      List.take_append_of_le_length (Nat.le_of_lt before)
    simp [List.getElem?_append_left before, taken, other]
  next => simp
  next =>
    have other : place ≠ relationships.length := Nat.ne_of_gt behind
    have none : relationships[place]? = none := List.getElem?_eq_none (Nat.le_of_lt behind)
    have none' : (relationships ++ [last])[place]? = Option.none :=
      List.getElem?_eq_none (by rw [List.length_append]; exact behind)
    simp [none, none', other]

theorem lt_length_of_isFirst {relationships : List Relationship} {place : Nat}
    (first : IsFirst relationships place) : place < relationships.length := by
  obtain ⟨relationship, here, -⟩ := first
  exact (List.getElem?_eq_some_iff.mp here).1

theorem exists_places (relationships : List Relationship) :
    ∃ places : List Nat, places.Pairwise (· < ·) ∧
      (∀ place, place ∈ places ↔ IsFirst relationships place) ∧
      places.map (relationships[·]?) = (deduplicate relationships).map some := by
  induction relationships using List.reverseRecOn with
  | nil => exact ⟨[], .nil, by simp [IsFirst], rfl⟩
  | append_singleton relationships last ih =>
    obtain ⟨places, ordered, listed, kept⟩ := ih
    have within {place : Nat} (member : place ∈ places) : place < relationships.length :=
      lt_length_of_isFirst ((listed place).mp member)
    have kept' : places.map ((relationships ++ [last])[·]?) =
        (deduplicate relationships).map some := by
      rw [← kept]
      exact List.map_congr_left fun place member => List.getElem?_append_left (within member)
    rw [deduplicate_concat]
    split
    next known =>
      refine ⟨places, ordered, fun place => ?_, kept'⟩
      rw [isFirst_concat, listed]
      simp [known]
    next fresh =>
      refine ⟨places ++ [relationships.length], ?_, fun place => ?_, ?_⟩
      next =>
        refine List.pairwise_append.mpr ⟨ordered, List.pairwise_singleton _ _, ?_⟩
        intro place member other single
        rw [List.mem_singleton.mp single]
        exact within member
      next =>
        rw [isFirst_concat, List.mem_append, listed, List.mem_singleton]
        simp only [fresh, not_false_iff, and_true]
      next =>
        rw [List.map_append, List.map_append, kept']
        simp

theorem firstOfEach_deduplicate (relationships : List Relationship) :
    FirstOfEach relationships (deduplicate relationships) where
  sublist := firstLinks_sublist [] relationships
  distinct := by
    rw [map_linkKey_deduplicate]
    exact Firsts.nodup_eraseDups _
  covers relationship member := by
    obtain ⟨first, kept, linked⟩ := exists_mem_deduplicate member
    exact List.mem_map.mpr ⟨first, kept, linked⟩
  first := exists_places relationships

theorem deduplicate_eq_self {relationships : List Relationship}
    (distinct : (relationships.map (·.linkKey)).Nodup) :
    deduplicate relationships = relationships := by
  refine (firstLinks_sublist [] relationships).eq_of_length ?_
  have keys := map_linkKey_deduplicate relationships
  rw [Firsts.eraseDups_of_nodup distinct] at keys
  simpa [deduplicate] using congrArg List.length keys

/-- A choice that looks at links only may be made before or after the repeated links are dropped. -/
theorem filter_deduplicate {chosen : Relationship → Bool}
    (byLink : ∀ first second, first.linkKey = second.linkKey → chosen first = chosen second)
    (relationships : List Relationship) :
    (deduplicate relationships).filter chosen = deduplicate (relationships.filter chosen) := by
  induction relationships using List.reverseRecOn with
  | nil => rfl
  | append_singleton relationships last ih =>
    by_cases kept : chosen last = true
    next =>
      have known : last.linkKey ∈ (relationships.filter chosen).map (·.linkKey) ↔
          last.linkKey ∈ relationships.map (·.linkKey) := by
        constructor
        next => exact fun member => (List.filter_sublist.map _).subset member
        next =>
          intro member
          obtain ⟨earlier, present, linked⟩ := List.mem_map.mp member
          have kept' : chosen earlier = true := (byLink _ _ linked).trans kept
          exact List.mem_map.mpr ⟨earlier, List.mem_filter.mpr ⟨present, kept'⟩, linked⟩
      have single : [last].filter chosen = [last] := by simp [kept]
      rw [List.filter_append, single, deduplicate_concat, deduplicate_concat, ← ih]
      simp only [known]
      split
      next => rfl
      next => rw [List.filter_append, single]
    next =>
      have none : [last].filter chosen = [] := by simp [kept]
      rw [List.filter_append, none, List.append_nil, deduplicate_concat, ← ih]
      split
      next => rfl
      next => rw [List.filter_append, none, List.append_nil]

theorem joins_of_linkKey {tables : List String} {first second : Relationship}
    (same : first.linkKey = second.linkKey) : first.Joins tables ↔ second.Joins tables := by
  obtain ⟨source, -, target, -⟩ := LinkKey.mk.inj same
  rw [Joins, Joins, source, target]

/-- The end that is reported of a relationship that does not join tables. -/
def firstMissing (tables : List String) (relationship : Relationship) : String :=
  if relationship.source ∈ tables then relationship.target else relationship.source

theorem missingEnd?_eq_some {tables : List String} {relationship : Relationship}
    (apart : ¬ relationship.Joins tables) :
    relationship.missingEnd? tables = some (relationship.firstMissing tables) := by
  unfold missingEnd? firstMissing
  by_cases source : relationship.source ∈ tables
  next =>
    have target : relationship.target ∉ tables := fun target => apart ⟨source, target⟩
    simp [source, target]
  next => simp [source]

/-- What is reported of a relationship that does not join tables. -/
def dropWarning (tables : List String) (relationship : Relationship) : Warning :=
  .unresolved "Relationship" (relationship.firstMissing tables) (some relationship.id)

theorem resolve_cons {tables : List String} {relationship : Relationship}
    (joins : relationship.Joins tables) (mode : ErrorMode) (relationships : List Relationship) :
    resolve tables mode (relationship :: relationships) =
      (relationship :: ·) <$> resolve tables mode relationships := by
  simp only [resolve, missingEnd?_eq_none.mpr joins, bind_pure_comp]

theorem resolve_warn_eq (tables : List String) (relationships : List Relationship) :
    resolve tables .warn relationships =
      ⟨{ warnings := (relationships.filter (¬ ·.Joins tables)).map (·.dropWarning tables) },
        .ok (relationships.filter (·.Joins tables))⟩ := by
  induction relationships with
  | nil => rfl
  | cons relationship relationships ih =>
    by_cases joins : relationship.Joins tables
    next =>
      have kept : (relationship :: relationships).filter (·.Joins tables) =
          relationship :: relationships.filter (·.Joins tables) := by simp [joins]
      have dropped : (relationship :: relationships).filter (¬ ·.Joins tables) =
          relationships.filter (¬ ·.Joins tables) := by simp [joins]
      rw [resolve_cons joins, ih, kept, dropped, map_eq_pure_bind]
      simp [bind, Journaled.bind, pure, Journaled.pure]
    next =>
      have kept : (relationship :: relationships).filter (·.Joins tables) =
          relationships.filter (·.Joins tables) := by simp [joins]
      have dropped : (relationship :: relationships).filter (¬ ·.Joins tables) =
          relationship :: relationships.filter (¬ ·.Joins tables) := by simp [joins]
      simp only [resolve, missingEnd?_eq_some joins, ih, kept, dropped]
      rfl

theorem resolve_ignore_eq (tables : List String) (relationships : List Relationship) :
    resolve tables .ignore relationships = pure (relationships.filter (·.Joins tables)) := by
  induction relationships with
  | nil => rfl
  | cons relationship relationships ih =>
    by_cases joins : relationship.Joins tables
    next =>
      rw [resolve_cons joins, ih, map_pure, List.filter_cons_of_pos (by simpa using joins)]
    next =>
      rw [List.filter_cons_of_neg (by simpa using joins), ← ih]
      simp only [resolve, missingEnd?_eq_some joins]

/-- Strict resolution ends at the first relationship that does not join tables. -/
theorem resolve_fail_eq (tables : List String) (relationships : List Relationship) :
    resolve tables .fail relationships =
      match relationships.find? (¬ ·.Joins tables) with
      | none => pure relationships
      | some first =>
        Journaled.fail (first.unresolvedFault tables (first.firstMissing tables)) := by
  induction relationships with
  | nil => rfl
  | cons relationship relationships ih =>
    by_cases joins : relationship.Joins tables
    next =>
      rw [resolve_cons joins, ih, List.find?_cons_of_neg (by simpa using joins)]
      cases relationships.find? (¬ ·.Joins tables) <;> rfl
    next =>
      rw [List.find?_cons_of_pos (by simpa using joins)]
      simp only [resolve, missingEnd?_eq_some joins]

/-- Whether relationships may as well be resolved before the repeated links are dropped as
afterwards, with the same ones kept. -/
def InEitherOrder (tables : List String) (mode : ErrorMode) (relationships : List Relationship) :
    Prop :=
  ∃ kept, (deduplicate <$> resolve tables mode relationships).outcome = .ok kept ∧
    (resolve tables mode (deduplicate relationships)).outcome = .ok kept

theorem filter_joins_deduplicate (tables : List String) (relationships : List Relationship) :
    (deduplicate relationships).filter (·.Joins tables) =
      deduplicate (relationships.filter (·.Joins tables)) :=
  filter_deduplicate (fun _ _ same => decide_eq_decide.mpr (joins_of_linkKey same)) relationships

theorem inEitherOrder {tables : List String} {mode : ErrorMode}
    (lenient : ∀ relationships, (resolve tables mode relationships).outcome =
      .ok (relationships.filter (·.Joins tables)))
    (relationships : List Relationship) : InEitherOrder tables mode relationships := by
  refine ⟨deduplicate (relationships.filter (·.Joins tables)), ?_, ?_⟩
  next => rw [Journaled.map_outcome, lenient]; rfl
  next => rw [lenient, filter_joins_deduplicate]

/-- What is kept of relationships and what becomes of the others. Dropping repeated links keeps the
first relationship of each link, at its place among the others, and a second time drops nothing. With
warnings, resolving keeps the relationships that join tables and reports the others one by one, in
order, with the source if that is missing and else the target. A strict resolution fails if and only
if one does not join tables, and then over the first of these. Where no fault is made of them, both
may be done in either order. -/
theorem relationships_settled (tables : List String) (relationships : List Relationship) :
    FirstOfEach relationships (deduplicate relationships) ∧
      deduplicate (deduplicate relationships) = deduplicate relationships ∧
      resolve tables .warn relationships =
        ⟨{ warnings := (relationships.filter (¬ ·.Joins tables)).map (·.dropWarning tables) },
          .ok (relationships.filter (·.Joins tables))⟩ ∧
      ((∃ fault, (resolve tables .fail relationships).outcome = .error fault) ↔
        ∃ relationship ∈ relationships, ¬ relationship.Joins tables) ∧
      (resolve tables .fail relationships =
        match relationships.find? (¬ ·.Joins tables) with
        | none => pure relationships
        | some first =>
          Journaled.fail (first.unresolvedFault tables (first.firstMissing tables))) ∧
      InEitherOrder tables .warn relationships ∧ InEitherOrder tables .ignore relationships := by
  have firsts := firstOfEach_deduplicate relationships
  have strict := resolve_fail_eq tables relationships
  have warns := inEitherOrder fun others => congrArg Journaled.outcome (resolve_warn_eq tables others)
  have ignores := inEitherOrder fun others =>
    congrArg Journaled.outcome (resolve_ignore_eq tables others)
  refine ⟨firsts, deduplicate_eq_self firsts.distinct, resolve_warn_eq tables relationships, ?_,
    strict, warns relationships, ignores relationships⟩
  rw [strict]
  cases found : relationships.find? (¬ ·.Joins tables) with
  | none =>
    have all := List.find?_eq_none.mp found
    simpa using all
  | some first =>
    have apart := List.find?_some found
    have member := List.mem_of_find?_eq_some found
    exact iff_of_true ⟨_, rfl⟩ ⟨first, member, by simpa using apart⟩

end SchemaAtlas.Relationship
