import Mathlib.Algebra.Group.Nat.Even
import SchemaAtlas.Graph.Dot
import SchemaAtlas.Graph.Statement
import SchemaAtlas.Proofs.Edges
import SchemaAtlas.Proofs.Text.Kept

/-!
The text of a graph in the DOT language read back. Names and labels are written between quotes as they
are, so that each is read as it was if and only if it stands for itself there: it holds no quote and
no line break, and the backslashes at its end do not escape the quote behind it.
-/

set_option autoImplicit false

namespace SchemaAtlas.Dot

open Text

/-- How many backslashes stand at the end of a text. -/
def backslashesBehind (cs : List Char) : Nat := (cs.reverse.takeWhile (· = '\\')).length

/-- Texts that stand for themselves between quotes. -/
structure IsPlain (cs : List Char) : Prop where
  unquoted : '"' ∉ cs
  unbroken : ∀ c ∈ cs, isLineBreak c = false
  paired : Even (backslashesBehind cs)

theorem backslashesBehind_cons (c : Char) (cs : List Char) :
    backslashesBehind (c :: cs) =
      if backslashesBehind cs = cs.length ∧ c = '\\' then cs.length + 1
      else backslashesBehind cs := by
  unfold backslashesBehind
  rw [List.reverse_cons, List.takeWhile_append, List.length_reverse]
  by_cases whole : (cs.reverse.takeWhile (· = '\\')).length = cs.length <;>
    by_cases escapes : c = '\\' <;> simp [whole, escapes]

theorem backslashesBehind_of_ne {c : Char} (other : c ≠ '\\') (cs : List Char) :
    backslashesBehind (c :: cs) = backslashesBehind cs := by
  rw [backslashesBehind_cons, if_neg fun both => other both.2]

theorem backslashesBehind_le (cs : List Char) : backslashesBehind cs ≤ cs.length := by
  have := (List.takeWhile_sublist (fun c => decide (c = '\\')) (l := cs.reverse)).length_le
  rwa [List.length_reverse] at this

theorem even_backslashesBehind_pair (cs : List Char) :
    Even (backslashesBehind ('\\' :: '\\' :: cs)) ↔ Even (backslashesBehind cs) := by
  rw [backslashesBehind_cons, backslashesBehind_cons]
  by_cases whole : backslashesBehind cs = cs.length
  · simp [whole, Nat.even_add_one]
  · have := backslashesBehind_le cs
    have : backslashesBehind cs ≠ cs.length + 1 := by omega
    simp [whole, this]

theorem isPlain_nil : IsPlain [] := ⟨List.not_mem_nil, by simp, ⟨0, rfl⟩⟩

theorem isPlain_cons {c : Char} (other : c ≠ '\\') (cs : List Char) :
    IsPlain (c :: cs) ↔ c ≠ '"' ∧ isLineBreak c = false ∧ IsPlain cs := by
  have behind := backslashesBehind_of_ne other cs
  constructor
  next =>
    rintro ⟨unquoted, unbroken, paired⟩
    rw [List.mem_cons, not_or] at unquoted
    rw [List.forall_mem_cons] at unbroken
    exact ⟨Ne.symm unquoted.1, unbroken.1, unquoted.2, unbroken.2, behind ▸ paired⟩
  next =>
    rintro ⟨noQuote, noBreak, unquoted, unbroken, paired⟩
    exact ⟨by simp [Ne.symm noQuote, unquoted], List.forall_mem_cons.mpr ⟨noBreak, unbroken⟩,
      behind ▸ paired⟩

/-- Backslashes in front are no fault as long as the same is escaped at the end. -/
theorem isPlain_backslashes (front : List Char) {cs : List Char}
    (backslashes : ∀ c ∈ front, c = '\\')
    (behind : Even (backslashesBehind (front ++ cs)) ↔ Even (backslashesBehind cs)) :
    IsPlain (front ++ cs) ↔ IsPlain cs := by
  constructor
  next =>
    rintro ⟨unquoted, unbroken, paired⟩
    exact ⟨fun member => unquoted (List.mem_append_right front member),
      fun c member => unbroken c (List.mem_append_right front member), behind.mp paired⟩
  next =>
    rintro ⟨unquoted, unbroken, paired⟩
    refine ⟨fun member => ?_, fun c member => ?_, behind.mpr paired⟩
    next =>
      rcases List.mem_append.mp member with first | later
      · exact absurd (backslashes _ first) (by decide)
      · exact unquoted later
    next =>
      rcases List.mem_append.mp member with first | later
      · rw [backslashes c first]
        decide
      · exact unbroken c later

theorem isPlain_pair (cs : List Char) : IsPlain ('\\' :: '\\' :: cs) ↔ IsPlain cs :=
  isPlain_backslashes ['\\', '\\'] (by simp) (even_backslashesBehind_pair cs)

theorem isPlain_single {c : Char} (other : c ≠ '\\') (cs : List Char) :
    IsPlain ('\\' :: c :: cs) ↔ IsPlain (c :: cs) := by
  refine isPlain_backslashes ['\\'] (by simp) ?_
  have short : backslashesBehind (c :: cs) ≠ (c :: cs).length := by
    have bound := backslashesBehind_le cs
    rw [backslashesBehind_of_ne other, List.length_cons]
    omega
  rw [List.singleton_append, backslashesBehind_cons, if_neg fun both => short both.1]

theorem not_isPlain_backslash : ¬ IsPlain ['\\'] := fun plain => by
  have paired := plain.paired
  revert paired
  decide

theorem map_cons_eq_some {c : Char} {found : Option (List Char × List Char)}
    {text rest : List Char} :
    found.map (fun (text, rest) => (c :: text, rest)) = some (c :: text, rest) ↔
      found = some (text, rest) := by
  cases found with
  | none => simp
  | some pair => simp [Prod.ext_iff]

theorem closeString?_quote (cs : List Char) : closeString? ('"' :: cs) = some ([], cs) := by
  rw [closeString?]

theorem closeString?_escaped (text cs rest : List Char) :
    closeString? ('\\' :: '"' :: cs) ≠ some ('\\' :: text, rest) := by
  rw [closeString?]
  cases closeString? cs <;> simp

theorem closeString?_cons {c : Char} (other : c ≠ '\\') (text cs rest : List Char) :
    closeString? (c :: cs) = some (c :: text, rest) ↔
      c ≠ '"' ∧ isLineBreak c = false ∧ closeString? cs = some (text, rest) := by
  by_cases quote : c = '"'
  next => simp [quote, closeString?_quote]
  next =>
    have step : closeString? (c :: cs) =
        if isLineBreak c then none
        else (closeString? cs).map fun (text, rest) => (c :: text, rest) := by
      rw [closeString?] <;> simp_all
    rw [step]
    by_cases ends : isLineBreak c = true
    next => simp [ends]
    next => rw [if_neg ends, map_cons_eq_some]; simp [quote, ends]

theorem closeString?_pair (text cs rest : List Char) :
    closeString? ('\\' :: '\\' :: cs) = some ('\\' :: '\\' :: text, rest) ↔
      closeString? cs = some (text, rest) := by
  rw [closeString?]
  cases closeString? cs with
  | none => simp
  | some pair => simp [Prod.ext_iff]

theorem closeString?_single {c : Char} (other : c ≠ '\\') (text cs rest : List Char) :
    closeString? ('\\' :: c :: cs) = some ('\\' :: c :: text, rest) ↔
      closeString? (c :: cs) = some (c :: text, rest) := by
  by_cases quote : c = '"'
  next =>
    -- An escaped quote is read without the backslash, and a bare one as the end.
    subst quote
    exact iff_of_false (closeString?_escaped _ cs rest) (by simp [closeString?_quote])
  next =>
    have step : closeString? ('\\' :: c :: cs) =
        (closeString? (c :: cs)).map fun (text, rest) => ('\\' :: text, rest) := by
      rw [closeString?] <;> simp_all [isLineBreak]
    rw [step, map_cons_eq_some]

/-- A text in front of a quote is read up to that quote, and as it is, exactly if it is plain. -/
theorem closeString?_iff (text tail rest : List Char) :
    closeString? (text ++ '"' :: tail) = some (text, rest) ↔ IsPlain text ∧ rest = tail := by
  have nil : closeString? ('"' :: tail) = some ([], rest) ↔ IsPlain [] ∧ rest = tail := by
    simp [closeString?_quote, isPlain_nil, eq_comm]
  -- A pair of backslashes is read at once, so the induction takes two characters where there are two.
  induction text using List.twoStepInduction with
  | nil => exact nil
  | singleton c =>
    by_cases backslash : c = '\\'
    next =>
      subst backslash
      exact iff_of_false (closeString?_escaped [] tail rest) fun both =>
        not_isPlain_backslash both.1
    next =>
      rw [List.singleton_append, closeString?_cons backslash, isPlain_cons backslash, nil, and_assoc,
        and_assoc]
  | cons_cons c d text ih ih' =>
    by_cases backslash : c = '\\'
    next =>
      subst backslash
      by_cases pair : d = '\\'
      next =>
        subst pair
        exact (closeString?_pair _ _ rest).trans (ih.trans (and_congr_left' (isPlain_pair text).symm))
      next =>
        exact (closeString?_single pair _ _ rest).trans
          ((ih' d).trans (and_congr_left' (isPlain_single pair text).symm))
    next =>
      calc closeString? (c :: (d :: text ++ '"' :: tail)) = some (c :: d :: text, rest)
        _ ↔ c ≠ '"' ∧ isLineBreak c = false ∧ IsPlain (d :: text) ∧ rest = tail :=
          (closeString?_cons backslash _ _ rest).trans (and_congr_right' (and_congr_right' (ih' d)))
        _ ↔ IsPlain (c :: d :: text) ∧ rest = tail := by
          rw [isPlain_cons backslash, and_assoc, and_assoc]

/-- The text of a statement as it is written on its line. -/
def Statement.write : Statement → String
  | .node id => "  \"" ++ id ++ "\";"
  | .edge source target label =>
    "  \"" ++ source ++ "\" -> \"" ++ target ++ "\" [label=\"" ++ label ++ "\"];"

/-- Whether each string of a statement stands for itself between quotes. -/
def Statement.IsPlain : Statement → Prop
  | .node id => Dot.IsPlain id.toList
  | .edge source target label =>
    Dot.IsPlain source.toList ∧ Dot.IsPlain target.toList ∧ Dot.IsPlain label.toList

theorem after?_quote {gap : List Char} (gaps : ∀ c ∈ gap, isGap c = true) (cs : List Char) :
    after? "\"" (gap ++ '"' :: cs) = some cs := by
  have solid : ¬ isGap '"' = true := by decide
  rw [after?, List.dropWhile_append_of_pos gaps, List.dropWhile_cons_of_neg solid]
  exact dropLiteral?_append ['"'] cs

theorem string?_iff {gap : List Char} (gaps : ∀ c ∈ gap, isGap c = true) (text : String)
    (tail rest : List Char) :
    string? (gap ++ '"' :: (text.toList ++ '"' :: tail)) = some (text, rest) ↔
      IsPlain text.toList ∧ rest = tail := by
  rw [← closeString?_iff, string?, after?_quote gaps]
  simp only [Option.bind_eq_bind, Option.bind_some, Option.bind_eq_some_iff]
  constructor
  next =>
    rintro ⟨⟨content, behind⟩, closed, same⟩
    cases same
    rw [String.toList_ofList] at closed ⊢
    exact closed
  next =>
    intro closed
    exact ⟨_, closed, by rw [String.ofList_toList]; rfl⟩

theorem alone?_eq_some {statement found : Statement} {rest : List Char} :
    statement.alone? rest = some found ↔ statement = found ∧ rest.all isGap = true := by
  unfold Statement.alone?
  split <;> simp_all

theorem edgeFrom?_iff (source target label : String) :
    edgeFrom? source
          (" -> \"".toList ++ (target.toList ++ '"' :: (" [label=\"".toList ++
            (label.toList ++ '"' :: "];".toList)))) =
        some (.edge source target label) ↔
      IsPlain target.toList ∧ IsPlain label.toList := by
  have blank : ∀ c ∈ [' '], isGap c = true := by decide
  simp only [edgeFrom?, Option.bind_eq_bind, Option.bind_eq_some_iff, alone?_eq_some]
  -- The marks between the strings are found by computation; only the two strings may fail.
  constructor
  next =>
    rintro ⟨_, arrow, ⟨second, _⟩, readTarget, _, bracket, _, word, _, equals, ⟨third, _⟩, readLabel,
      _, closing, _, stop, same, -⟩
    obtain ⟨-, rfl, rfl⟩ := Statement.edge.inj same
    obtain rfl := Option.some.inj arrow
    obtain ⟨plainTarget, rfl⟩ := (string?_iff blank second _ _).mp readTarget
    obtain rfl := Option.some.inj bracket
    obtain rfl := Option.some.inj word
    obtain rfl := Option.some.inj equals
    obtain ⟨plainLabel, -⟩ := (string?_iff (List.forall_mem_nil _) third _ _).mp readLabel
    exact ⟨plainTarget, plainLabel⟩
  next =>
    rintro ⟨plainTarget, plainLabel⟩
    exact ⟨_, rfl, (target, _), (string?_iff blank target _ _).mpr ⟨plainTarget, rfl⟩, _, rfl, _, rfl,
      _, rfl, (label, _), (string?_iff (List.forall_mem_nil _) label _ _).mpr ⟨plainLabel, rfl⟩, _, rfl, _,
      rfl, rfl, rfl⟩

theorem toList_write_node (id : String) :
    (Statement.node id).write.toList = [' ', ' '] ++ '"' :: (id.toList ++ '"' :: [';']) := by
  simp [Statement.write]

theorem toList_write_edge (source target label : String) :
    (Statement.edge source target label).write.toList =
      [' ', ' '] ++ '"' :: (source.toList ++ '"' :: (" -> \"".toList ++ (target.toList ++ '"' ::
        (" [label=\"".toList ++ (label.toList ++ '"' :: "];".toList))))) := by
  simp [Statement.write]

theorem edgeFrom?_ne_node (source id : String) (cs : List Char) :
    edgeFrom? source cs ≠ some (.node id) := by
  simp [edgeFrom?, Option.bind_eq_some_iff, alone?_eq_some]

theorem source_of_edgeFrom? {first source target label : String} {cs : List Char}
    (read : edgeFrom? first cs = some (.edge source target label)) : first = source := by
  simp only [edgeFrom?, Option.bind_eq_bind, Option.bind_eq_some_iff, alone?_eq_some] at read
  obtain ⟨_, -, _, -, _, -, _, -, _, -, _, -, _, -, _, -, same, -⟩ := read
  exact (Statement.edge.inj same).1

theorem ofLine?_write_iff (statement : Statement) :
    Statement.ofLine? statement.write.toList = some statement ↔ statement.IsPlain := by
  have blanks : ∀ c ∈ [' ', ' '], isGap c = true := by decide
  cases statement with
  | node id =>
    rw [toList_write_node, Statement.ofLine?, Statement.IsPlain]
    simp only [Option.bind_eq_bind, Option.bind_eq_some_iff]
    constructor
    next =>
      rintro ⟨⟨first, rest⟩, read, follows⟩
      dsimp only at follows
      split at follows
      next =>
        obtain ⟨same, -⟩ := alone?_eq_some.mp follows
        cases same
        exact ((string?_iff blanks id _ _).mp read).1
      next => exact absurd follows (edgeFrom?_ne_node _ _ _)
    next =>
      intro plain
      exact ⟨(id, _), (string?_iff blanks id _ _).mpr ⟨plain, rfl⟩, rfl⟩
  | edge source target label =>
    rw [toList_write_edge, Statement.ofLine?, Statement.IsPlain, ← edgeFrom?_iff source]
    simp only [Option.bind_eq_bind, Option.bind_eq_some_iff]
    constructor
    next =>
      rintro ⟨⟨first, rest⟩, read, follows⟩
      dsimp only at follows
      split at follows
      next => cases (alone?_eq_some.mp follows).1
      next =>
        obtain rfl := source_of_edgeFrom? follows
        obtain ⟨plain, rfl⟩ := (string?_iff blanks first _ _).mp read
        exact ⟨plain, follows⟩
    next =>
      rintro ⟨plain, follows⟩
      exact ⟨(source, _), (string?_iff blanks source _ _).mpr ⟨plain, rfl⟩, follows⟩

theorem IsPlain.newline {cs : List Char} (plain : IsPlain cs) : '\n' ∉ cs := fun member => by
  have whole := plain.unbroken '\n' member
  revert whole
  decide

theorem Statement.IsPlain.newline {statement : Statement} (plain : statement.IsPlain) :
    '\n' ∉ statement.write.toList := by
  cases statement with
  | node id =>
    rw [toList_write_node]
    simpa using Dot.IsPlain.newline plain
  | edge source target label =>
    obtain ⟨plainSource, plainTarget, plainLabel⟩ := plain
    rw [toList_write_edge]
    simpa using ⟨plainSource.newline, plainTarget.newline, plainLabel.newline⟩

/-- A text of one line is that line. -/
theorem eq_of_lines_eq {cs line : List Char} (single : lines cs = [line]) : cs = line := by
  by_cases broken : '\n' ∈ cs
  next =>
    obtain ⟨before, after, rfl⟩ := List.append_of_mem broken
    obtain ⟨first, pieces, split⟩ := exists_splitAt '\n' before
    obtain ⟨later, pieces', split'⟩ := exists_splitAt '\n' after
    rw [lines, splitAt_break, split, split'] at single
    simp at single
  next =>
    rw [lines, splitAt_whole broken] at single
    exact (List.cons.inj single).1

theorem map_ofLine?_lines_iff (statement : Statement) :
    (lines statement.write.toList).map Statement.ofLine? = [some statement] ↔
      statement.IsPlain := by
  constructor
  next =>
    intro read
    obtain ⟨line, single, found⟩ := List.map_eq_singleton_iff.mp read
    rw [← ofLine?_write_iff, eq_of_lines_eq single, found]
  next =>
    intro plain
    rw [lines, splitAt_whole plain.newline, List.map_singleton, (ofLine?_write_iff _).mpr plain]

theorem length_le_length_flatMap {α β : Type} {f : α → List β} {items : List α}
    (held : ∀ item ∈ items, f item ≠ []) : items.length ≤ (items.flatMap f).length := by
  induction items with
  | nil => exact Nat.zero_le _
  | cons item items ih =>
    obtain ⟨some, held⟩ := List.forall_mem_cons.mp held
    have first := List.length_pos_iff.mpr some
    have rest := ih held
    rw [List.flatMap_cons, List.length_append, List.length_cons]
    omega

/-- Lists that each hold something are as many items, put one behind the other, as there are lists only
if each of them holds one. -/
theorem flatMap_eq_map_iff {α β : Type} {f : α → List β} {g : α → β} {items : List α}
    (held : ∀ item ∈ items, f item ≠ []) :
    items.flatMap f = items.map g ↔ ∀ item ∈ items, f item = [g item] := by
  induction items with
  | nil => simp
  | cons item items ih =>
    obtain ⟨some, held⟩ := List.forall_mem_cons.mp held
    rw [List.flatMap_cons, List.map_cons, List.forall_mem_cons, ← ih held]
    constructor
    next =>
      intro same
      -- The rest holds an item for each list at least, which leaves the first list no second one.
      have long : items.length ≤ (items.flatMap f).length := length_le_length_flatMap held
      obtain ⟨first, more, holds⟩ := List.exists_cons_of_ne_nil some
      rw [holds, List.cons_append] at same
      obtain ⟨rfl, rest⟩ := List.cons.inj same
      have total := congrArg List.length rest
      rw [List.length_append, List.length_map] at total
      obtain rfl := List.length_eq_zero_iff.mp (by omega : more.length = 0)
      exact ⟨holds, rest⟩
    next =>
      rintro ⟨single, rest⟩
      rw [single, rest, List.singleton_append]

theorem lines_joinWith {texts : List String} (some : texts ≠ []) :
    lines (joinWith "\n" texts).toList = texts.flatMap fun text => lines text.toList := by
  induction texts with
  | nil => exact absurd rfl some
  | cons text texts ih =>
    cases texts with
    | nil => simp [joinWith]
    | cons second texts =>
      have step : (joinWith "\n" (text :: second :: texts)).toList =
          text.toList ++ '\n' :: (joinWith "\n" (second :: texts)).toList := by
        simp [joinWith]
      rw [step, lines, splitAt_break, List.flatMap_cons, ← ih (List.cons_ne_nil _ _)]
      rfl

/-- What is written at an edge. -/
def label (link : Relationship) : String := link.sourceColumn ++ " -> " ++ link.targetColumn

/-- What a graph draws: its nodes, and then its edges with their columns. -/
def drawn (graph : Graph) : List Statement :=
  graph.nodes.map (fun node => .node node.id) ++
    graph.edges.map fun link => .edge link.source link.target (label link)

theorem dotLines_eq (graph : Graph) :
    graph.dotLines =
      "digraph schema \x7b" :: "  node [shape=box];" ::
        ((drawn graph).map Statement.write ++ ["\x7d"]) := by
  have nodes : Graph.dotNode = Statement.write ∘ fun node => .node node.id := rfl
  have edges :
      Graph.dotEdge = Statement.write ∘ fun link => .edge link.source link.target (label link) := by
    funext link
    simp [Graph.dotEdge, Statement.write, label, String.append_assoc]
  simp [Graph.dotLines, drawn, nodes, edges]

theorem lines_ne_nil (cs : List Char) : lines cs ≠ [] := by
  obtain ⟨first, pieces, split⟩ := exists_splitAt '\n' cs
  rw [lines, split]
  exact List.cons_ne_nil _ _

/-- The lines between header and closing brace are those of the statements. -/
theorem statements_toDot (graph : Graph) :
    statements graph.toDot =
      (drawn graph).flatMap fun statement =>
        (lines statement.write.toList).map Statement.ofLine? := by
  have start : lines "digraph schema \x7b".toList = ["digraph schema \x7b".toList] := by decide
  have shape : lines "  node [shape=box];".toList = ["  node [shape=box];".toList] := by decide
  have stop : lines "\x7d".toList = ["\x7d".toList] := by decide
  rw [statements, Graph.toDot, dotLines_eq, lines_joinWith (List.cons_ne_nil _ _)]
  simp only [List.flatMap_cons, List.flatMap_append, List.flatMap_nil, start, shape, stop,
    List.singleton_append, List.append_nil, List.drop_succ_cons, List.drop_zero,
    List.dropLast_concat, List.flatMap_map, List.map_flatMap]

/-- What is drawn is read back exactly if each statement is made of texts that stand for
themselves. -/
theorem statements_toDot_iff (graph : Graph) :
    statements graph.toDot = (drawn graph).map some ↔
      ∀ statement ∈ drawn graph, statement.IsPlain := by
  have held (statement : Statement) :
      (lines statement.write.toList).map Statement.ofLine? ≠ [] := by
    simpa using lines_ne_nil _
  rw [statements_toDot, flatMap_eq_map_iff fun statement _ => held statement]
  exact forall₂_congr fun statement _ => map_ofLine?_lines_iff statement

theorem forall_drawn_iff (graph : Graph) {P : Statement → Prop} :
    (∀ statement ∈ drawn graph, P statement) ↔
      (∀ node ∈ graph.nodes, P (.node node.id)) ∧
        ∀ link ∈ graph.edges, P (.edge link.source link.target (label link)) := by
  simp [drawn, or_imp, forall_and]

variable {R : Type}

theorem forall_nodes_iff (schema : Schema R) {P : String → Prop} :
    (∀ node ∈ (Graph.ofSchema schema).nodes, P node.id) ↔ ∀ id ∈ schema.tableIds, P id := by
  simp [← Graph.mem_ids_iff]

theorem ends_mem_tableIds {schema : Schema R} {link : Relationship}
    (edge : link ∈ (Graph.ofSchema schema).edges) :
    link.source ∈ schema.tableIds ∧ link.target ∈ schema.tableIds := by
  have last := (Graph.edges_perm schema).subset edge
  have joins := (List.mem_filter.mp ((Graph.lastMentions_sublist _).subset last)).2
  exact of_decide_eq_true joins

/-- The drawing of a schema is read back, with one statement on a line for each node and each edge, if
and only if every table id and every label of an edge stands for itself between quotes. -/
theorem drawing_reads_back_iff (schema : Schema R) :
    statements (Graph.ofSchema schema).toDot = (drawn (Graph.ofSchema schema)).map some ↔
      (∀ id ∈ schema.tableIds, IsPlain id.toList) ∧
        ∀ link ∈ (Graph.ofSchema schema).edges, IsPlain (label link).toList := by
  rw [statements_toDot_iff, forall_drawn_iff]
  simp only [Statement.IsPlain]
  rw [forall_nodes_iff schema (P := fun id => IsPlain id.toList)]
  refine and_congr_right fun tables => forall₂_congr fun link edge => ?_
  obtain ⟨source, target⟩ := ends_mem_tableIds edge
  simp [tables _ source, tables _ target]

/-- A column of `a` with a quote in its name that points at a column of `b`. -/
def quoted : Schema Int where
  tables :=
    [{ id := "a", name := "a", position := .origin }, { id := "b", name := "b", position := .origin }]
  relationships := [Relationship.link "a" "k\"x" "b" "id"]

/-- A quote in the name of a column ends the label in the middle, and the line is no statement. -/
theorem quoted_label_not_read :
    drawn (Graph.ofSchema quoted) = [.node "a", .node "b", .edge "a" "b" "k\"x -> id"] ∧
      statements (Graph.ofSchema quoted).toDot = [some (.node "a"), some (.node "b"), none] ∧
      statements (Graph.ofSchema quoted).toDot ≠ (drawn (Graph.ofSchema quoted)).map some := by
  decide +kernel

end SchemaAtlas.Dot
