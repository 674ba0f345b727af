import SchemaAtlas.Proofs.Fluent.Declared
import SchemaAtlas.Proofs.Fluent.Openings
import SchemaAtlas.Proofs.Fluent.Scan
import SchemaAtlas.Proofs.Fluent.Texts

/-!
The two readings of a written enumeration. Read as a script it has all its values that are not
empty; a coarse reading finds the same exactly if its name is a word and no value holds a comma or a
closing square bracket.
-/

set_option autoImplicit false

namespace SchemaAtlas.Fluent.Scan

open Text

theorem stripQuotes_subset (cs : List Char) : stripQuotes cs ⊆ cs := by
  intro c member
  rw [stripQuotes, List.mem_reverse] at member
  have inside := (List.dropWhile_suffix isQuote).subset member
  exact (List.dropWhile_suffix isQuote).subset (List.mem_reverse.mp inside)

/-- The values that a coarse reading finds hold neither what separates nor what ends them. -/
theorem enumValues?_shape {cs : List Char} {values : List String}
    (found : enumValues? cs = some values) :
    ∀ value ∈ values, ',' ∉ value.toList ∧ ']' ∉ value.toList := by
  simp only [enumValues?, Option.bind_eq_bind, Option.bind_eq_some_iff] at found
  obtain ⟨-, -, -, -, list, -, found⟩ := found
  split at found
  next =>
    cases found
    intro value member
    obtain ⟨text, kept, rfl⟩ := List.mem_map.mp member
    obtain ⟨piece, inside, rfl⟩ := List.mem_map.mp (List.mem_filter.mp kept).1
    obtain ⟨whole, within⟩ := of_mem_splitAt inside
    have part : stripQuotes (trim piece) ⊆ piece :=
      List.Subset.trans (stripQuotes_subset _) (trim_subset piece)
    rw [String.toList_ofList]
    refine ⟨fun comma => whole (part comma), fun bracket => ?_⟩
    have before := List.all_eq_true.mp List.all_takeWhile _ (within (part bracket))
    simp at before
  next => cases found

theorem enumeration?_shape {keywords : DrizzleKeywords} {opening : Opening} {found : Enumeration}
    (read : enumeration? keywords opening = some found) :
    found.name = opening.name ∧
      ∀ value ∈ found.values, ',' ∉ value.toList ∧ ']' ∉ value.toList := by
  rw [enumeration?] at read
  split at read
  next =>
    obtain ⟨values, listed, rfl⟩ := Option.map_eq_some_iff.mp read
    exact ⟨rfl, enumValues?_shape listed⟩
  next => cases read

/-- Nowhere in the text the arguments of an enumeration begin. -/
def Listless (cs : List Char) : Prop := ∀ rest, rest <:+ cs → enumValues? rest = none

theorem enumValues?_cons {c : Char} (unquoted : isQuote c = false) {cs : List Char}
    (none : enumValues? cs = .none) : enumValues? (c :: cs) = .none := by
  have outside : c ∉ ['\'', '"'] := by
    simp only [isQuote, Bool.or_eq_false_iff, decide_eq_false_iff_not] at unquoted
    simp [unquoted]
  by_cases blank : isBlank c = true
  · have same : quotedText? ['\'', '"'] ['\'', '"'] (c :: cs) = quotedText? ['\'', '"'] ['\'', '"'] cs := by
      rw [quotedText?, quotedText?, show trimLeft (c :: cs) = trimLeft cs by simp [trimLeft, blank]]
    rw [enumValues?, same]
    exact none
  · have front : trimLeft (c :: cs) = c :: cs := by simp [trimLeft, blank]
    rw [enumValues?, quotedText?, front]
    simp only [if_neg outside]
    rfl

namespace Listless

theorem append {plain cs : List Char} (unquoted : ∀ c ∈ plain, isQuote c = false)
    (later : Listless cs) : Listless (plain ++ cs) := by
  induction plain with
  | nil => exact later
  | cons c plain ih =>
    have behind := ih fun d member => unquoted d (.tail _ member)
    intro rest suffix
    rcases List.suffix_cons_iff.mp suffix with rfl | suffix
    · exact enumValues?_cons (unquoted c (.head _)) (behind _ (List.suffix_refl _))
    · exact behind rest suffix

theorem of_unquoted {cs : List Char} (unquoted : ∀ c ∈ cs, isQuote c = false) : Listless cs := by
  have nil : Listless [] := by
    intro rest suffix
    rw [List.suffix_nil.mp suffix]
    rfl
  simpa using append unquoted nil

theorem cons {c : Char} {cs : List Char} (here : enumValues? (c :: cs) = none)
    (later : Listless cs) : Listless (c :: cs) := by
  intro rest suffix
  rcases List.suffix_cons_iff.mp suffix with rfl | suffix
  · exact here
  · exact later rest suffix

end Listless

/-- Behind a quoted text must stand a comma and a square bracket. -/
theorem enumValues?_quoted {run rest : List Char} (unquoted : ∀ c ∈ run, isQuote c = false)
    (apart : ∀ more, dropMark? ',' rest = some more → dropMark? '[' more = none) :
    enumValues? ('\'' :: (run ++ '\'' :: rest)) = none := by
  have solid : trimLeft ('\'' :: (run ++ '\'' :: rest)) = '\'' :: (run ++ '\'' :: rest) := rfl
  cases run with
  | nil => rfl
  | cons c run =>
    have plain : ∀ d ∈ c :: run, d ∉ ['\'', '"'] := by
      intro d member
      have here := unquoted d member
      simp only [isQuote, Bool.or_eq_false_iff, decide_eq_false_iff_not] at here
      simp [here]
    have front := quotedText?_quoted (by decide : '\'' ∈ ['\'', '"'])
      (by decide : '\'' ∈ ['\'', '"']) (by decide) (List.cons_ne_nil c run) plain rest
    rw [enumValues?, front]
    simp only [Option.bind_eq_bind, Option.bind_some]
    cases comma : dropMark? ',' rest with
    | none => rfl
    | some more => simp [apart more comma]

/-- A quoted text must be closed. -/
theorem enumValues?_unclosed {run : List Char} (unquoted : ∀ c ∈ run, isQuote c = false) :
    enumValues? ('\'' :: run) = none := by
  rw [Option.eq_none_iff_forall_ne_some]
  intro values found
  simp only [enumValues?, Option.bind_eq_bind, Option.bind_eq_some_iff] at found
  obtain ⟨⟨text, rest⟩, quoted, -⟩ := found
  have solid : trimLeft ('\'' :: run) = '\'' :: run := rfl
  rw [quotedText?, solid] at quoted
  simp only [List.mem_cons, true_or, if_true, Option.bind_eq_bind, Option.bind_eq_some_iff] at quoted
  obtain ⟨⟨inside, behind⟩, taken, closing, closed, -⟩ := quoted
  have member : '\'' ∈ run := by
    have tail : behind = ['\''] ++ closing := eq_append_of_dropLiteral? closed
    rw [(eq_append_of_takeRun? taken).1, tail]
    simp
  exact absurd (unquoted _ member) (by decide)

end SchemaAtlas.Fluent.Scan

namespace SchemaAtlas.Fluent.Written

open Script Text

/-- A text that can stand between quotes of any kind as it is. -/
def IsBare (cs : List Char) : Prop :=
  ∀ c ∈ cs, isQuote c = false ∧ c ≠ '\\' ∧ c ≠ '\n' ∧ c ≠ '\r'

instance (cs : List Char) : Decidable (IsBare cs) := inferInstanceAs (Decidable (∀ c ∈ cs, _))

theorem IsBare.inside {cs : List Char} (bare : IsBare cs) : IsInside '\'' cs where
  quotes := .inl rfl
  unquoted member := absurd (bare _ member).1 (by decide)
  plain c member := by
    obtain ⟨-, backslash, feed, carriage⟩ := bare c member
    exact ⟨feed, carriage, backslash⟩

namespace Enum

structure WellFormed (enum : Enum) : Prop where
  id : IsVariable enum.id
  held : enum.name.toList ≠ []
  name : IsBare enum.name.toList
  values : ∀ value ∈ enum.values, IsBare value.toList

/-- The enumeration that is meant: with the values that are not empty. -/
def meant (enum : Enum) : Enumeration :=
  { name := enum.id, values := enum.values.filter (· ≠ "") }

def expr (enum : Enum) : Expr :=
  .call (.identifier "pgEnum") [.string enum.name, .array (enum.values.map .string)]

def declaration (enum : Enum) : Declaration :=
  { name := enum.id, init := some enum.expr, exported := true }

variable {enum : Enum}

/-- The arguments of the constructor with their closing bracket. -/
def call (enum : Enum) : List Char :=
  commaText [] [valueText enum.name, '[' :: (commaText [] (enum.values.map valueText) ++ [']'])] ++
    [')']

theorem behind_eq (enum : Enum) : enum.behind = enum.call ++ [';'] := by
  unfold behind call
  generalize commaText [] (enum.values.map valueText) = values
  simp [commaText, valueText]

theorem text_eq (enum : Enum) :
    enum.text = constantText enum.id.toList (("pgEnum(".toList ++ enum.call) ++ [';']) := by
  have front : "export const ".toList = ['e', 'x', 'p', 'o', 'r', 't'] ++ ' ' ::
      (['c', 'o', 'n', 's', 't'] ++ [' ']) := by simp
  have middle : " = pgEnum(".toList = ' ' :: '=' :: ' ' :: "pgEnum(".toList := by simp
  unfold text
  rw [front, middle, behind_eq]
  simp only [constantText, List.append_assoc, List.cons_append, List.nil_append]

theorem enumValues_string (values : List String) :
    enumValues (values.map .string) = values.filter (· ≠ "") := by
  induction values with
  | nil => rfl
  | cons value values ih =>
    rw [enumValues] at ih ⊢
    by_cases empty : value = "" <;> simp [empty, ih]

namespace WellFormed

theorem ofText? (formed : enum.WellFormed) :
    Module.ofText? enum.text = .ok { declarations := [enum.declaration] } := by
  have values : List.Forall₂ (Reads (·.expr)) (enum.values.map valueText)
      (enum.values.map .string) := by
    rw [List.forall₂_map_left_iff, List.forall₂_map_right_iff, List.forall₂_same]
    exact fun value member => (formed.values value member).inside.reads
  have reads := Reads.called (by decide : IsName "pgEnum")
    (.cons formed.name.inside.reads (.cons (.array values) .nil)) .nil .exposed
  rw [text_eq]
  exact reads.ofText? formed.id (.inr rfl)

variable {R : Type} [Coordinate R]

/-- A written enumeration is read as a script that declares it. -/
theorem readSchema_text (formed : enum.WellFormed) (draws : Nat → R) :
    (Fluent.readSchema Config.default draws enum.text).Returns (·.enums = [enum.meant]) := by
  have surroundings : Surroundings.ofDeclarations {} [enum.declaration] =
      { enums := [enum.meant] } := by
    have found : enumeration? enum.id [.string enum.name, .array (enum.values.map .string)] =
        some enum.meant := by
      rw [enumeration?, enumValues_string, meant]
    have constructor : "pgEnum" ∈ DrizzleKeywords.enumConstructors {} := by decide
    rw [Surroundings.ofDeclarations, List.foldl_cons, List.foldl_nil, Surroundings.add]
    simp only [declaration, expr]
    rw [if_pos constructor, found]
    rfl
  refine (Journaled.Returns.ofExcept formed.ofText?).bind fun script same => ?_
  have keywords : (Config.default : Config R).drizzleKeywords = {} := rfl
  have collected : collect (Config.default : Config R) draws { enums := [enum.meant] }
      { declarations := [enum.declaration] } = pure {} := rfl
  rw [same, schemaOf]
  simp only [keywords, surroundings, collected, pure_bind]
  exact (Relationship.settle_warn _ _ _).bind fun relationships _ => .pure rfl

end WellFormed

/-- What stands behind the value of an enumeration but its closing quote. -/
def later (values : List String) : List Char :=
  (values.map valueText).flatMap (fun text => ',' :: ' ' :: text) ++ [']', ')', ';']

/-- Behind a closing quote no list of values begins if the values hold no comma. -/
theorem listless_value {run : List Char} (gap : ∀ c ∈ run, isQuote c = false) {value : String}
    (bare : IsBare value.toList) (whole : ',' ∉ value.toList) {values : List String}
    (behind : Scan.Listless ('\'' :: later values)) :
    Scan.Listless ('\'' :: (run ++ (valueText value ++ later values))) := by
  have unquoted : ∀ c ∈ value.toList, isQuote c = false := fun c member => (bare c member).1
  have text : valueText value ++ later values =
      '\'' :: (value.toList ++ '\'' :: later values) := by simp [valueText]
  rw [text]
  refine .cons (Scan.enumValues?_quoted gap fun more comma => ?_) (.append gap (.cons ?_ ?_))
  · -- What stands behind these quotes is a value and then another quote.
    rw [Scan.dropMark?_eq_none whole (by decide) (by decide)] at comma
    cases comma
  · refine Scan.enumValues?_quoted unquoted fun more comma => ?_
    cases values with
    | nil => cases comma
    | cons next values => cases comma; rfl
  · exact behind.append unquoted

theorem listless_later {values : List String}
    (each : ∀ value ∈ values, IsBare value.toList ∧ ',' ∉ value.toList) :
    Scan.Listless ('\'' :: later values) := by
  induction values with
  | nil => exact .cons (Scan.enumValues?_unclosed (by decide)) (.of_unquoted (by decide))
  | cons value values ih =>
    obtain ⟨bare, whole⟩ := each value (.head _)
    have behind := ih fun other member => each other (.tail _ member)
    simpa [later] using listless_value (by decide : ∀ c ∈ [',', ' '], _) bare whole behind

theorem WellFormed.tidy {enum : Enum} (formed : enum.WellFormed) : Tidy enum.text := by
  have id : Tidy enum.id.toList := .of_tidy fun c member =>
    isTidy_of_isNamePart (formed.id.parts c member)
  have values : Tidy (commaText [] (enum.values.map valueText)) := by
    refine tidy_commaText .nil fun text member => ?_
    obtain ⟨value, inside, rfl⟩ := List.mem_map.mp member
    exact (formed.values value inside).inside.tidy
  have arguments : ∀ text ∈ [valueText enum.name,
      '[' :: (commaText [] (enum.values.map valueText) ++ [']'])], Tidy text := by
    simp only [List.forall_mem_cons]
    exact ⟨formed.name.inside.tidy, .group rfl values, by simp⟩
  have call := Tidy.group (by rfl : closerOf? '(' = some ')') (tidy_commaText .nil arguments)
  have front : Tidy ['e', 'x', 'p', 'o', 'r', 't', ' ', 'c', 'o', 'n', 's', 't', ' '] :=
    .of_tidy (by decide)
  have middle : Tidy [' ', '=', ' ', 'p', 'g', 'E', 'n', 'u', 'm'] := .of_tidy (by decide)
  have whole := front.append (id.append (middle.append (call.append (.of_tidy (by decide : ∀ c ∈ [';'], _)))))
  rw [text_eq, constantText, Enum.call]
  simpa using whole

theorem stripQuotes_valueText {value : String} (bare : IsBare value.toList) :
    Scan.stripQuotes (valueText value) = value.toList := by
  have first : (valueText value).dropWhile isQuote = value.toList ++ ['\''] ∨ value.toList = [] := by
    cases held : value.toList with
    | nil => exact .inr rfl
    | cons c cs =>
      have unquoted := (bare c (by simp [held])).1
      exact .inl (by simp [valueText, held, unquoted, show isQuote '\'' = true from rfl])
  have kept : value.toList.reverse.dropWhile isQuote = value.toList.reverse := by
    cases held : value.toList.reverse with
    | nil => rfl
    | cons c cs =>
      have member : c ∈ value.toList := List.mem_reverse.mp (held ▸ .head _)
      simp [(bare c member).1]
  rcases first with first | empty
  · rw [Scan.stripQuotes, first, List.reverse_append, List.reverse_singleton, List.singleton_append,
      List.dropWhile_cons_of_pos (by decide), kept, List.reverse_reverse]
  · rw [valueText, empty]
    rfl

theorem trim_valueText (value : String) : trim (valueText value) = valueText value := by
  refine trim_eq_self ⟨?_, ?_⟩
  · rintro _ ⟨⟩
    decide
  · intro c last
    rw [valueText, ← List.cons_append, List.getLast?_concat] at last
    cases last
    decide

theorem splitAt_values {front : List Char} (first : ',' ∉ front) {values : List String}
    (each : ∀ value ∈ values, IsBare value.toList ∧ ',' ∉ value.toList) :
    (splitAt ',' (front ++ (values.map valueText).flatMap fun text => ',' :: ' ' :: text)).map
        (fun piece => Scan.stripQuotes (trim piece)) =
      Scan.stripQuotes (trim front) :: values.map String.toList := by
  -- The piece in front is general: it is the value before together with the blank behind a comma.
  induction values generalizing front with
  | nil => simp [splitAt_whole first]
  | cons value values ih =>
    obtain ⟨bare, whole⟩ := each value (.head _)
    have outside : ',' ∉ ' ' :: valueText value := by simp [valueText, whole]
    have later := ih outside fun other member => each other (.tail _ member)
    have gap : trim (' ' :: valueText value) = valueText value := by
      rw [show ' ' :: valueText value = [' '] ++ valueText value from rfl, trim_append (by decide),
        trim_valueText]
    rw [gap, stripQuotes_valueText bare] at later
    rw [List.map_cons, List.flatMap_cons, List.cons_append, splitAt_append first, List.map_cons,
      List.map_cons]
    exact congrArg _ later

/-- A coarse reading finds the values of an enumeration that hold no comma and no bracket. -/
theorem WellFormed.enumValues?_behind {enum : Enum} (formed : enum.WellFormed)
    (plain : ∀ value ∈ enum.values, ',' ∉ value.toList ∧ ']' ∉ value.toList) :
    Scan.enumValues? enum.behind = some enum.meant.values := by
  have name := Scan.quotedText?_quoted (by decide : '\'' ∈ ['\'', '"']) (by decide : '\'' ∈ ['\'', '"'])
    (by decide) formed.held (fun c member => by
      have unquoted := (formed.name c member).1
      simp only [isQuote, Bool.or_eq_false_iff, decide_eq_false_iff_not] at unquoted
      simp [unquoted])
  have comma (more : List Char) : Scan.dropMark? ',' (',' :: more) = some more := rfl
  have bracket (more : List Char) : Scan.dropMark? '[' (' ' :: '[' :: more) = some more := rfl
  have closed : ']' ∉ commaText [] (enum.values.map valueText) := by
    refine not_mem_commaText (by decide) fun text member => ?_
    obtain ⟨value, inside, rfl⟩ := List.mem_map.mp member
    simp [valueText, (plain value inside).2]
  have listed : (commaText [] (enum.values.map valueText) ++ [']', ')', ';']).takeWhile
      (fun c => decide (c ≠ ']')) = commaText [] (enum.values.map valueText) :=
    takeWhile_ne closed _
  have pieces : ((splitAt ',' (commaText [] (enum.values.map valueText))).map fun piece =>
      Scan.stripQuotes (trim piece)).filter (!·.isEmpty) =
        (enum.values.map String.toList).filter (!·.isEmpty) := by
    have each : ∀ value ∈ enum.values, IsBare value.toList ∧ ',' ∉ value.toList :=
      fun value member => ⟨formed.values value member, (plain value member).1⟩
    cases held : enum.values with
    | nil => rfl
    | cons value values =>
      rw [held] at each
      obtain ⟨bare, whole⟩ := each value (.head _)
      have outside : ',' ∉ valueText value := by simp [valueText, whole]
      have split := splitAt_values outside fun other member => each other (.tail _ member)
      rw [trim_valueText, stripQuotes_valueText bare] at split
      rw [List.map_cons, List.map_cons, commaText, List.nil_append, split]
  rw [Scan.enumValues?, behind]
  simp only [name, Option.bind_eq_bind, Option.bind_some, comma, bracket, listed, pieces]
  rw [if_pos (by simp), List.filter_map, List.map_map]
  have same : (fun text : List Char => !text.isEmpty) ∘ String.toList = fun value => decide (value ≠ "") := by
    funext value
    rw [Bool.eq_iff_iff]
    simp
  rw [same]
  simp [meant, Function.comp_def]

/-- A coarse reading finds the enumeration that is meant and no other one. -/
theorem WellFormed.enumerations_text {enum : Enum} (formed : enum.WellFormed)
    (word : IsWordText enum.id.toList)
    (plain : ∀ value ∈ enum.values, ',' ∉ value.toList ∧ ']' ∉ value.toList) :
    (allMatches (fun _ => Scan.opening?) enum.text).filterMap (Scan.enumeration? {}) =
      [enum.meant] := by
  have whole : enum.text = Scan.openingText enum.id.toList "pgEnum".toList ++ enum.behind := by
    rw [text_eq, constantText, Scan.openingText_append, behind_eq]
    simp
  have opens := Scan.opening?_openingText word (by decide : IsWordText "pgEnum".toList) enum.behind
  have constructor : "pgEnum" ∈ DrizzleKeywords.enumConstructors {} := by decide
  have first : Scan.enumeration? {} { name := enum.id, callee := "pgEnum", behind := enum.behind } =
      some enum.meant := by
    rw [Scan.enumeration?, if_pos constructor, formed.enumValues?_behind plain]
    rfl
  have listless : Scan.Listless enum.behind.tail := by
    have values : ∀ value ∈ enum.values, IsBare value.toList ∧ ',' ∉ value.toList :=
      fun value member => ⟨formed.values value member, (plain value member).1⟩
    have tail : enum.behind.tail = enum.name.toList ++ '\'' :: ([',', ' ', '['] ++
        (commaText [] (enum.values.map valueText) ++ [']', ')', ';'])) := by
      rw [behind]
      rfl
    rw [tail]
    refine .append (fun c member => (formed.name c member).1) ?_
    cases held : enum.values with
    | nil => exact .cons (Scan.enumValues?_unclosed (by decide)) (.of_unquoted (by decide))
    | cons value more =>
      rw [held] at values
      obtain ⟨bare, whole⟩ := values value (.head _)
      have behind := listless_later fun other member => values other (.tail _ member)
      simpa [later, commaText] using
        listless_value (by decide : ∀ c ∈ [',', ' ', '['], isQuote c = false) bare whole behind
  have others (before : Option Char) : (matchesFrom (fun _ => Scan.opening?) 0 before
      enum.behind).filterMap (Scan.enumeration? {}) = [] := by
    rw [List.filterMap_eq_nil_iff]
    intro opening member
    obtain ⟨-, rest, after, within, found⟩ := exists_suffix_of_mem_matchesFrom 0 before member
    have inside : opening.behind <:+ enum.behind.tail := by
      have behind : rest.tail <:+ enum.behind.tail := by
        obtain ⟨front, same⟩ := within
        cases front with
        | nil => exact ⟨[], congrArg List.tail same⟩
        | cons c front =>
          rw [← same]
          exact (List.tail_suffix rest).trans (List.suffix_append front rest)
      calc opening.behind
        _ <:+ '(' :: opening.behind := List.suffix_cons '(' opening.behind
        _ <:+ rest.tail := Scan.suffix_of_opening? found
        _ <:+ enum.behind.tail := behind
    rw [Scan.enumeration?, listless _ inside]
    split <;> rfl
  rw [whole, allMatches, matchesFrom_append (by simp [Scan.openingText]) opens, List.filterMap_cons]
  simp only [String.ofList_toList, first, others]

variable {R : Type} [Coordinate R]

/-- Read as a script an enumeration has all its values that are not empty. A coarse reading finds
the same exactly if its name is a word and no value holds a comma or a closing square bracket. -/
theorem enum_tiers_agree_iff {enum : Enum} (formed : enum.WellFormed) (draws : Nat → R) :
    ∃ structural coarse : Schema R,
      (Fluent.readSchema Config.default draws enum.text).outcome = .ok structural ∧
      (Scan.readSchema Config.default draws enum.text).outcome = .ok coarse ∧
      structural.enums = [enum.meant] ∧
      (coarse.enums = [enum.meant] ↔ IsWordText enum.id.toList ∧
        ∀ value ∈ enum.values, ',' ∉ value.toList ∧ ']' ∉ value.toList) := by
  obtain ⟨structural, read, enums⟩ := formed.readSchema_text draws
  obtain ⟨coarse, scanned, found⟩ := Scan.readSchema_returns draws enum.text
  have uncommented := stripComments_eq_self formed.tidy.uncommented
  rw [uncommented] at found
  refine ⟨structural, coarse, read, scanned, enums, fun same => ?_, fun ⟨word, plain⟩ => ?_⟩
  · have member : enum.meant ∈ coarse.enums := by rw [same]; exact .head _
    rw [found, List.mem_filterMap] at member
    obtain ⟨opening, opened, shaped⟩ := member
    obtain ⟨-, rest, behind, opens⟩ := exists_of_mem_allMatches opened
    obtain ⟨named, values⟩ := Scan.enumeration?_shape shaped
    refine ⟨?_, fun value member => ?_⟩
    · have word := (Scan.opening?_shape opens).1
      rwa [← named] at word
    · by_cases empty : value = ""
      · simp [empty]
      · exact values value (List.mem_filter.mpr ⟨member, by simpa using empty⟩)
  · rw [found, formed.enumerations_text word plain]

/-- An enumeration with certain values. -/
def plan (values : List String) : Enum := { id := "Plan", name := "plan", values }

theorem wellFormed_plan {values : List String} (each : ∀ value ∈ values, IsBare value.toList) :
    (plan values).WellFormed where
  id := (by decide : IsVariable "Plan")
  held := (by decide : "plan".toList ≠ [])
  name := (by decide : IsBare "plan".toList)
  values := each

theorem enum_tiers_agree_iff_plan :
    (plan ["free", "", "paid (yearly)"]).WellFormed ∧
      ∃ structural coarse : Schema Int,
        (Fluent.readSchema Config.default (fun _ => 0) (plan ["free", "", "paid (yearly)"]).text).outcome =
          .ok structural ∧
        (Scan.readSchema Config.default (fun _ => 0) (plan ["free", "", "paid (yearly)"]).text).outcome =
          .ok coarse ∧
        structural.enums = [(plan ["free", "", "paid (yearly)"]).meant] ∧
        (coarse.enums = [(plan ["free", "", "paid (yearly)"]).meant] ↔
          IsWordText (plan ["free", "", "paid (yearly)"]).id.toList ∧
            ∀ value ∈ (plan ["free", "", "paid (yearly)"]).values,
              ',' ∉ value.toList ∧ ']' ∉ value.toList) :=
  have formed : (plan ["free", "", "paid (yearly)"]).WellFormed := wellFormed_plan (by decide)
  ⟨formed, enum_tiers_agree_iff formed fun _ => 0⟩

/-- A comma in a value makes two values of it in a coarse reading. -/
theorem comma_splits_tiers :
    (plan ["free", "monthly, paid"]).WellFormed ∧
      ∃ structural coarse : Schema Int,
        (Fluent.readSchema Config.default (fun _ => 0) (plan ["free", "monthly, paid"]).text).outcome =
          .ok structural ∧
        (Scan.readSchema Config.default (fun _ => 0) (plan ["free", "monthly, paid"]).text).outcome =
          .ok coarse ∧
        structural.enums = [{ name := "Plan", values := ["free", "monthly, paid"] }] ∧
        coarse.enums = [{ name := "Plan", values := ["free", "monthly", "paid"] }] := by
  have formed : (plan ["free", "monthly, paid"]).WellFormed := wellFormed_plan (by decide)
  obtain ⟨structural, read, enums⟩ := formed.readSchema_text fun _ => (0 : Int)
  obtain ⟨coarse, scanned, found⟩ :=
    Scan.readSchema_returns (fun _ => (0 : Int)) (plan ["free", "monthly, paid"]).text
  refine ⟨formed, structural, coarse, read, scanned, enums, ?_⟩
  rw [found]
  decide +kernel

end Enum

end SchemaAtlas.Fluent.Written
