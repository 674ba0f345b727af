import Mathlib.Data.List.Forall2
import SchemaAtlas.Json

/-!
The texts that spell a JSON value, whatever wrote them, and that a rendered document is one of
them. How a number may be spelled is a parameter, as in the documents themselves.
-/

set_option autoImplicit false

namespace SchemaAtlas.Json

variable {R : Type}

/-- Nothing, or blanks that may stand between the parts of a document. -/
def IsGap (cs : List Char) : Prop := ∀ c ∈ cs, c = ' ' ∨ c = '\t' ∨ c = '\n' ∨ c = '\r'

def IsDigits (cs : List Char) : Prop := cs ≠ [] ∧ ∀ c ∈ cs, c.isDigit = true

/-- Digits that begin with a zero only if that is all. -/
def IsWhole (cs : List Char) : Prop := IsDigits cs ∧ (cs.head? = some '0' → cs = ['0'])

def IsFraction (cs : List Char) : Prop := cs = [] ∨ ∃ digits, cs = '.' :: digits ∧ IsDigits digits

def IsExponent (cs : List Char) : Prop :=
  cs = [] ∨ ∃ mark sign digits, (mark = 'e' ∨ mark = 'E') ∧
    (sign = [] ∨ sign = ['+'] ∨ sign = ['-']) ∧ IsDigits digits ∧ cs = mark :: (sign ++ digits)

def IsNumeral (cs : List Char) : Prop :=
  ∃ sign whole fraction exponent, (sign = [] ∨ sign = ['-']) ∧ IsWhole whole ∧
    IsFraction fraction ∧ IsExponent exponent ∧ cs = sign ++ (whole ++ (fraction ++ exponent))

def hexValue? (c : Char) : Option Nat :=
  if '0' ≤ c ∧ c ≤ '9' then some (c.toNat - 48)
  else if 'a' ≤ c ∧ c ≤ 'f' then some (c.toNat - 87)
  else if 'A' ≤ c ∧ c ≤ 'F' then some (c.toNat - 55)
  else none

/-- The number that four hexadecimal digits stand for. -/
def unitValue? : List Char → Option Nat
  | [a, b, c, d] => do
    return (← hexValue? a) * 4096 + (← hexValue? b) * 256 + (← hexValue? c) * 16 + (← hexValue? d)
  | _ => none

def shortEscapes : List (Char × Char) :=
  [('"', '"'), ('\\', '\\'), ('/', '/'), ('b', '\x08'), ('f', '\x0c'), ('n', '\n'), ('r', '\r'),
    ('t', '\t')]

/-- A text and what stands for it between the quotes of a string. -/
inductive SpellsText : List Char → List Char → Prop
  | nil : SpellsText [] []
  | plain {c : Char} {text cs : List Char} (shown : 32 ≤ c.toNat) (other : c ≠ '"' ∧ c ≠ '\\')
      (rest : SpellsText text cs) : SpellsText (c :: text) (c :: cs)
  | short {mark c : Char} {text cs : List Char} (known : (mark, c) ∈ shortEscapes)
      (rest : SpellsText text cs) : SpellsText (c :: text) ('\\' :: mark :: cs)
  | unit {c : Char} {digits text cs : List Char} (value : unitValue? digits = some c.toNat)
      (rest : SpellsText text cs) : SpellsText (c :: text) ('\\' :: 'u' :: (digits ++ cs))
  /-- Characters beyond the first 65536 take two units. -/
  | pair {c : Char} {high low : Nat} {digits others text cs : List Char}
      (first : unitValue? digits = some (0xD800 + high)) (small : high < 0x400)
      (second : unitValue? others = some (0xDC00 + low)) (small' : low < 0x400)
      (value : c.toNat = 0x10000 + high * 0x400 + low) (rest : SpellsText text cs) :
      SpellsText (c :: text) ('\\' :: 'u' :: (digits ++ '\\' :: 'u' :: (others ++ cs)))

/-- One item or several with commas between them, and gaps around each. -/
inductive Listed {α : Type} (spells : α → List Char → Prop) : List α → List Char → Prop
  | last {item : α} {before cs after : List Char} (front : IsGap before) (spelled : spells item cs)
      (back : IsGap after) : Listed spells [item] (before ++ (cs ++ after))
  | more {item : α} {items : List α} {before cs after rest : List Char} (front : IsGap before)
      (spelled : spells item cs) (back : IsGap after) (later : Listed spells items rest) :
      Listed spells (item :: items) (before ++ (cs ++ (after ++ ',' :: rest)))

mutual

inductive Spells (number : R → List Char → Prop) : Json R → List Char → Prop
  | null : Spells number .null "null".toList
  | true : Spells number (.bool true) "true".toList
  | false : Spells number (.bool false) "false".toList
  | integer {value : Int} {digits : List Char} (isWhole : IsWhole digits)
      (same : digits = Nat.toDigits 10 value.natAbs) :
      Spells number (.integer value) ((if value < 0 then ['-'] else []) ++ digits)
  | number {value : R} {cs : List Char} (spelled : number value cs) :
      Spells number (.number value) cs
  | string {text : String} {cs : List Char} (spelled : SpellsText text.toList cs) :
      Spells number (.string text) ('"' :: (cs ++ ['"']))
  | emptyArray {gap : List Char} (blank : IsGap gap) :
      Spells number (.array []) ('[' :: (gap ++ [']']))
  | array {items : List (Json R)} {cs : List Char} (listed : Listed (Spells number) items cs) :
      Spells number (.array items) ('[' :: (cs ++ [']']))
  | emptyObject {gap : List Char} (blank : IsGap gap) :
      Spells number (.object []) ('{' :: (gap ++ ['}']))
  | object {members : List (String × Json R)} {cs : List Char}
      (listed : Listed (SpellsMember number) members cs) :
      Spells number (.object members) ('{' :: (cs ++ ['}']))

inductive SpellsMember (number : R → List Char → Prop) : String × Json R → List Char → Prop
  | mk {key : String} {value : Json R} {name between behind cs : List Char}
      (named : SpellsText key.toList name) (front : IsGap between) (back : IsGap behind)
      (spelled : Spells number value cs) :
      SpellsMember number (key, value)
        ('"' :: (name ++ '"' :: (between ++ ':' :: (behind ++ cs))))

end

/-- A text that consists of one value, with nothing but gaps around it. -/
def IsDocument (number : R → List Char → Prop) (json : Json R) (cs : List Char) : Prop :=
  ∃ before value after, IsGap before ∧ Spells number json value ∧ IsGap after ∧
    cs = before ++ (value ++ after)

theorem isDigits_toDigits (n : Nat) : IsDigits (Nat.toDigits 10 n) :=
  ⟨Nat.toDigits_ne_nil, fun _ => Nat.isDigit_of_mem_toDigits (by decide) (by decide)⟩

theorem head?_toDigits {n : Nat} (positive : 0 < n) : (Nat.toDigits 10 n).head? ≠ some '0' := by
  induction n using Nat.strongRecOn with
  | ind n ih =>
    by_cases small : n < 10
    next =>
      have digit : ∀ d < 10, 0 < d → d.digitChar ≠ '0' := by decide
      rw [Nat.toDigits_of_lt_base small]
      simpa using digit n small positive
    next =>
      have leading : 0 < n / 10 := by omega
      have front := ih (n / 10) (by omega) leading
      -- The first digit is that of the number without its last digit.
      obtain ⟨d, digits, same⟩ := List.exists_cons_of_ne_nil (Nat.toDigits_ne_nil (n := n / 10))
      rw [← Nat.div_add_mod n 10, ← Nat.toDigits_append_toDigits (by decide) leading
        (Nat.mod_lt n (by decide)), same]
      rwa [same] at front

theorem isWhole_toDigits (n : Nat) : IsWhole (Nat.toDigits 10 n) := by
  refine ⟨isDigits_toDigits n, fun zero => ?_⟩
  by_cases positive : 0 < n
  next => exact absurd zero (head?_toDigits positive)
  next =>
    rw [show n = 0 by omega]
    rfl

theorem toList_toString_int (value : Int) : (toString value).toList =
    (if value < 0 then ['-'] else []) ++ Nat.toDigits 10 value.natAbs := by
  cases value with
  | ofNat n =>
    rw [show toString (Int.ofNat n) = n.repr from rfl, Nat.repr_eq_ofList_toDigits,
      String.toList_ofList, if_neg (by simp), List.nil_append]
    rfl
  | negSucc n =>
    rw [show toString (Int.negSucc n) = "-" ++ n.succ.repr from rfl, Nat.repr_eq_ofList_toDigits,
      String.toList_append, String.toList_ofList (l := Nat.toDigits 10 n.succ),
      if_pos (Int.negSucc_lt_zero n)]
    rfl

theorem unitValue?_escape {n : Nat} (small : n < 0x10000) :
    ∃ digits, unitEscape n = '\\' :: 'u' :: digits ∧ unitValue? digits = some n := by
  have digit : ∀ n < 16, hexValue? (hexDigit n) = some n := by decide
  refine ⟨_, rfl, ?_⟩
  simp only [unitValue?, digit _ (Nat.mod_lt _ (by decide)), Option.bind_eq_bind, Option.bind_some,
    Option.pure_def, Option.some.injEq]
  omega

theorem escapeChar_short (style : Style) : ∀ escape ∈ shortEscapes, escape.1 ≠ '/' →
    escapeChar style escape.2 = ['\\', escape.1] := by
  simp [shortEscapes, escapeChar]

theorem SpellsText.escape (style : Style) (c : Char) {text cs : List Char}
    (rest : SpellsText text cs) : SpellsText (c :: text) (escapeChar style c ++ cs) := by
  have unit {n : Nat} (small : n < 0x10000) (same : n = c.toNat) :
      SpellsText (c :: text) (unitEscape n ++ cs) := by
    obtain ⟨digits, escaped, value⟩ := unitValue?_escape small
    rw [escaped]
    exact .unit (by rw [value, same]) rest
  -- A solidus has a short escape, too, which is never written.
  by_cases short : ∃ mark, mark ≠ '/' ∧ (mark, c) ∈ shortEscapes
  next =>
    obtain ⟨mark, other, known⟩ := short
    rw [escapeChar_short style _ known other]
    exact .short known rest
  next =>
    simp only [shortEscapes, List.mem_cons, Prod.mk.injEq, List.not_mem_nil, or_false, not_exists,
      not_and, not_or] at short
    have quote := (short '"' (by decide)).1 rfl
    have slash := (short '\\' (by decide)).2.1 rfl
    have page := (short 'f' (by decide)).2.2.2.2.1 rfl
    have back := (short 'b' (by decide)).2.2.2.1 rfl
    have feed := (short 'n' (by decide)).2.2.2.2.2.1 rfl
    have turn := (short 'r' (by decide)).2.2.2.2.2.2.1 rfl
    have tab := (short 't' (by decide)).2.2.2.2.2.2.2 rfl
    simp only [escapeChar, quote, slash, page, back, feed, turn, tab, if_false]
    split
    next control => exact unit (by omega) rfl
    next shown =>
      split
      next wide =>
        split
        next small => exact unit small rfl
        next large =>
          -- A character has at most 21 bits, so that both units are surrogates.
          have valid : c.toNat < 0xD800 ∨ 0xDFFF < c.toNat ∧ c.toNat < 0x110000 := c.valid
          obtain ⟨digits, escaped, value⟩ :=
            unitValue?_escape (n := 0xD800 + (c.toNat - 0x10000) / 1024) (by omega)
          obtain ⟨others, escaped', value'⟩ :=
            unitValue?_escape (n := 0xDC00 + (c.toNat - 0x10000) % 1024) (by omega)
          simp only [escaped, escaped', List.cons_append, List.append_assoc]
          exact .pair value (by omega) value' (by omega) (by omega) rest
      next => exact .plain (by omega) ⟨quote, slash⟩ rest

theorem spellsText_quote (style : Style) (text : String) :
    ∃ cs, SpellsText text.toList cs ∧ (quote style text).toList = '"' :: (cs ++ ['"']) := by
  refine ⟨text.toList.flatMap (escapeChar style), ?_, String.toList_ofList⟩
  induction text.toList with
  | nil => exact .nil
  | cons c text ih => exact ih.escape style c

theorem isGap_nil : IsGap [] := fun _ member => absurd member List.not_mem_nil

section Listed

variable {α : Type} {spells : α → List Char → Prop} {items : List α} {texts : List String}

theorem Listed.join {gap : List Char} (blank : IsGap gap) (held : items ≠ [])
    (each : List.Forall₂ (fun item text => spells item text.toList) items texts)
    {before after : List Char} (front : IsGap before) (back : IsGap after) :
    Listed spells items
      (before ++ ((joinWith (String.ofList (',' :: gap)) texts).toList ++ after)) := by
  induction each generalizing before with
  | nil => exact absurd rfl held
  | cons spelled each ih =>
    cases each with
    | nil => exact .last front spelled back
    | cons =>
      -- The gap behind the comma stands in front of the next item.
      have more := Listed.more front spelled isGap_nil (ih (List.cons_ne_nil _ _) blank)
      simpa [joinWith] using more

theorem Listed.enclose (style : Style) (level : Nat) (first last : Char)
    (each : List.Forall₂ (fun item text => spells item text.toList) items texts) :
    (items = [] ∧ (enclose style level (String.ofList [first]) (String.ofList [last]) texts).toList =
      first :: ([] ++ [last])) ∨
    ∃ cs, Listed spells items cs ∧
      (enclose style level (String.ofList [first]) (String.ofList [last]) texts).toList =
        first :: (cs ++ [last]) := by
  by_cases held : items = []
  next =>
    subst held
    cases each
    exact .inl ⟨rfl, by simp [Json.enclose]⟩
  next =>
    have some : texts ≠ [] := by
      rintro rfl
      cases each
      exact held rfl
    right
    cases indent : style.indent with
    | none =>
      -- All is on one line, with a blank behind each comma.
      have space : IsGap [' '] := by simp [IsGap]
      refine ⟨_, Listed.join space held each isGap_nil isGap_nil, ?_⟩
      simp [Json.enclose, indent]
    | some width =>
      -- Each item stands on a line of its own, behind blanks.
      have line (level : Nat) : IsGap ('\n' :: List.replicate (width * level) ' ') := by
        intro c member
        rcases List.mem_cons.mp member with rfl | blank
        next => simp
        next => simp [List.eq_of_mem_replicate blank]
      refine ⟨_, Listed.join (line (level + 1)) held each (line (level + 1)) (line level), ?_⟩
      simp [Json.enclose, indent]

end Listed

section Numbers

mutual

/-- The numbers in a document from front to back. Whole numbers that count something are none. -/
def numbers : Json R → List R
  | .null | .bool _ | .integer _ | .string _ => []
  | .number value => [value]
  | .array items => numbersOfItems items
  | .object members => numbersOfMembers members

def numbersOfItems : List (Json R) → List R
  | [] => []
  | item :: items => item.numbers ++ numbersOfItems items

def numbersOfMembers : List (String × Json R) → List R
  | [] => []
  | (_, value) :: members => value.numbers ++ numbersOfMembers members

end

@[simp] theorem numbers_null : (null : Json R).numbers = [] := rfl

@[simp] theorem numbers_bool (value : Bool) : (bool value : Json R).numbers = [] := rfl

@[simp] theorem numbers_integer (value : Int) : (integer value : Json R).numbers = [] := rfl

@[simp] theorem numbers_string (value : String) : (string value : Json R).numbers = [] := rfl

@[simp] theorem numbers_number (value : R) : (number value).numbers = [value] := rfl

@[simp] theorem numbers_array (items : List (Json R)) :
    (Json.array items).numbers = items.flatMap numbers := by
  rw [numbers]
  induction items with
  | nil => rfl
  | cons item items ih => rw [numbersOfItems, ih, List.flatMap_cons]

@[simp] theorem numbers_object (members : List (String × Json R)) :
    (Json.object members).numbers = members.flatMap (·.2.numbers) := by
  rw [numbers]
  induction members with
  | nil => rfl
  | cons member members ih => rw [numbersOfMembers, ih, List.flatMap_cons]

end Numbers

section Render

variable (style : Style) {write : R → String} {number : R → List Char → Prop}

mutual

theorem spells_renderAt : (json : Json R) → (∀ x ∈ json.numbers, number x (write x).toList) →
    (level : Nat) → Spells number json (renderAt style write level json).toList
  | .null, _, _ => .null
  | .bool true, _, _ => .true
  | .bool false, _, _ => .false
  | .integer value, _, _ => by
    rw [renderAt, toList_toString_int]
    exact .integer (isWhole_toDigits _) rfl
  | .number value, writes, _ => .number (writes value List.mem_cons_self)
  | .string value, _, _ => by
    obtain ⟨cs, spelled, same⟩ := spellsText_quote style value
    rw [renderAt, same]
    exact .string spelled
  | .array items, writes, level => by
    rw [renderAt]
    obtain ⟨rfl, same⟩ | ⟨cs, listed, same⟩ :=
      Listed.enclose style level '[' ']' (spells_renderItems items writes (level + 1))
    next => exact same ▸ .emptyArray isGap_nil
    next => exact same ▸ .array listed
  | .object members, writes, level => by
    rw [renderAt]
    obtain ⟨rfl, same⟩ | ⟨cs, listed, same⟩ :=
      Listed.enclose style level '{' '}' (spells_renderMembers members writes (level + 1))
    next => exact same ▸ .emptyObject isGap_nil
    next => exact same ▸ .object listed

theorem spells_renderItems : (items : List (Json R)) →
    (∀ x ∈ numbersOfItems items, number x (write x).toList) → (level : Nat) →
    List.Forall₂ (fun item text => Spells number item text.toList) items
      (renderItems style write level items)
  | [], _, _ => .nil
  | item :: items, writes, level =>
    .cons (spells_renderAt item (fun x member => writes x (List.mem_append_left _ member)) level)
      (spells_renderItems items (fun x member => writes x (List.mem_append_right _ member)) level)

theorem spells_renderMembers : (members : List (String × Json R)) →
    (∀ x ∈ numbersOfMembers members, number x (write x).toList) → (level : Nat) →
    List.Forall₂ (fun member text => SpellsMember number member text.toList) members
      (renderMembers style write level members)
  | [], _, _ => .nil
  | (key, value) :: members, writes, level => by
    refine .cons ?_ (spells_renderMembers members
      (fun x member => writes x (List.mem_append_right _ member)) level)
    obtain ⟨name, named, same⟩ := spellsText_quote style key
    have space : IsGap [' '] := by simp [IsGap]
    have spelled := spells_renderAt value (fun x member => writes x (List.mem_append_left _ member))
      level
    simpa [same] using SpellsMember.mk named isGap_nil space spelled

end

/-- A rendered document, with or without the end of its last line, spells what was rendered. -/
theorem isDocument_render (json : Json R) (writes : ∀ x ∈ json.numbers, number x (write x).toList)
    {after : List Char} (back : IsGap after) :
    IsDocument number json ((render style write json).toList ++ after) :=
  ⟨[], _, after, isGap_nil, spells_renderAt style json writes 0, back, rfl⟩

end Render

end SchemaAtlas.Json
