import SchemaAtlas.Proofs.Alike
import SchemaAtlas.Proofs.Blocks.Columns
import SchemaAtlas.Proofs.Blocks.Defaults
import SchemaAtlas.Proofs.Blocks.Lines
import SchemaAtlas.Proofs.Blocks.Settings
import SchemaAtlas.Proofs.Blocks.Twins
import SchemaAtlas.Proofs.Text.Comments
import SchemaAtlas.Proofs.Text.Kept
import SchemaAtlas.Proofs.Text.Opened

/-!
An attribute on a line of a model. Whatever the attribute is, the same blocks are found around it,
and what is read of the text differs in that attribute only.
-/

set_option autoImplicit false

namespace SchemaAtlas.Blocks

open Text

namespace Written.Attribute

/-- The attribute as it is written for a model, with two marks. -/
def blockText (attr : Attribute) : List Char := '@' :: attr.text

/-- An attribute with arguments that can stand on a line of a block. -/
structure IsCall (attr : Attribute) : Prop extends attr.OnLine where
  called : ∃ args, attr.args = some args

variable {attr : Attribute}

theorem OnLine.inline_blockText (line : attr.OnLine) : IsInline attr.blockText :=
  line.inline_text.cons (by decide)

theorem OnLine.unbroken_blockText (line : attr.OnLine) : '\n' ∉ attr.blockText := by
  simp [blockText, line.unbroken_text]

namespace IsCall

theorem exists_blockText (call : attr.IsCall) :
    ∃ front, attr.blockText = '@' :: '@' :: front ++ [')'] := by
  obtain ⟨args, held⟩ := call.called
  exact ⟨attr.name.toList ++ '(' :: args.toList, by simp [blockText, text, held]⟩

theorem isTrimmed_blockText (call : attr.IsCall) : IsTrimmed attr.blockText := by
  obtain ⟨front, whole⟩ := call.exists_blockText
  rw [whole]
  exact isTrimmed_between (by decide) (by decide) ('@' :: front)

theorem here?_blockText (call : attr.IsCall) (rest : List Char) :
    Blocks.Attribute.here? (attr.blockText ++ rest) = some (.ok attr.read, rest) := by
  obtain ⟨args, held⟩ := call.called
  have single := call.toOnLine.closed.here?_args held rest
  have some : attr.name.toList ≠ [] := by simpa using call.named
  obtain ⟨c, name, named⟩ := List.exists_cons_of_ne_nil some
  have first : c ≠ '@' := by
    rintro rfl
    have inside := call.name '@' (by simp [named])
    cases inside
  have heads (cs : List Char) :
      Blocks.Attribute.head? ('@' :: '@' :: c :: cs) = Blocks.Attribute.head? ('@' :: c :: cs) :=
    (Blocks.Attribute.head?_single (by simpa using first)).symm
  rw [← single, blockText, text, held, named]
  simp only [List.cons_append, Blocks.Attribute.here?, heads]

theorem stripComments_blockText (call : attr.IsCall) {front : List Char}
    (code : (Region.text .code).run front = .text .code) (back : List Char) :
    stripComments (front ++ (attr.blockText ++ back)) =
      stripComments front ++ (attr.blockText ++ stripComments back) := by
  have inline := call.inline_blockText
  have ends : (Region.text .code).run attr.blockText = .text .code := by
    rw [inline.uncommented.run, inline.braceless.run]
  have last : attr.blockText.getLast? ≠ some '/' := by
    obtain ⟨front, whole⟩ := call.exists_blockText
    rw [whole, List.getLast?_concat]
    simp
  have behind := stripFrom_append_of_run ends last back
  rw [stripFrom_eq_self inline.uncommented] at behind
  rw [stripComments, blockText, List.cons_append, stripFrom_append (by decide), code,
    ← List.cons_append, ← blockText, behind]
  rfl

end IsCall

end Written.Attribute

/-- The last line of a text is blank so far. -/
def StartsLine (cs : List Char) : Prop :=
  ∃ front indent, cs = front ++ indent ∧ (∀ c ∈ indent, isBlank c = true ∧ c ≠ '\n') ∧
    (front = [] ∨ ∃ earlier, front = earlier ++ ['\n'])

theorem StartsLine.lines {cs : List Char} (starts : StartsLine cs) (last : List Char) :
    ∃ earlier indent line rest, (∀ c ∈ indent, isBlank c = true) ∧ lines last = line :: rest ∧
      ∀ piece, '\n' ∉ piece →
        lines (cs ++ (piece ++ last)) = earlier ++ (indent ++ (piece ++ line)) :: rest := by
  obtain ⟨front, indent, rfl, blank, feed⟩ := starts
  obtain ⟨line, rest, split⟩ := exists_splitAt '\n' last
  have here (piece : List Char) (unbroken : '\n' ∉ piece) :
      Text.lines (indent ++ (piece ++ last)) = (indent ++ (piece ++ line)) :: rest := by
    have whole : '\n' ∉ indent ++ piece := by
      rw [List.mem_append, not_or]
      exact ⟨fun member => (blank _ member).2 rfl, unbroken⟩
    obtain ⟨line', rest', split', longer⟩ := exists_splitAt_append whole last
    obtain ⟨rfl, rfl⟩ := List.cons.inj (split.symm.trans split')
    simpa only [Text.lines, List.append_assoc] using longer
  rcases feed with rfl | ⟨earlier, rfl⟩
  · exact ⟨[], indent, line, rest, fun c member => (blank c member).1, split, here⟩
  · refine ⟨Text.lines earlier, indent, line, rest, fun c member => (blank c member).1, split,
      fun piece unbroken => ?_⟩
    rw [← here piece unbroken]
    simpa [Text.lines] using splitAt_break '\n' earlier (indent ++ (piece ++ last))

namespace Model

/-- The `@@` attributes of a line. -/
def Item.found : Item → List Attribute
  | .attributes found => found
  | _ => []

theorem Item.ofLine?_blockText {attr : Written.Attribute} (call : attr.IsCall) {indent : List Char}
    (blank : ∀ c ∈ indent, isBlank c = true) (line : List Char) (number : Nat) :
    Item.ofLine? number (indent ++ (attr.blockText ++ line)) =
      (Attribute.listOf? (trimRight line)).map fun others => .attributes (attr.read :: others) := by
  have some : attr.blockText ≠ [] := List.cons_ne_nil _ _
  have marked : beginsWith ['@', '@'] (attr.blockText ++ trimRight line) = true :=
    beginsWith_iff.mpr ⟨_, rfl⟩
  have listed : Attribute.listOf? (attr.blockText ++ trimRight line) =
      (Attribute.listOf? (trimRight line)).map (attr.read :: ·) :=
    Attribute.listOf?_append (show Attribute.listOf? [] = .ok [] from rfl) (by simp)
      (call.here?_blockText (trimRight line))
  have trimmed : trim (indent ++ (attr.blockText ++ line)) = attr.blockText ++ trimRight line := by
    rw [trim_append blank, trim_front call.isTrimmed_blockText some]
  rw [Item.ofLine?, trimmed]
  simp only [marked, listed]
  cases Attribute.listOf? (trimRight line) <;> simp [some, Except.map]

theorem attributes_of_ofLines? (name : String) (start start' line line' : Nat)
    (rest : List (List Char)) : (ofLines? name start line rest).map (·.attributes) =
      (ofLines? name start' line' rest).map (·.attributes) := by
  have forget (read : Except Fault Model) :
      (read.map unnumbered).map (·.attributes) = read.map (·.attributes) := by cases read <;> rfl
  have same := congrArg (Except.map (·.attributes))
    (ofLines?_unnumbered name start start' line line' rest)
  rwa [forget, forget] at same

/-- The model with one more attribute between some of those that it has. -/
def withAttribute (model : Model) (before behind : List Attribute) (attr : Attribute) : Model :=
  { model with attributes := before ++ attr :: behind }

/-- A line with an attribute that is put between others adds that attribute to the model and nothing
else, unless the lines cannot be read whatever the attribute is. -/
theorem ofLines?_insert (name : String) (start number : Nat) (earlier : List (List Char))
    (others : Except Fault (List Attribute)) (rest : List (List Char)) :
    (∃ fault, ∀ attr line, (∀ number, Item.ofLine? number line =
        others.map fun others => .attributes (attr :: others)) →
      ofLines? name start number (earlier ++ line :: rest) = .error fault) ∨
    ∃ (model : Model) (before here behind : List Attribute), others = .ok here ∧
      (ofLines? name 0 0 rest).map (·.attributes) = .ok behind ∧
      ∀ attr line, (∀ number, Item.ofLine? number line =
          others.map fun others => .attributes (attr :: others)) →
        ofLines? name start number (earlier ++ line :: rest) =
          .ok (model.withAttribute before (here ++ behind) attr) := by
  induction earlier generalizing number with
  | nil =>
    cases others with
    | error fault =>
      refine .inl ⟨fault, fun attr line read => ?_⟩
      rw [List.nil_append, ofLines?, read]
      rfl
    | ok here =>
      cases later : ofLines? name start (number + 1) rest with
      | error fault =>
        refine .inl ⟨fault, fun attr line read => ?_⟩
        rw [List.nil_append, ofLines?, read, later]
        rfl
      | ok model =>
        refine .inr ⟨model, [], here, model.attributes, rfl, ?_, fun attr line read => ?_⟩
        · rw [attributes_of_ofLines? name 0 start 0 (number + 1), later]
          rfl
        · rw [List.nil_append, ofLines?, read, later]
          rfl
  | cons first earlier ih =>
    cases item : Item.ofLine? number first with
    | error fault =>
      refine .inl ⟨fault, fun attr line _ => ?_⟩
      rw [List.cons_append, ofLines?, item]
      rfl
    | ok item' =>
      rcases ih (number + 1) with ⟨fault, failed⟩ | ⟨model, before, here, behind, same, last, found⟩
      · refine .inl ⟨fault, fun attr line read => ?_⟩
        rw [List.cons_append, ofLines?, item, failed attr line read]
        rfl
      · -- Attributes of the first line stand in front, and a field is one of the model.
        refine .inr ⟨item'.put model, item'.found ++ before, here, behind, same, last,
          fun attr line read => ?_⟩
        rw [List.cons_append, ofLines?, item, found attr line read]
        cases item' <;> simp [withAttribute, Item.put, Item.found] <;> rfl

/-- What `@@` attributes follow in a body behind an attribute on one of its lines. -/
def attributesBehind (name : String) (last : List Char) : Except Fault (List Attribute) :=
  match lines last with
  | [] => .ok []
  | line :: rest => do
    let here ← Attribute.listOf? (trimRight line)
    let behind ← (ofLines? name 0 0 rest).map (·.attributes)
    return here ++ behind

theorem ofBlock?_insert {inside : List Char} (starts : StartsLine inside) (name : String)
    (line : Nat) (last : List Char) :
    (∃ fault, ∀ attr : Written.Attribute, attr.IsCall →
        ofBlock? { name, body := inside ++ (attr.blockText ++ last), line } = .error fault) ∨
      ∃ (model : Model) (before behind : List Attribute), attributesBehind name last = .ok behind ∧
        ∀ attr : Written.Attribute, attr.IsCall →
          ofBlock? { name, body := inside ++ (attr.blockText ++ last), line } =
            .ok (model.withAttribute before behind attr.read) := by
  obtain ⟨earlier, indent, here, rest, blank, split, all⟩ := starts.lines last
  have lines {attr : Written.Attribute} (call : attr.IsCall) :
      lines (inside ++ (attr.blockText ++ last)) =
        earlier ++ (indent ++ (attr.blockText ++ here)) :: rest :=
    all _ call.unbroken_blockText
  rcases ofLines?_insert name line line earlier (Attribute.listOf? (trimRight here)) rest with
    ⟨fault, failed⟩ | ⟨model, before, here', behind, listed, later, found⟩
  · refine .inl ⟨fault, fun attr call => ?_⟩
    rw [ofBlock?, lines call]
    exact failed _ _ (Item.ofLine?_blockText call blank here)
  · refine .inr ⟨model, before, here' ++ behind, ?_, fun attr call => ?_⟩
    · simp only [attributesBehind, split, listed, later]
      rfl
    · rw [ofBlock?, lines call]
      exact found _ _ (Item.ofLine?_blockText call blank here)

end Model

/-- What is read of a text around an attribute in an open model, whatever attribute it is. -/
structure Surroundings (keyword : String) (cs : List Char) (earlier : List Block) (name : String)
    (inside rest : List Char) where
  line : Nat
  /-- The rest of the body. -/
  last : List Char
  later : List Block
  declared : List Model
  model : Model
  before : List Attribute
  behind : List Attribute
  others : List Model
  scan : ∀ attr : Written.Attribute, attr.IsCall →
    blocks keyword (cs ++ (attr.blockText ++ rest)) =
      { blocks := earlier ++ { name, body := inside ++ (attr.blockText ++ last), line } :: later }
  listed : Model.attributesBehind name last = .ok behind
  made : ∀ attr : Written.Attribute, attr.IsCall →
    Model.ofBlock? { name, body := inside ++ (attr.blockText ++ last), line } =
      .ok (model.withAttribute before behind attr.read)
  names : others.map (·.name) = later.map (·.name)
  read : ∀ attr : Written.Attribute, attr.IsCall →
    readBlocks keyword Model.ofBlock? (cs ++ (attr.blockText ++ rest)) =
      .ok (declared ++ model.withAttribute before behind attr.read :: others)

section Readings

variable {keyword : String} {cs inside : List Char} {earlier : List Block} {name : String}

/-- The model that an attribute is put into, with that attribute. -/
def Surroundings.modelWith {rest : List Char}
    (around : Surroundings keyword cs earlier name inside rest) (attr : Written.Attribute) : Model :=
  around.model.withAttribute around.before around.behind attr.read

theorem Surroundings.name_modelWith {rest : List Char}
    (around : Surroundings keyword cs earlier name inside rest) {attr : Written.Attribute}
    (call : attr.IsCall) : (around.modelWith attr).name = name :=
  Model.ofLines?_name (around.made attr call)

theorem readBlocks_unclosed {cs : List Char} {open_ : OpenBlock}
    (scan : blocks keyword cs = { blocks := earlier, unclosed := some open_ }) :
    readBlocks keyword Model.ofBlock? cs =
      (earlier.mapM Model.ofBlock?).bind fun _ => .error (unterminated keyword open_) := by
  rw [readBlocks_eq, scan]

theorem readBlocks_split {cs : List Char} {block : Block} {later : List Block}
    {unclosed : Option OpenBlock}
    (scan : blocks keyword cs = { blocks := earlier ++ block :: later, unclosed }) :
    readBlocks keyword Model.ofBlock? cs =
      (earlier.mapM Model.ofBlock?).bind fun declared =>
        (Model.ofBlock? block).bind fun model =>
          (later.mapM Model.ofBlock?).bind fun others =>
            match unclosed with
            | some open_ => .error (unterminated keyword open_)
            | none => .ok (declared ++ model :: others) := by
  rw [readBlocks_eq, scan]
  simp only [List.mapM_append, List.mapM_cons]
  cases earlier.mapM Model.ofBlock? with
  | error fault => rfl
  | ok declared =>
    cases Model.ofBlock? block with
    | error fault => rfl
    | ok model => cases later.mapM Model.ofBlock? <;> rfl

theorem readBlocks_insert (open_ : Opened keyword cs earlier name inside)
    (starts : StartsLine inside) (word : IsWordText keyword.toList) (rest : List Char) :
    (∃ fault, ∀ attr : Written.Attribute, attr.IsCall →
        readBlocks keyword Model.ofBlock? (cs ++ (attr.blockText ++ rest)) = .error fault) ∨
      Nonempty (Surroundings keyword cs earlier name inside rest) := by
  have nested {attr : Written.Attribute} (call : attr.IsCall) : IsNested attr.blockText :=
    call.inline_blockText.nested
  rcases open_.blocks_insert word rest with ⟨line, scan⟩ | ⟨line, last, later, unclosed, scan⟩
  next =>
    have read {attr : Written.Attribute} (call : attr.IsCall) :=
      readBlocks_unclosed (scan _ (nested call) call.unbroken_blockText)
    cases front : earlier.mapM Model.ofBlock? with
    | error fault => exact .inl ⟨fault, fun attr call => by rw [read call, front]; rfl⟩
    | ok declared => exact .inl ⟨_, fun attr call => by rw [read call, front]; rfl⟩
  next =>
    have read {attr : Written.Attribute} (call : attr.IsCall) :=
      readBlocks_split (scan _ (nested call) call.unbroken_blockText)
    cases front : earlier.mapM Model.ofBlock? with
    | error fault => exact .inl ⟨fault, fun attr call => by rw [read call, front]; rfl⟩
    | ok declared =>
      rcases Model.ofBlock?_insert starts name line last with
        ⟨fault, failed⟩ | ⟨model, before, behind, listed, made⟩
      next =>
        refine .inl ⟨fault, fun attr call => ?_⟩
        rw [read call, front, failed attr call]
        rfl
      next =>
        -- What is read behind the attribute does not depend on it either.
        have ends {attr : Written.Attribute} (call : attr.IsCall) := by
          have here := read call
          rwa [front, made attr call] at here
        cases back : later.mapM Model.ofBlock? with
        | error fault => exact .inl ⟨fault, fun attr call => by rw [ends call, back]; rfl⟩
        | ok others =>
          cases unclosed with
          | some block => exact .inl ⟨_, fun attr call => by rw [ends call, back]; rfl⟩
          | none =>
            exact .inr ⟨{
              line, last, later, declared, model, before, behind, others, listed, made
              scan attr call := scan _ (nested call) call.unbroken_blockText
              names := map_of_mapM back fun _ _ found => Model.ofLines?_name found
              read attr call := by rw [ends call, back]; rfl }⟩

end Readings

/-- The text in front of a line of a model: behind some blocks, the model of this name is open there,
and its body holds these lines so far. -/
structure InModel (keywords : PrismaKeywords) (front : List Char) (earlier : List Block)
    (name : String) (inside : List Char) : Prop where
  /-- The line stands outside comments and strings. -/
  code : (Region.text .code).run front = .text .code
  opened : Opened keywords.modelKeyword (stripComments front) earlier name inside
  starts : StartsLine inside
  /-- No enumeration is open there. -/
  closed : (blocks keywords.enumKeyword (stripComments front)).unclosed = none

section Pairs

/-- Two attributes that end in the same way behind pieces without braces, so that a search for another
keyword does not see what they differ in. -/
def SameEnd (attr other : Written.Attribute) : Prop :=
  ∃ quiet quiet' c rest, attr.blockText = '@' :: (quiet ++ c :: rest) ∧
    other.blockText = '@' :: (quiet' ++ c :: rest) ∧ breaksHeader c = true ∧
    ('{' ∉ quiet ∧ '\n' ∉ quiet) ∧ '{' ∉ quiet' ∧ '\n' ∉ quiet'

namespace SameEnd

variable {attr other : Written.Attribute} {keyword : String} {cs : List Char}

theorem blocks (ends : SameEnd attr other) (word : IsWordText keyword.toList)
    (closed : (Text.blocks keyword cs).unclosed = none) (rest : List Char) :
    Text.blocks keyword (cs ++ (attr.blockText ++ rest)) =
      Text.blocks keyword (cs ++ (other.blockText ++ rest)) := by
  obtain ⟨quiet, quiet', c, tail, whole, whole', breaks, held, held'⟩ := ends
  rw [whole, whole']
  simp only [List.cons_append, List.append_assoc]
  rw [blocks_quiet word closed (by decide) breaks held.1 held.2,
    blocks_quiet word closed (by decide) breaks held'.1 held'.2]

theorem noteMissingBlock (ends : SameEnd attr other) (word : IsWordText keyword.toList)
    (rest : List Char) :
    Blocks.noteMissingBlock (cs ++ (attr.blockText ++ rest)) keyword =
      Blocks.noteMissingBlock (cs ++ (other.blockText ++ rest)) keyword := by
  obtain ⟨quiet, quiet', c, tail, whole, whole', breaks, held, held'⟩ := ends
  rw [whole, whole', Blocks.noteMissingBlock, Blocks.noteMissingBlock]
  simp only [List.cons_append, List.append_assoc]
  rw [hasBlockHeader_quiet word (by decide) breaks held.1,
    hasBlockHeader_quiet word (by decide) breaks held'.1]

end SameEnd

variable {keywords : PrismaKeywords} {front inside : List Char} {earlier : List Block}
  {name : String} {attr other : Written.Attribute}

/-- With either attribute the same models and enumerations are collected, but for the model that the
attribute belongs to, as long as it is not declared again. -/
theorem collect_insert (known : AreKeywords keywords)
    (place : InModel keywords front earlier name inside) (call : attr.IsCall) (call' : other.IsCall)
    (ends : SameEnd attr other) (rest : List Char) :
    Journaled.Alike (fun _ _ => False)
        (collect keywords (stripComments front ++ (attr.blockText ++ rest)))
        (collect keywords (stripComments front ++ (other.blockText ++ rest))) ∨
      ∃ around : Surroundings keywords.modelKeyword (stripComments front) earlier name inside rest,
        Journaled.Alike
          (fun found found' => found.2 = found'.2 ∧
            SwappedUnder (around.later.map (·.name)) (around.modelWith attr)
              (around.modelWith other) found.1 found'.1)
          (collect keywords (stripComments front ++ (attr.blockText ++ rest)))
          (collect keywords (stripComments front ++ (other.blockText ++ rest))) := by
  have generator :
      noteMissingBlock (stripComments front ++ (attr.blockText ++ rest)) "generator" = _ :=
    ends.noteMissingBlock (by decide) rest
  have datasource :
      noteMissingBlock (stripComments front ++ (attr.blockText ++ rest)) "datasource" = _ :=
    ends.noteMissingBlock (by decide) rest
  have enums (read : Block → Except Fault Enumeration) :
      readBlocks keywords.enumKeyword read (stripComments front ++ (attr.blockText ++ rest)) =
        readBlocks keywords.enumKeyword read (stripComments front ++ (other.blockText ++ rest)) := by
    have same : blocks keywords.enumKeyword (stripComments front ++ (attr.blockText ++ rest)) = _ :=
      ends.blocks (known.word .enumeration) place.closed rest
    rw [readBlocks_eq, readBlocks_eq, same]
    rfl
  rw [collect, collect, generator, datasource, enums]
  rcases readBlocks_insert place.opened place.starts (known.word .model) rest with
    ⟨fault, failed⟩ | ⟨⟨around⟩⟩
  next =>
    rw [failed attr call, failed other call']
    refine .inl (.after _ fun _ => .after _ fun _ => .after _ fun _ => ?_)
    exact .bind (.fail fault) fun _ _ (none : False) => none.elim
  next =>
    have same := (around.name_modelWith call).trans (around.name_modelWith call').symm
    have declared := foldlM_addModel_put same around.declared around.others
    rw [around.names] at declared
    rw [around.read attr call, around.read other call']
    refine .inr ⟨around, .after _ fun _ => .after _ fun _ => .after _ fun enums => ?_⟩
    simp only [Journaled.ofExcept, pure_bind]
    exact declared.bind fun _ _ pair => .pure ⟨rfl, pair⟩

/-- Where a model is open, a text holds a declaration. -/
theorem looksLike_of_opened (known : AreKeywords keywords) {cs : List Char}
    (open_ : Opened keywords.modelKeyword cs earlier name inside) (rest : List Char) :
    looksLike keywords (cs ++ rest) = true := by
  obtain ⟨lead, header, rfl, -, found⟩ := open_.header
  have here : (blockHeader? keywords.modelKeyword.toList lead.getLast? header).isSome = true := by
    rw [found]
    rfl
  refine looksLike_append (known.word .model) (known.word .enumeration) (findMatch_behind ?_) rest
  rw [Option.or_none]
  exact findMatch_of_front
    (keywordWithName?_of_blockHeader? (List.mem_cons_self ..) (known.word .model) here)

variable {R : Type} [Coordinate R] {config : Config R} (draws : Nat → R)

theorem readSchema_of_opened (known : AreKeywords config.prismaKeywords)
    (place : InModel config.prismaKeywords front earlier name inside) (call : attr.IsCall)
    (back : List Char) :
    readSchema config draws (front ++ (attr.blockText ++ back)) =
      if bracesBalanced (stripComments front ++ stripComments back) then do
        let (models, enums) ← collect config.prismaKeywords
          (stripComments front ++ (attr.blockText ++ stripComments back))
        schemaOf config draws models enums
      else Journaled.fail (.structural "Unbalanced braces in Prisma schema" {}) := by
  have code : Mode.code.run (stripComments front) = .code :=
    (run_stripFrom (.text .code) front).trans (by rw [place.code]; rfl)
  have balance := call.inline_blockText.nested.bracesBalanced_insert code (stripComments back)
  simp only [readSchema, call.stripComments_blockText place.code,
    looksLike_of_opened known place.opened, balance]
  cases bracesBalanced (stripComments front ++ stripComments back) <;> rfl

/-- Two texts in which only an attribute of a model differs are both refused for the same reason, or
are both read or both refused behind it. If the attributes say the same of the table up to its name,
only that name differs, as long as the model is not declared again. -/
theorem readSchema_insert (known : AreKeywords config.prismaKeywords)
    (place : InModel config.prismaKeywords front earlier name inside) (call : attr.IsCall)
    (call' : other.IsCall) (ends : SameEnd attr other) (back : List Char) :
    Journaled.Alike (fun _ _ => False)
        (readSchema config draws (front ++ (attr.blockText ++ back)))
        (readSchema config draws (front ++ (other.blockText ++ back))) ∨
      ∃ around : Surroundings config.prismaKeywords.modelKeyword (stripComments front) earlier name
          inside (stripComments back),
        (around.modelWith attr).Twins config.prismaKeywords (around.modelWith other) →
        Journaled.Alike
          (fun schema schema' => if name ∈ around.later.map (·.name) then schema = schema'
            else schema.DifferInName name
              ((around.modelWith attr).marks config.prismaKeywords).name
              ((around.modelWith other).marks config.prismaKeywords).name schema')
          (readSchema config draws (front ++ (attr.blockText ++ back)))
          (readSchema config draws (front ++ (other.blockText ++ back))) := by
  rw [readSchema_of_opened draws known place call, readSchema_of_opened draws known place call']
  split
  next =>
    rcases collect_insert known place call call' ends (stripComments back) with
      failed | ⟨around, collected⟩
    next => exact .inl (failed.bind fun _ _ (none : False) => none.elim)
    next =>
      refine .inr ⟨around, fun twins => collected.bind ?_⟩
      rintro ⟨models, enums⟩ ⟨models', _⟩ ⟨rfl, swapped⟩
      simp only [SwappedUnder, around.name_modelWith call] at swapped
      split at swapped
      next replaced =>
        simp only [replaced, if_true]
        rw [swapped]
        exact .self _
      next kept =>
        simp only [kept, if_false]
        have differ := schemaOf_swapped twins draws swapped enums
        rwa [around.name_modelWith call] at differ
  next => exact .inl (.fail _)

end Pairs

end SchemaAtlas.Blocks
