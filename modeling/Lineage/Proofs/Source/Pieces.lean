import Lineage.Proofs.Source.Parser
import Mathlib.Data.List.Flatten

/-!
# What is read off a source is in the source

Every text that a declaration is made of stands in the source, its name before what it inherits and
these in order.  Every position that is reported is one of the source, and every node is looked up
between two characters of it.
-/

namespace Lineage.Source

/-! ## Pieces of a text -/

/-- The pieces stand in the text in order and do not overlap. -/
def InOrder : List String → String → Prop
  | [], _ => True
  | piece :: pieces, text => ∃ front back, text = front ++ (piece ++ back) ∧ InOrder pieces back

section InOrder

variable {pieces others : List String} {piece text front back : String}

theorem InOrder.append_left (ordered : InOrder pieces text) (front : String) :
    InOrder pieces (front ++ text) := by
  cases pieces with
  | nil => trivial
  | cons piece pieces =>
      obtain ⟨before, after, rfl, later⟩ := ordered
      exact ⟨front ++ before, after, by simp only [String.append_assoc], later⟩

theorem InOrder.append (ordered : InOrder pieces front) (ordered' : InOrder others back) :
    InOrder (pieces ++ others) (front ++ back) := by
  induction pieces generalizing front with
  | nil => exact ordered'.append_left front
  | cons piece pieces ih =>
      obtain ⟨before, after, rfl, later⟩ := ordered
      exact ⟨before, after ++ back, by simp only [String.append_assoc], ih later⟩

theorem InOrder.append_right (ordered : InOrder pieces text) (back : String) :
    InOrder pieces (text ++ back) := by
  have nothing : InOrder [] back := trivial
  simpa using ordered.append nothing

theorem InOrder.sublist (ordered : InOrder others text) (fewer : pieces.Sublist others) :
    InOrder pieces text := by
  induction fewer generalizing text with
  | slnil => trivial
  | cons piece _ ih =>
      obtain ⟨before, after, rfl, later⟩ := ordered
      exact ((ih later).append_left piece).append_left before
  | cons_cons piece _ ih =>
      obtain ⟨before, after, rfl, later⟩ := ordered
      exact ⟨before, after, rfl, ih later⟩

theorem InOrder.exists_of_mem (ordered : InOrder pieces text) (listed : piece ∈ pieces) :
    ∃ front back, text = front ++ (piece ++ back) := by
  induction pieces generalizing text with
  | nil => cases listed
  | cons first pieces ih =>
      obtain ⟨before, after, rfl, later⟩ := ordered
      rcases List.mem_cons.mp listed with rfl | listed
      · exact ⟨before, after, rfl⟩
      · obtain ⟨front, back, rfl⟩ := ih later listed
        exact ⟨before ++ (first ++ front), back, by simp only [String.append_assoc]⟩

end InOrder

end Lineage.Source

namespace Lineage

open Source (InOrder newlines)

/-- The name of the declaration stands in the source, its entries after it in order, the names and
arguments of each in order within the entry, and its line is not after that of the name. -/
def Declaration.IsReadFrom (source : String) (declaration : Declaration) : Prop :=
  ∃ front back, source = front ++ (declaration.name ++ back) ∧
    1 ≤ declaration.line ∧ declaration.line ≤ 1 + newlines front ∧
    InOrder (declaration.inherited.map Entry.text) back ∧
    ∀ entry ∈ declaration.inherited, InOrder entry.partTexts entry.text

def Declaration.texts (declaration : Declaration) : List String :=
  declaration.name :: declaration.inherited.flatMap fun entry => entry.text :: entry.partTexts

theorem Declaration.IsReadFrom.exists_of_mem_texts {source text : String}
    {declaration : Declaration} (read : declaration.IsReadFrom source) (listed : text ∈ declaration.texts) :
    ∃ front back, source = front ++ (text ++ back) := by
  obtain ⟨front, back, rfl, -, -, entries, parts⟩ := read
  rcases List.mem_cons.mp listed with rfl | listed
  · exact ⟨front, back, rfl⟩
  · obtain ⟨entry, inherited, listed⟩ := List.mem_flatMap.mp listed
    obtain ⟨before, after, rfl⟩ := entries.exists_of_mem (List.mem_map_of_mem inherited)
    have within : ∃ start rest, entry.text = start ++ (text ++ rest) := by
      rcases List.mem_cons.mp listed with rfl | listed
      · exact ⟨"", "", by simp⟩
      · exact (parts entry inherited).exists_of_mem listed
    obtain ⟨start, rest, same⟩ := within
    refine ⟨front ++ (declaration.name ++ (before ++ start)), rest ++ after, ?_⟩
    rw [same]
    simp only [String.append_assoc]

end Lineage

namespace Lineage.Source

namespace Node

variable {lexemes : List String} {content : String} {first last start stop : Nat}
variable {node part type name specifier root : Node} {nodes : List Node} {place : Place}
variable {texts : List String} {declaration : Declaration} {declarations : List Declaration}

/-! ## Texts in order -/

def textOf (content : String) (node : Node) : String :=
  (node.text? content).getD ""

theorem Reads.eq_map (reads : Reads content nodes texts) : texts = nodes.map (textOf content) := by
  induction reads with
  | nil => rfl
  | cons here _ ih => rw [List.map_cons, ← ih, textOf, here, Option.getD_some]

theorem Spans.textOf (spans : node.Spans lexemes start stop) :
    node.textOf (String.join lexemes) = between lexemes start stop := by
  rw [Node.textOf, spans.text?, Option.getD_some]

theorem Covers.inOrder {read : Node → List String} (covers : Covers lexemes first last nodes)
    (each : ∀ node ∈ nodes, ∀ start stop, node.Spans lexemes start stop →
      InOrder (read node) (between lexemes start stop)) :
    InOrder (nodes.flatMap read) (between lexemes first last) := by
  induction nodes generalizing first with
  | nil => trivial
  | cons node nodes ih =>
      obtain ⟨start, stop, before, spans, rest⟩ := covers_cons_iff.mp covers
      have here := (each node (.head _) start stop spans).append_left (between lexemes first start)
      have later := ih rest fun other listed => each other (.tail _ listed)
      have all := here.append later
      rwa [between_append before spans.le.1 spans.le.2,
        between_append (Nat.le_trans before spans.le.1) rest.le.1 rest.le.2] at all

theorem Spans.inOrder_self (spans : node.Spans lexemes start stop) :
    InOrder [node.textOf (String.join lexemes)] (between lexemes start stop) :=
  ⟨"", "", by rw [spans.textOf]; simp, trivial⟩

theorem Covers.inOrder_texts (covers : Covers lexemes first last nodes) :
    InOrder (nodes.map (Node.textOf (String.join lexemes))) (between lexemes first last) := by
  rw [List.map_eq_flatMap]
  exact covers.inOrder fun node _ start stop spans => spans.inOrder_self

/-! ## Entries -/

theorem Spans.inOrder_partNodes (spans : part.Spans lexemes start stop) :
    InOrder (part.partNodes.map (Node.textOf (String.join lexemes)))
      (between lexemes start stop) := by
  rw [partNodes]
  split_ifs
  · exact spans.inOrder_self
  · refine spans.2.inOrder_texts.sublist (List.Sublist.map _ ?_)
    exact List.filter_sublist.trans List.filter_sublist
  · trivial

theorem Spans.inOrder_typeNodes (spans : type.Spans lexemes start stop) :
    InOrder (type.typeNodes.map (Node.textOf (String.join lexemes)))
      (between lexemes start stop) := by
  rw [typeNodes]
  split_ifs
  · have all := spans.2.inOrder fun part _ start stop spans => spans.inOrder_partNodes
    refine all.sublist ?_
    rw [List.map_flatMap]
    exact List.filter_sublist.flatMap _
  · trivial

theorem mem_of_inheritedType? (found : specifier.inheritedType? = some type) :
    type ∈ specifier.children := by
  rw [inheritedType?, Option.or_eq_some_iff] at found
  rcases found with marked | ⟨-, named⟩
  · exact List.mem_of_find?_eq_some marked
  · exact List.mem_of_mem_filter (List.mem_of_mem_head? named)

theorem mem_of_nameNode? (named : node.nameNode? = some name) : name ∈ node.children := by
  rw [nameNode?, Option.or_eq_some_iff] at named
  rcases named with marked | ⟨-, first⟩
  · exact List.mem_of_find?_eq_some marked
  · exact List.mem_of_find?_eq_some first

theorem Spans.inOrder_inheritedType? (spans : specifier.Spans lexemes start stop) :
    InOrder (specifier.inheritedType?.toList.map (Node.textOf (String.join lexemes)))
      (between lexemes start stop) := by
  cases found : specifier.inheritedType? with
  | none => trivial
  | some type =>
      have listed := List.mem_map_of_mem (f := Node.textOf (String.join lexemes))
        (mem_of_inheritedType? found)
      refine spans.2.inOrder_texts.sublist ?_
      simpa using listed

theorem Covers.inOrder_inheritedTypes (covers : Covers lexemes first last nodes) :
    InOrder (((nodes.filter isSpecifier).filterMap inheritedType?).map
      (Node.textOf (String.join lexemes))) (between lexemes first last) := by
  have all := covers.inOrder fun specifier _ start stop spans => spans.inOrder_inheritedType?
  refine all.sublist ?_
  rw [List.filterMap_eq_flatMap_toList, List.map_flatMap]
  exact List.filter_sublist.flatMap _

/-! ## Declarations -/

theorem Makes.entryTexts (makes : node.Makes content name declaration) :
    declaration.inherited.map Entry.text = node.inheritedTypes.map (textOf content) := by
  refine (Reads.eq_map ?_)
  refine List.forall₂_map_right_iff.mpr (makes.inherited.imp fun type entry read => ?_)
  exact (entryOf?_eq_some read).1

theorem Makes.inOrder_partTexts (makes : node.Makes (String.join lexemes) name declaration)
    (spans : node.Spans lexemes start stop) {entry : Entry}
    (listed : entry ∈ declaration.inherited) : InOrder entry.partTexts entry.text := by
  obtain ⟨type, among, read⟩ := exists_of_mem_right makes.inherited listed
  obtain ⟨specifier, marked, chosen⟩ := List.mem_filterMap.mp among
  obtain ⟨_, _, -, -, around⟩ := spans.2.of_mem (List.mem_of_mem_filter marked)
  obtain ⟨_, _, -, -, inner⟩ := around.2.of_mem (mem_of_inheritedType? chosen)
  obtain ⟨text, parts⟩ := entryOf?_eq_some read
  have same := Option.some.inj (inner.text?.symm.trans text)
  rw [parts.eq_map, ← same]
  exact inner.inOrder_typeNodes

theorem inheritedTypes_eq {front back : List Node} (parts : node.children = front ++ back)
    (plain : ∀ other ∈ front, other.isSpecifier = false) :
    node.inheritedTypes = (back.filter isSpecifier).filterMap inheritedType? := by
  have none_before : front.filter isSpecifier = [] :=
    List.filter_eq_nil_iff.mpr fun other listed => by simp [plain other listed]
  rw [inheritedTypes, parts, List.filter_append, none_before, List.nil_append]

theorem Fits.isReadFrom (fits : root.Fits content) (found : root.at? place = some node)
    (declares : node.isDeclaration = true) (named : node.nameNode? = some name)
    (makes : node.Makes content name declaration) : declaration.IsReadFrom content := by
  obtain ⟨lexemes, _, _, rfl, whole⟩ := fits.exists_spans
  obtain ⟨first, last, -, -, spans⟩ := whole.of_at? found
  obtain ⟨front, back, parts, plain⟩ := fits.named place node found declares name named
  have covers := spans.2
  rw [parts] at covers
  obtain ⟨middle, before, rest⟩ := covers.append
  obtain ⟨start, stop, after, here, later⟩ := covers_cons_iff.mp rest
  have types := inheritedTypes_eq (parts.trans (List.append_cons front name back)) plain
  have name_eq : declaration.name = between lexemes start stop := by
    have same := here.text?.symm.trans makes.name
    exact (Option.some.inj same).symm
  have entries : InOrder (declaration.inherited.map Entry.text) (between lexemes stop last) := by
    rw [makes.entryTexts, types]
    exact later.inOrder_inheritedTypes
  have lower : first ≤ start := Nat.le_trans before.le.1 after
  refine ⟨between lexemes 0 start, between lexemes stop lexemes.length, ?_, ?_, ?_, ?_,
    fun entry listed => makes.inOrder_partTexts spans listed⟩
  · rw [name_eq]
    exact here.join_eq
  · rw [makes.line]
    omega
  · -- The line is that of the first lexeme of the declaration, which is not after the name.
    rw [makes.line, spans.1.start, Position.line_after,
      ← between_append (Nat.zero_le first) lower (Nat.le_trans here.le.1 here.le.2),
      newlines_append]
    have zero : Position.start.line = 0 := rfl
    omega
  · rw [← between_append later.le.1 later.le.2 (Nat.le_refl _)]
    exact entries.append_right _

theorem Fits.isReadFrom_of_declares (fits : root.Fits content)
    (declares : root.Declares content place declaration) : declaration.IsReadFrom content := by
  obtain ⟨node, name, found, kinds, named, makes⟩ := declares
  exact fits.isReadFrom found (isDeclaration_iff.mpr kinds) (nameNode?_eq_some_iff.mpr named) makes

/-! ## Nodes that are looked up -/

theorem exists_at?_of_mem (listed : node ∈ root.children) :
    ∃ index, root.at? [index] = some node := by
  obtain ⟨index, found⟩ := List.mem_iff_getElem?.mp listed
  exact ⟨index, at?_cons_eq_some_iff.mpr ⟨node, found, rfl⟩⟩

theorem exists_at?_of_mem_partNodes (listed : node ∈ part.partNodes) :
    ∃ below, part.at? below = some node := by
  rw [partNodes] at listed
  split_ifs at listed
  · cases List.mem_singleton.mp listed
    exact ⟨[], rfl⟩
  · have child := List.mem_of_mem_filter (List.mem_of_mem_filter listed)
    obtain ⟨index, found⟩ := exists_at?_of_mem child
    exact ⟨[index], found⟩
  · cases listed

theorem exists_at?_of_mem_typeNodes (listed : node ∈ type.typeNodes) :
    ∃ below, type.at? below = some node := by
  rw [typeNodes] at listed
  split_ifs at listed
  · obtain ⟨part, among, listed⟩ := List.mem_flatMap.mp listed
    obtain ⟨index, here⟩ := exists_at?_of_mem (List.mem_of_mem_filter among)
    obtain ⟨below, found⟩ := exists_at?_of_mem_partNodes listed
    refine ⟨[index] ++ below, ?_⟩
    rw [at?_append, here]
    exact found
  · cases listed

theorem exists_at?_of_mem_readNodes (listed : part ∈ node.readNodes) :
    ∃ below, below ≠ [] ∧ node.at? below = some part := by
  rw [readNodes] at listed
  split_ifs at listed
  · obtain ⟨name, named, listed⟩ := List.mem_flatMap.mp listed
    rcases List.mem_cons.mp listed with rfl | listed
    · obtain ⟨index, found⟩ := exists_at?_of_mem (mem_of_nameNode? (Option.mem_toList.mp named))
      exact ⟨[index], by simp, found⟩
    · obtain ⟨type, among, listed⟩ := List.mem_flatMap.mp listed
      obtain ⟨specifier, marked, chosen⟩ := List.mem_filterMap.mp among
      obtain ⟨index, child⟩ := exists_at?_of_mem (List.mem_of_mem_filter marked)
      obtain ⟨inner, here⟩ := exists_at?_of_mem (mem_of_inheritedType? chosen)
      have below : ∃ below, type.at? below = some part := by
        rcases List.mem_cons.mp listed with rfl | listed
        · exact ⟨[], rfl⟩
        · exact exists_at?_of_mem_typeNodes listed
      obtain ⟨below, found⟩ := below
      refine ⟨[index] ++ ([inner] ++ below), by simp, ?_⟩
      rw [at?_append, child, Option.bind_some, at?_append, here]
      exact found
  · cases listed

theorem Fits.isSome_outline? (fits : root.Fits content) : (root.outline? content).isSome := by
  rw [isSome_outline?_iff, isSome_declarations?_iff]
  intro place node found part listed
  obtain ⟨below, -, here⟩ := exists_at?_of_mem_readNodes listed
  have at_part : root.at? (place ++ below) = some part := by
    rw [at?_append, found]
    exact here
  obtain ⟨front, text, back, -, looked_up, -⟩ := fits.exists_around at_part
  rw [looked_up]
  rfl

theorem Fits.isReadFrom_of_outline? (fits : root.Fits content)
    (outlined : root.outline? content = some (.ok declarations))
    (listed : declaration ∈ declarations) : declaration.IsReadFrom content := by
  obtain ⟨places, -, row, -⟩ := exists_places (declarations?_of_outline? outlined)
  obtain ⟨place, -, declares⟩ := exists_of_mem_right row listed
  exact fits.isReadFrom_of_declares declares

theorem Fits.error_in (fits : root.Fits content) {line column : Nat}
    (outlined : root.outline? content = some (.error (.malformedSource line column))) :
    1 ≤ line ∧ line ≤ 1 + newlines content ∧ 1 ≤ column ∧
      ∃ text, (linesOf content)[line - 1]? = some text ∧
        column ≤ 1 + (String.ofList text).utf8ByteSize := by
  obtain ⟨place, node, found, same⟩ := exists_of_outline?_error outlined
  obtain ⟨front, text, back, parted, -, -, -, start⟩ := fits.exists_around found
  obtain ⟨above, text', within, short⟩ := position_in front (text ++ back)
  rw [← parted, ← start] at above within
  rw [← start] at short
  cases same
  refine ⟨by omega, by omega, by omega, text', ?_, by omega⟩
  rw [Nat.add_sub_cancel]
  exact within

end Node

/-! ## Whole sources -/

theorem parse?_syntaxTree (source : String) : syntaxTree.parse? source = some (parse source) := by
  have answered : (syntaxTree.parse? source).isSome :=
    (fitsAt_syntaxTree source _ rfl).isSome_outline?
  obtain ⟨answer, same⟩ := Option.isSome_iff_exists.mp answered
  rw [parse, same, Option.getD_some]

theorem parse?_eq_ok {source : String} {declarations : List Declaration}
    (read : (parse source).toOption = some declarations) :
    syntaxTree.parse? source = some (.ok declarations) := by
  rw [parse?_syntaxTree]
  cases same : parse source with
  | ok found =>
      rw [same] at read
      exact congrArg (some ∘ Except.ok) (Option.some.inj read)
  | error cause =>
      rw [same] at read
      cases read

/-- Whatever parser reads a source, as long as its tree fits it, there is an answer.  Every text that
is read off the source stands in it, a name before what it inherits and this in order, and no
declaration is reported on a line after that of its name.  If reading fails, the line and the column
that are reported are in the source.  Every node of the tree is looked up between two bytes at which
characters begin or end. -/
theorem parse_in_source (parser : TreeParser) (source : String) (fits : parser.FitsAt source) :
    (parser.parse? source).isSome ∧
    (∀ declarations, parser.parse? source = some (.ok declarations) →
      ∀ declaration ∈ declarations, declaration.IsReadFrom source ∧
        ∀ text ∈ declaration.texts, ∃ front back, source = front ++ (text ++ back)) ∧
    (∀ line column, parser.parse? source = some (.error (.malformedSource line column)) →
      1 ≤ line ∧ line ≤ 1 + newlines source ∧ 1 ≤ column ∧
      ∃ text, (linesOf source)[line - 1]? = some text ∧
        column ≤ 1 + (String.ofList text).utf8ByteSize) ∧
    ∀ root place node, parser source = .ok root → root.at? place = some node →
      ∃ front text back, source = front ++ (text ++ back) ∧ node.text? source = some text ∧
        node.startByte = front.utf8ByteSize ∧ node.endByte = (front ++ text).utf8ByteSize := by
  cases tree : parser source with
  | error failure =>
      have answer : parser.parse? source = some (.error failure.cause) := by
        rw [TreeParser.parse?, tree]
      rw [answer]
      refine ⟨rfl, nofun, fun line column same => ?_, nofun⟩
      cases failure <;> cases same
  | ok root =>
      have answer : parser.parse? source = root.outline? source := by
        rw [TreeParser.parse?, tree]
      have fits := fits root tree
      rw [answer]
      refine ⟨fits.isSome_outline?, fun declarations read declaration listed => ?_,
        fun line column failed => fits.error_in failed, fun root' place node same found => ?_⟩
      · have read := fits.isReadFrom_of_outline? read listed
        exact ⟨read, fun text among => read.exists_of_mem_texts among⟩
      · cases same
        obtain ⟨front, text, back, parted, looked_up, starts, ends, -⟩ := fits.exists_around found
        exact ⟨front, text, back, parted, looked_up, starts, ends⟩

/-- An entry that goes on after a comment on its line, below a line with a character of two bytes. -/
def commentedSource : String :=
  "// \u00fc\nclass A: B<C/* \u00fc */> \x7b\x7d"

theorem parse_in_source_of_comments :
    let declaration : Declaration :=
      ⟨"A", .class, 2, [⟨"B<C/* \u00fc */>", [.name "B", .arguments ["C"]]⟩]⟩
    syntaxTree.parse? commentedSource = some (.ok [declaration]) ∧
      declaration.IsReadFrom commentedSource ∧
      ∀ root place node, syntaxTree commentedSource = .ok root → root.at? place = some node →
        ∃ front text back, commentedSource = front ++ (text ++ back) ∧
          node.text? commentedSource = some text ∧ node.startByte = front.utf8ByteSize ∧
          node.endByte = (front ++ text).utf8ByteSize := by
  intro declaration
  have parsed : syntaxTree.parse? commentedSource = some (.ok [declaration]) :=
    parse?_eq_ok (by decide +kernel)
  obtain ⟨-, read, -, slices⟩ :=
    parse_in_source syntaxTree commentedSource (fitsAt_syntaxTree commentedSource)
  exact ⟨parsed, (read _ parsed declaration (by simp)).1, slices⟩

end Lineage.Source
