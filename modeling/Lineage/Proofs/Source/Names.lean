import Lineage.Proofs.Extraction
import Lineage.Proofs.Source.Pieces

/-!
# Names that are not in the source

A name that is missing may be supplied by a node that covers nothing and is no fault.  A text that is
read off a source is empty only where such a node stands, and so does an empty name come into a
graph.
-/

namespace Lineage

theorem specializedName_ne_empty (base : String) (arguments : List String) :
    specializedName base arguments ≠ "" := by
  intro blank
  simp [specializedName] at blank

theorem Entry.empty_mem_partTexts {entry : Entry} (nameless : "" ∈ entry.types .decompose) :
    "" ∈ entry.partTexts := by
  rw [partTexts]
  simp only [types] at nameless
  split at nameless
  · cases ‹Strategy.decompose = .verbatim›
  · rename_i base arguments rest _ parts
    rw [parts]
    rcases List.mem_cons.mp nameless with blank | read
    · exact absurd blank.symm (specializedName_ne_empty base arguments)
    · exact List.mem_append_left (rest.flatMap Part.texts) read
  · rename_i base rest _ _ parts
    rw [parts]
    cases List.mem_singleton.mp nameless
    simp [Part.texts]
  · cases nameless

end Lineage

namespace Lineage.Source

namespace Node

variable {root node part fault : Node} {nodes : List Node} {texts : List String} {content : String}
variable {declarations : List Declaration} {place below : Place}

/-! ## Nodes that cover nothing -/

def IsEmpty (node : Node) : Prop :=
  node.startByte = node.endByte

theorem eq_empty_iff_isEmpty {text : String} (here : node.text? content = some text) :
    text = "" ↔ node.IsEmpty := by
  have size : node.startByte + text.utf8ByteSize = node.endByte := utf8ByteSize_of_slice? here
  rw [← String.utf8ByteSize_eq_zero_iff, IsEmpty]
  omega

theorem Reads.empty_mem_iff (reads : Reads content nodes texts) :
    "" ∈ texts ↔ ∃ node ∈ nodes, node.IsEmpty := by
  induction reads with
  | nil => simp
  | @cons node text nodes texts here _ ih =>
      rw [List.mem_cons, ih, List.exists_mem_cons_iff, ← eq_empty_iff_isEmpty here, eq_comm]

theorem reads_of_gather {entries : List (Place × Node)}
    (gathered : gather content entries = some declarations) :
    Reads content (entries.flatMap fun entry => entry.2.nameNodes)
      (declarations.flatMap Declaration.names) := by
  obtain ⟨rows, row, rfl⟩ := Option.map_eq_some_iff.mp gathered
  rw [List.flatten_eq_flatMap, List.flatMap_assoc]
  exact List.rel_flatMap (mapM_eq_some_iff.mp row) fun _ _ declared => reads_nameNodes declared

theorem empty_mem_names_iff (declared : root.declarations? content = some declarations) :
    (∃ declaration ∈ declarations, "" ∈ declaration.names) ↔
      ∃ place node, root.at? place = some node ∧ ∃ part ∈ node.nameNodes, part.IsEmpty := by
  rw [declarations?_eq_gather] at declared
  have empty := (reads_of_gather declared).empty_mem_iff
  rw [List.mem_flatMap] at empty
  rw [empty]
  constructor
  · rintro ⟨part, listed, blank⟩
    obtain ⟨⟨place, node⟩, among, listed⟩ := List.mem_flatMap.mp listed
    exact ⟨place, node, mem_postorder.mp among, part, listed, blank⟩
  · rintro ⟨place, node, found, part, listed, blank⟩
    exact ⟨part, List.mem_flatMap.mpr ⟨(place, node), mem_postorder.mpr found, listed⟩, blank⟩

/-! ## Faults in names -/

theorem mem_readNodes_of_mem_nameNodes (listed : part ∈ node.nameNodes) :
    part ∈ node.readNodes := by
  rw [nameNodes] at listed
  rw [readNodes]
  split_ifs at listed ⊢
  · obtain ⟨name, named, listed⟩ := List.mem_flatMap.mp listed
    refine List.mem_flatMap.mpr ⟨name, named, ?_⟩
    rcases List.mem_cons.mp listed with rfl | listed
    · exact .head _
    · obtain ⟨type, among, listed⟩ := List.mem_flatMap.mp listed
      exact .tail _ (List.mem_flatMap.mpr ⟨type, among, .tail _ listed⟩)
  · cases listed

theorem isDeclaration_of_mem_nameNodes (listed : part ∈ node.nameNodes) :
    node.isDeclaration = true := by
  rw [nameNodes] at listed
  split_ifs at listed with declares
  · exact declares
  · cases listed

theorem not_isFault_of_harmless (harmless : ¬ ∃ place, root.Harms declarations place)
    (found : root.at? place = some node) (declares : node.isDeclaration = true)
    (inner : below ≠ []) (found_fault : node.at? below = some fault) : fault.isFault = false := by
  refine Bool.eq_false_iff.mpr fun harmful =>
    harmless ⟨place ++ below, ⟨fault, ?_, harmful⟩, .inr ?_⟩
  · rw [at?_append, found]
    exact found_fault
  · refine ⟨place, List.prefix_append _ _, fun same => inner ?_, node, found, declares⟩
    simpa using same

theorem not_isFault_of_mem_nameNodes (harmless : ¬ ∃ place, root.Harms declarations place)
    (found : root.at? place = some node) (listed : part ∈ node.nameNodes)
    (found_fault : part.at? below = some fault) : fault.isFault = false := by
  obtain ⟨way, inner, here⟩ := exists_at?_of_mem_readNodes (mem_readNodes_of_mem_nameNodes listed)
  have below_node : node.at? (way ++ below) = some fault := by
    rw [at?_append, here]
    exact found_fault
  have proper : way ++ below ≠ [] := by simp [inner]
  exact not_isFault_of_harmless harmless found (isDeclaration_of_mem_nameNodes listed) proper
    below_node

end Node

/-! ## Whole sources -/

theorem empty_notMem_nodes {declarations : List Declaration} {graph : Graph}
    (named : ∀ declaration ∈ declarations, "" ∉ declaration.names)
    (extracted : extract .decompose declarations = .ok graph) : "" ∉ graph.nodes := by
  intro among
  obtain ⟨⟨heir, entry⟩, made, here⟩ := (mem_nodes_of_extract extracted).mp among
  obtain ⟨declaration, listed, rfl, inherited⟩ := mem_entriesOf.mp made
  refine named declaration listed ?_
  rcases here with nameless | nameless
  · exact List.mem_cons.mpr (.inl nameless)
  · refine List.mem_cons_of_mem _ (List.mem_flatMap.mpr ⟨entry, inherited, ?_⟩)
    exact Entry.empty_mem_partTexts nameless

/-- Whatever parser reads a source, no text that is read off it is empty if and only if none of the
nodes that names are read from covers nothing.  If so, no graph that is extracted has a node without
a name.  The nodes that names are read from are no faults, and hold none: those that show are not
read. -/
theorem parse_named_iff (parser : TreeParser) (source : String) (root : Node)
    (tree : parser source = .ok root) (flagged : root.Flagged) (declarations : List Declaration)
    (parsed : parser.parse? source = some (.ok declarations)) :
    ((∀ declaration ∈ declarations, "" ∉ declaration.names) ↔
      ∀ place node, root.at? place = some node → ∀ part ∈ node.nameNodes, ¬ part.IsEmpty) ∧
    ((∀ declaration ∈ declarations, "" ∉ declaration.names) →
      ∀ graph, extract .decompose declarations = .ok graph → "" ∉ graph.nodes) ∧
    ∀ place node, root.at? place = some node → ∀ part ∈ node.nameNodes,
      ∀ below fault, part.at? below = some fault → fault.isFault = false := by
  rw [TreeParser.parse?, tree] at parsed
  have declared := Node.declarations?_of_outline? parsed
  have harmless := (Node.outline?_eq_ok_iff flagged declared).mp parsed
  refine ⟨?_, fun named graph extracted => empty_notMem_nodes named extracted,
    fun place node found part listed below fault =>
      Node.not_isFault_of_mem_nameNodes harmless found listed⟩
  have empty := Node.empty_mem_names_iff declared
  constructor
  · intro named place node found part listed blank
    obtain ⟨declaration, among, nameless⟩ := empty.mpr ⟨place, node, found, part, listed, blank⟩
    exact named declaration among nameless
  · intro kept declaration listed nameless
    obtain ⟨place, node, found, part, among, blank⟩ := empty.mp ⟨declaration, listed, nameless⟩
    exact kept place node found part among blank

def oneArgument : List Declaration :=
  [⟨"A", .class, 1, [⟨"B<C>", [.name "B", .arguments ["C"]]⟩]⟩]

theorem parse_named_iff_of_oneArgument :
    ∃ root, syntaxTree "class A: B<C> \x7b\x7d" = .ok root ∧ root.Flagged ∧
      syntaxTree.parse? "class A: B<C> \x7b\x7d" = some (.ok oneArgument) ∧
      ((∀ declaration ∈ oneArgument, "" ∉ declaration.names) ↔
        ∀ place node, root.at? place = some node → ∀ part ∈ node.nameNodes, ¬ part.IsEmpty) ∧
      ((∀ declaration ∈ oneArgument, "" ∉ declaration.names) →
        ∀ graph, extract .decompose oneArgument = .ok graph → "" ∉ graph.nodes) ∧
      ∀ place node, root.at? place = some node → ∀ part ∈ node.nameNodes,
        ∀ below fault, part.at? below = some fault → fault.isFault = false := by
  have flagged := @flagged_syntaxTree "class A: B<C> \x7b\x7d" _ rfl
  have parsed : syntaxTree.parse? "class A: B<C> \x7b\x7d" = some (.ok oneArgument) :=
    parse?_eq_ok (by decide +kernel)
  exact ⟨_, rfl, flagged, parsed, parse_named_iff syntaxTree _ _ rfl flagged _ parsed⟩

def lostEntry : List Declaration :=
  [⟨"A", .class, 1, [⟨"", [.name ""]⟩, ⟨"B", [.name "B"]⟩]⟩]

/-- The tree of a source in which an entry is left out. An error is claimed where its name should
be, and none of the nodes is one. -/
def lostEntryFile : Node :=
  let entry (hasError : Bool) (startByte endByte : Nat) : Node :=
    let start : Position := ⟨0, startByte⟩
    let name : Node :=
      { kind := "type_identifier", hasError, startByte, endByte, start, children := [] }
    let type : Node :=
      { kind := "user_type", field := some "inherits_from", hasError, startByte, endByte, start,
        children := [name] }
    { kind := "inheritance_specifier", hasError, startByte, endByte, start, children := [type] }
  let name : Node :=
    { kind := "type_identifier", field := some "name", startByte := 6, endByte := 7,
      start := ⟨0, 6⟩, children := [] }
  let body : Node :=
    { kind := "class_body", startByte := 13, endByte := 15, start := ⟨0, 13⟩,
      children := [.token "\x7b" 13 14 ⟨0, 13⟩, .token "\x7d" 14 15 ⟨0, 14⟩] }
  let declaration : Node :=
    { kind := "class_declaration", hasError := true, startByte := 0, endByte := 15, start := ⟨0, 0⟩,
      children :=
        [{ Node.token "class" 0 5 ⟨0, 0⟩ with field := some "declaration_kind" }, name,
          .token ":" 7 8 ⟨0, 7⟩, entry true 8 8, .token "," 9 10 ⟨0, 9⟩, entry false 11 12, body] }
  { kind := "source_file", hasError := true, startByte := 0, endByte := 15, start := ⟨0, 0⟩,
    children := [declaration] }

theorem empty_node_of_lostEntry :
    lostEntryFile.Flagged ∧ lostEntryFile.outline? "class A: , B \x7b\x7d" = some (.ok lostEntry) ∧
      syntaxTree.parse? "class A: , B \x7b\x7d" = some (.ok lostEntry) ∧
      ∃ graph, extract .decompose lostEntry = .ok graph ∧ "" ∈ graph.nodes := by
  refine ⟨Node.flagged_of_isFlagged (by decide), by decide, parse?_eq_ok (by decide +kernel), ?_⟩
  have adds : AddsEach .decompose (entriesOf lostEntry) [[("A", "")], [("A", "B")]] :=
    .cons .plain (.cons .plain .nil)
  obtain ⟨graph, entered, extended⟩ := foldlM_enter?_of_adds adds ∅
  refine ⟨graph, (extract_eq_foldlM _ _).trans entered, ?_⟩
  rw [adds.mem_nodes extended]
  exact ⟨("A", ⟨"", [.name ""]⟩), by decide, .inr (by decide)⟩

end Lineage.Source
