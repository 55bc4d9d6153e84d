import Lineage.Source.Outline
import Lineage.Proofs.Option

/-!
# Texts that are looked up

Whatever is read off a declaration is the text of one of its nodes: of the node that names it, or of
one in the types that it inherits from.  There is an answer if and only if all of these nodes have a
text in the source.
-/

namespace Lineage

/-! ## Texts of declarations -/

def Part.texts : Part → List String
  | .name text => [text]
  | .arguments texts => texts
  | .other _ => []

def Entry.partTexts (entry : Entry) : List String :=
  entry.parts.flatMap Part.texts

/-- The texts that an extraction may take for types. -/
def Declaration.names (declaration : Declaration) : List String :=
  declaration.name :: declaration.inherited.flatMap Entry.partTexts

end Lineage

namespace Lineage.Source.Node

variable {content : String} {node part type name : Node} {entry : Entry} {declaration : Declaration}

/-! ## Nodes that texts are looked up for -/

def partNodes (part : Node) : List Node :=
  if part.kind = "type_identifier" then [part]
  else if part.kind = "type_arguments" then part.namedChildren.filter (!·.isExtra)
  else []

def typeNodes (type : Node) : List Node :=
  if type.kind = "user_type" then (type.children.filter (!·.isExtra)).flatMap partNodes else []

/-- The nodes that a declaration has its name and the names of its entries from. -/
def nameNodes (node : Node) : List Node :=
  if node.isDeclaration then
    node.nameNode?.toList.flatMap fun name => name :: node.inheritedTypes.flatMap typeNodes
  else []

/-- All nodes of a declaration whose texts are looked up. -/
def readNodes (node : Node) : List Node :=
  if node.isDeclaration then
    node.nameNode?.toList.flatMap fun name =>
      name :: node.inheritedTypes.flatMap fun type => type :: type.typeNodes
  else []

abbrev Reads (content : String) (nodes : List Node) (texts : List String) : Prop :=
  List.Forall₂ (fun node text => node.text? content = some text) nodes texts

/-! ## What is looked up -/

theorem reads_partNodes {answer : Part} (read : part.partOf? content = some answer) :
    Reads content part.partNodes answer.texts := by
  rw [partOf?] at read
  rw [partNodes]
  split_ifs at read ⊢
  · obtain ⟨text, here, rfl⟩ := Option.map_eq_some_iff.mp read
    exact .cons here .nil
  · obtain ⟨texts, here, rfl⟩ := Option.map_eq_some_iff.mp read
    exact mapM_eq_some_iff.mp here
  · cases read
    exact .nil

theorem entryOf?_eq_some (read : type.entryOf? content = some entry) :
    type.text? content = some entry.text ∧ Reads content type.typeNodes entry.partTexts := by
  obtain ⟨text, here, rest⟩ := Option.bind_eq_some_iff.mp read
  rw [typeNodes]
  split_ifs at rest ⊢ with named
  · obtain ⟨parts, below, same⟩ := Option.bind_eq_some_iff.mp rest
    cases same
    exact ⟨here, List.rel_flatMap (mapM_eq_some_iff.mp below) fun _ _ => reads_partNodes⟩
  · cases rest
    exact ⟨here, .nil⟩

structure Makes (content : String) (node name : Node) (declaration : Declaration) : Prop where
  name : name.text? content = some declaration.name
  kind : declaration.kind = node.declaredKind
  line : declaration.line = node.start.line + 1
  inherited : List.Forall₂ (fun type entry => type.entryOf? content = some entry)
    node.inheritedTypes declaration.inherited

theorem declarationOf?_eq_some_iff :
    node.declarationOf? content name = some declaration ↔
      node.Makes content name declaration := by
  obtain ⟨title, kind, line, inherited⟩ := declaration
  constructor
  · intro made
    obtain ⟨text, here, rest⟩ := Option.bind_eq_some_iff.mp made
    obtain ⟨entries, below, same⟩ := Option.bind_eq_some_iff.mp rest
    cases same
    exact ⟨here, rfl, rfl, mapM_eq_some_iff.mp below⟩
  · rintro ⟨here, rfl, rfl, below⟩
    rw [declarationOf?, here, mapM_eq_some_iff.mpr below]
    rfl

theorem declared?_eq_some_iff {declarations : List Declaration} :
    node.declared? content = some declarations ↔
      if node.isDeclaration then
        List.Forall₂ (node.Makes content) node.nameNode?.toList declarations
      else declarations = [] := by
  rw [declared?]
  split_ifs
  · simp only [mapM_eq_some_iff, declarationOf?_eq_some_iff]
  · rw [Option.some.injEq, eq_comm]

theorem Makes.reads (makes : node.Makes content name declaration) :
    Reads content (name :: node.inheritedTypes.flatMap typeNodes) declaration.names :=
  .cons makes.name (List.rel_flatMap makes.inherited fun _ _ read => (entryOf?_eq_some read).2)

theorem reads_nameNodes {declarations : List Declaration}
    (declared : node.declared? content = some declarations) :
    Reads content node.nameNodes (declarations.flatMap Declaration.names) := by
  rw [declared?_eq_some_iff] at declared
  rw [nameNodes]
  split_ifs at declared ⊢
  · exact List.rel_flatMap declared fun _ _ makes => makes.reads
  · rw [declared]
    exact .nil

/-! ## Whether there is an answer -/

theorem isSome_partOf?_iff :
    (part.partOf? content).isSome ↔ ∀ node ∈ part.partNodes, (node.text? content).isSome := by
  rw [partOf?, partNodes]
  split_ifs
  · simp
  · rw [Option.isSome_map, isSome_mapM_iff]
  · simp

theorem isSome_entryOf?_iff :
    (type.entryOf? content).isSome ↔
      ∀ node ∈ type :: type.typeNodes, (node.text? content).isSome := by
  have parts : ((type.children.filter (!·.isExtra)).mapM (partOf? content)).isSome ↔
      ∀ node ∈ (type.children.filter (!·.isExtra)).flatMap partNodes,
        (node.text? content).isSome := by
    simp only [isSome_mapM_iff, isSome_partOf?_iff, List.forall_mem_flatMap]
  rw [entryOf?, typeNodes, List.forall_mem_cons]
  cases type.text? content with
  | none => simp
  | some text =>
      split_ifs
      · rw [← parts]
        cases (type.children.filter (!·.isExtra)).mapM (partOf? content) <;> simp
      · simp

theorem isSome_declarationOf?_iff :
    (node.declarationOf? content name).isSome ↔
      ∀ read ∈ name :: node.inheritedTypes.flatMap fun type => type :: type.typeNodes,
        (read.text? content).isSome := by
  have entries : (node.inheritedTypes.mapM (entryOf? content)).isSome ↔
      ∀ read ∈ node.inheritedTypes.flatMap fun type => type :: type.typeNodes,
        (read.text? content).isSome := by
    simp only [isSome_mapM_iff, isSome_entryOf?_iff, List.forall_mem_flatMap]
  rw [declarationOf?, List.forall_mem_cons, ← entries]
  cases name.text? content with
  | none => simp
  | some text => cases node.inheritedTypes.mapM (entryOf? content) <;> simp

theorem isSome_declared?_iff :
    (node.declared? content).isSome ↔ ∀ read ∈ node.readNodes, (read.text? content).isSome := by
  rw [declared?, readNodes]
  split_ifs
  · simp only [isSome_mapM_iff, isSome_declarationOf?_iff, List.forall_mem_flatMap]
  · simp

end Lineage.Source.Node
