import Lineage.Proofs.Source.Printer
import Lineage.Proofs.Source.Walk

/-!
# Nodes of printed declarations

What the nodes of a printed type, declaration or row of declarations are is said by the structure of
what was printed: of which kind they are, what stands in which field, and which part of the print
they cover.  Nothing else is asked of the nodes around and between them than that they are neither
declarations nor faults.  From such a tree what was printed is read off.
-/

namespace Lineage.Source.Node

open Printer

variable {content front text back : String} {node type specifier : Node} {nodes : List Node}
variable {supertype : Supertype} {types : List Supertype} {members : List Member}
variable {one : String → Supertype → Node → Prop}

/-! ## Types -/

/-- The node covers a text that stands after another one. -/
structure Spells (front text : String) (node : Node) : Prop where
  startByte : node.startByte = front.utf8ByteSize
  endByte : node.endByte = (front ++ text).utf8ByteSize

/-- The nodes are those of types with commas between them. -/
inductive Row (one : String → Supertype → Node → Prop) : String → List Supertype → List Node → Prop
    where
  | nil {front : String} : Row one front [] []
  | cons {front : String} {type : Supertype} {types : List Supertype} {node : Node}
      {nodes : List Node} : one front type node →
      Row one (front ++ (type.print ++ ", ")) types nodes →
      Row one front (type :: types) (node :: nodes)

/-- The nodes are a name and, if the type has arguments, a clause with a node for each of them. -/
inductive IsParts (front : String) : Supertype → List Node → Prop where
  | plain {name : String} {node : Node} : node.kind = "type_identifier" → node.Spells front name →
      IsParts front (.apply name []) [node]
  | applied {name : String} {first : Supertype} {rest : List Supertype} {node arguments : Node} :
      node.kind = "type_identifier" → node.Spells front name → arguments.kind = "type_arguments" →
      Row (fun front type node => node.Spells front type.print) (front ++ (name ++ "<"))
        (first :: rest) (arguments.namedChildren.filter (!·.isExtra)) →
      IsParts front (.apply name (first :: rest)) [node, arguments]

structure IsType (front : String) (type : Supertype) (node : Node) : Prop where
  kind : node.kind = "user_type"
  spells : node.Spells front type.print
  parts : IsParts front type (node.children.filter (!·.isExtra))

def IsEntry (front : String) (type : Supertype) (node : Node) : Prop :=
  ∃ inner, node.child? "inherits_from" = some inner ∧ IsType front type inner

/-! ## Declarations -/

def declarationKind : DeclarationKind → String
  | .protocol => "protocol_declaration"
  | _ => "class_declaration"

structure IsHead (front : String) (kind : DeclarationKind) (name : String)
    (supertypes : List Supertype) (node : Node) : Prop where
  declares : node.kind = declarationKind kind
  start : node.start = Position.start.after front
  keyword : kind ≠ .protocol →
    ∃ keyword, node.child? "declaration_kind" = some keyword ∧ keyword.kind = kind.keyword
  named : ∃ child, node.child? "name" = some child ∧
    child.Spells (front ++ (kind.keyword ++ " ")) name
  entries : Row IsEntry (front ++ (kind.keyword ++ " " ++ name ++ ": ")) supertypes
    (node.children.filter isSpecifier)

/-- The nodes, with all that is in them, have no fault, and their declarations are those that were
printed after `front`. -/
inductive Prints : String → List Member → List Node → Prop where
  | nil {front : String} : Prints front [] []
  | plain {front : String} {members others : List Member} {node : Node} {rest : List Node} :
      node.isDeclaration = false → node.isFault = false → Prints front members node.children →
      Prints (front ++ Member.printAll members) others rest →
      Prints front (members ++ others) (node :: rest)
  | declare {front : String} {above : List Filler} {kind : DeclarationKind} {name : String}
      {supertypes : List Supertype} {members : List Member} {below : List Filler}
      {others : List Member} {node : Node} {rest : List Node} :
      IsHead (front ++ printFillers above) kind name supertypes node → node.isFault = false →
      Prints (front ++ (printFillers above ++ printHead kind name supertypes)) members
        node.children →
      Prints (front ++ Member.print (.declare above kind name supertypes members below)) others
        rest →
      Prints front (.declare above kind name supertypes members below :: others) (node :: rest)

theorem Prints.append {others : List Member} {rest : List Node}
    (prints : Prints front members nodes) (later : Prints (front ++ Member.printAll members) others rest) :
    Prints front (members ++ others) (nodes ++ rest) := by
  induction prints with
  | nil => rwa [Member.printAll, String.append_empty] at later
  | plain undeclared sound within _ _ ih =>
      rw [Member.printAll_append, ← String.append_assoc] at later
      rw [List.append_assoc]
      exact .plain undeclared sound within (ih later)
  | declare head sound within _ _ ih =>
      rw [Member.printAll, ← String.append_assoc] at later
      exact .declare head sound within (ih later)

theorem Prints.single (undeclared : node.isDeclaration = false) (sound : node.isFault = false)
    (within : Prints front members node.children) : Prints front members [node] := by
  have all := Prints.plain undeclared sound within
    (.nil : Prints (front ++ Member.printAll members) [] [])
  rwa [List.append_nil] at all

theorem Prints.after {rest : List Node} (plain : ∀ node ∈ nodes, Prints front [] [node])
    (later : Prints front members rest) : Prints front members (nodes ++ rest) := by
  induction nodes with
  | nil => exact later
  | cons node nodes ih =>
      have here := plain node (.head _)
      have others := ih fun other listed => plain other (.tail _ listed)
      refine here.append ?_
      rwa [Member.printAll, String.append_empty]

/-! ## Reading types -/

theorem Spells.text? (spells : node.Spells front text) (whole : content = front ++ (text ++ back)) :
    node.text? content = some text := by
  rw [Node.text?, spells.startByte, spells.endByte, whole]
  exact slice?_append _ _ _

theorem Row.forall₂ (row : Row one front types nodes)
    (whole : content = front ++ (String.intercalate ", " (Supertype.printAll types) ++ back)) :
    List.Forall₂ (fun node type =>
      ∃ front back, one front type node ∧ content = front ++ (type.print ++ back)) nodes types := by
  induction row with
  | nil => exact .nil
  | @cons front type types node nodes here rest ih =>
      cases types with
      | nil =>
          cases rest
          rw [Supertype.printAll, Supertype.printAll, String.intercalate_singleton] at whole
          exact .cons ⟨front, back, here, whole⟩ .nil
      | cons second types =>
          rw [Supertype.printAll, Supertype.printAll, String.intercalate_cons_cons,
            String.append_assoc, String.append_assoc] at whole
          refine .cons ⟨front, _, here, whole⟩ (ih ?_)
          rw [whole, Supertype.printAll]
          simp only [String.append_assoc]

theorem IsParts.mapM_partOf? (parts : IsParts front supertype nodes)
    (whole : content = front ++ (supertype.print ++ back)) :
    nodes.mapM (partOf? content) = some supertype.entry.parts := by
  cases parts with
  | @plain name node kind spells =>
      have text := spells.text? whole
      simp [partOf?, kind, text, Supertype.entry, Entry.named]
  | @applied name first rest node arguments kind spells kind' row =>
      rw [Supertype.print, specializedName, ← Supertype.printAll] at whole
      simp only [String.append_assoc] at whole
      have text := spells.text? whole
      have texts : (arguments.namedChildren.filter (!·.isExtra)).mapM (Node.text? content) =
          some (Supertype.printAll (first :: rest)) := by
        rw [Supertype.printAll_eq_map, mapM_eq_some_iff, List.forall₂_map_right_iff]
        have row_whole : content = (front ++ (name ++ "<")) ++
            (String.intercalate ", " (Supertype.printAll (first :: rest)) ++ (">" ++ back)) := by
          rw [whole]
          simp only [String.append_assoc]
        refine (row.forall₂ row_whole).imp ?_
        rintro node type ⟨front, back, spells, whole⟩
        exact spells.text? whole
      simp [partOf?, kind, kind', text, texts, Supertype.entry, Entry.generic]

theorem IsType.entryOf? (isType : IsType front supertype type)
    (whole : content = front ++ (supertype.print ++ back)) :
    type.entryOf? content = some supertype.entry := by
  rw [Node.entryOf?, isType.spells.text? whole, isType.parts.mapM_partOf? whole, isType.kind]
  rw [← Supertype.text_entry]
  rfl

theorem entries_of_row (row : Row IsEntry front types nodes)
    (whole : content = front ++ (String.intercalate ", " (Supertype.printAll types) ++ back)) :
    (nodes.filterMap inheritedType?).mapM (Node.entryOf? content) =
      some (types.map Supertype.entry) := by
  have read := row.forall₂ whole
  clear whole row
  rw [mapM_eq_some_iff, List.forall₂_map_right_iff]
  induction read with
  | nil => exact .nil
  | @cons node type nodes types here _ ih =>
      obtain ⟨front, back, ⟨inner, marked, isType⟩, whole⟩ := here
      have inherited : node.inheritedType? = some inner := by
        rw [inheritedType?, marked, Option.some_or]
      rw [List.filterMap_cons_some inherited]
      exact .cons (isType.entryOf? whole) ih

/-! ## Reading declarations -/

variable {kind : DeclarationKind} {name : String} {isInner : Bool}

theorem IsHead.isDeclaration (head : IsHead front kind name types node) :
    node.isDeclaration = true := by
  rw [isDeclaration_iff, head.declares]
  cases kind <;> simp [declarationKind]

theorem IsHead.declaredKind (head : IsHead front kind name types node) :
    node.declaredKind = kind := by
  rw [Node.declaredKind, head.declares]
  by_cases same : kind = .protocol
  · rw [same]
    rfl
  · obtain ⟨keyword, found, word⟩ := head.keyword same
    have type : declarationKind kind ≠ "protocol_declaration" := by
      cases kind <;> first | exact absurd rfl same | decide
    have given : DeclarationKind.ofKeyword? kind.keyword = some kind := by cases kind <;> rfl
    simp [if_neg type, found, word, given]

theorem IsHead.mapM_entryOf? (head : IsHead front kind name types node)
    (whole : content = front ++ (printHead kind name types ++ back)) :
    node.inheritedTypes.mapM (entryOf? content) = some (types.map Supertype.entry) := by
  have row := head.entries
  rw [inheritedTypes]
  cases types with
  | nil =>
      generalize node.children.filter isSpecifier = specifiers at row
      cases row
      rfl
  | cons first rest =>
      have clause : inheritanceClause (first :: rest) =
          ": " ++ String.intercalate ", " (Supertype.printAll (first :: rest)) := rfl
      have parted : content = (front ++ (kind.keyword ++ " " ++ name ++ ": ")) ++
          (String.intercalate ", " (Supertype.printAll (first :: rest)) ++
            (" \x7b\n" ++ back)) := by
        rw [whole, printHead, clause]
        simp only [String.append_assoc]
      exact entries_of_row row parted

theorem IsHead.declared? (head : IsHead front kind name types node)
    (whole : content = front ++ (printHead kind name types ++ back)) :
    node.declared? content =
      some [⟨name, kind, 1 + newlines front, types.map Supertype.entry⟩] := by
  obtain ⟨child, marked, spells⟩ := head.named
  have nameNode : node.nameNode? = some child := by
    rw [nameNode?, marked, Option.some_or]
  have text : child.text? content = some name := by
    have parted : content = (front ++ (kind.keyword ++ " ")) ++
        (name ++ (inheritanceClause types ++ (" \x7b\n" ++ back))) := by
      rw [whole, printHead]
      simp only [String.append_assoc]
    exact spells.text? parted
  have entries := head.mapM_entryOf? whole
  have line : node.start.line + 1 = 1 + newlines front := by
    have zero : Position.start.line = 0 := rfl
    rw [head.start, Position.line_after]
    omega
  rw [Node.declared?, if_pos head.isDeclaration, nameNode]
  simp [declarationOf?, text, entries, head.declaredKind, line]

theorem declarationsIn?_cons {inner own later : List Declaration} {rest : List Node}
    (within : declarationsIn? content node.children = some inner)
    (declared : node.declared? content = some own)
    (others : declarationsIn? content rest = some later) :
    declarationsIn? content (node :: rest) = some (inner ++ own ++ later) := by
  obtain ⟨label, children⟩ := node
  rw [declarationsIn?, declarations?, within, declared, others]
  rfl

/-- What was printed is read back, inner declarations first. -/
theorem Prints.declarationsIn? (prints : Prints front members nodes)
    (printable : Member.arePrintable isInner members = true)
    (whole : content = front ++ (Member.printAll members ++ back)) :
    Node.declarationsIn? content nodes =
      some (Member.expectedAll (1 + newlines front) members) := by
  induction prints generalizing isInner back with
  | nil => rfl
  | @plain front members others node rest plain _ _ _ within later =>
      obtain ⟨inside, after⟩ := Member.arePrintable_append.mp printable
      rw [Member.printAll_append, String.append_assoc] at whole
      have inner := within inside whole
      have outer := later after (by rw [whole, String.append_assoc])
      have own : node.declared? content = some [] := by
        rw [declared?, plain]
        rfl
      rw [declarationsIn?_cons inner own outer, Member.expectedAll_append, List.append_nil,
        newlines_append, Member.newlines_printAll inside, Nat.add_assoc]
  | @declare front above kind name types members below others node rest head _ _ _ within later =>
      rw [Member.arePrintable, Bool.and_eq_true] at printable
      obtain ⟨single, after⟩ := printable
      have height := Member.newlines_print single
      obtain ⟨-, typeName, printable, inside, fillers, -⟩ :=
        Member.isPrintable_declare_iff.mp single
      have parted := whole.trans (congrArg (front ++ ·)
        (Member.printAll_declare above below kind name types members others back))
      have own := head.declared? (parted.trans String.append_assoc.symm)
      have inner := within inside (parted.trans (by rw [String.append_assoc, String.append_assoc]))
      have outer := later after (whole.trans (by
        rw [Member.printAll, String.append_assoc, String.append_assoc]))
      have lines := newlines_printFillers fillers
      rw [declarationsIn?_cons inner own outer, Member.expectedAll, Member.expected]
      simp only [newlines_append, lines, newlines_printHead typeName printable, height,
        Nat.add_assoc]

theorem Prints.not_isFault (prints : Prints front members nodes) :
    ∀ node ∈ nodes, ∀ place inner, node.at? place = some inner → inner.isFault = false := by
  have single {node : Node} (sound : node.isFault = false)
      (within : ∀ child ∈ node.children, ∀ place inner, child.at? place = some inner →
        inner.isFault = false) :
      ∀ place inner, node.at? place = some inner → inner.isFault = false := by
    rintro (_ | ⟨index, place⟩) inner found
    · cases found
      exact sound
    · obtain ⟨child, here, found⟩ := at?_cons_eq_some_iff.mp found
      exact within child (List.mem_of_getElem? here) place inner found
  induction prints with
  | nil => exact List.forall_mem_nil _
  | plain _ sound _ _ within later => exact List.forall_mem_cons.mpr ⟨single sound within, later⟩
  | declare _ sound _ _ within later => exact List.forall_mem_cons.mpr ⟨single sound within, later⟩

theorem outline?_of_faultless {root : Node} {declarations : List Declaration}
    (faultless : ∀ place node, root.at? place = some node → node.isFault = false)
    (declared : root.declarations? content = some declarations) :
    root.outline? content = some (.ok declarations) := by
  have flagged : root.Flagged := by
    intro place below node fault found found_fault harmful
    have inner : root.at? (place ++ below) = some fault := by
      rw [at?_append, found]
      exact found_fault
    rw [faultless _ fault inner] at harmful
    cases harmful
  refine (outline?_eq_ok_iff flagged declared).mpr ?_
  rintro ⟨place, ⟨node, found, harmful⟩, -⟩
  rw [faultless place node found] at harmful
  cases harmful

theorem Prints.outline? {root : Node} {below : List Filler} (prints : Prints "" members [root])
    (printable : Member.arePrintable isInner members = true) :
    root.outline? (printFile members below) = some (.ok (Member.expectedAll 1 members)) := by
  have whole : printFile members below = "" ++ (Member.printAll members ++ printFillers below) :=
    String.empty_append.symm
  have read := prints.declarationsIn? printable whole
  refine outline?_of_faultless (prints.not_isFault root (.head _)) ?_
  rw [Node.declarationsIn?] at read
  cases declared : root.declarations? (printFile members below) with
  | none =>
      rw [declared] at read
      cases read
  | some declarations =>
      rw [declared] at read
      simpa [Node.declarationsIn?] using read

end Lineage.Source.Node
