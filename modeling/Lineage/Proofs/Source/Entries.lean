import Lineage.Proofs.Source.Parser
import Lineage.Proofs.Source.Printed
import Lineage.Proofs.Source.Types

/-!
# Nodes of printed types

A tree that stands after a text becomes a node that covers the text of the tree.  The node of a
printed type is one of that type, with a node for each of its arguments.
-/

namespace Lineage.Source

open Printer
open Node (Spells Row IsType IsEntry Prints)

/-! ## Nodes after a text -/

namespace Tree

variable {tree : Tree} {trees parts : List Tree} {front base : String}

theorem spells_nodeFrom (base : String) (tree : Tree) :
    (nodeFrom (.behind base) tree).Spells (base ++ tree.lead) tree.text := by
  have starts : (nodeFrom (.behind base) tree).startByte =
      (Mark.behind (base ++ tree.lead)).byte := by
    rw [Mark.behind_append]
    cases tree <;> rfl
  have ends : (nodeFrom (.behind base) tree).endByte =
      (Mark.behind (base ++ tree.lead ++ tree.text)).byte := by
    rw [Mark.behind_append, Mark.behind_append]
    cases tree <;> rfl
  exact ⟨starts.trans (Mark.byte_behind _), ends.trans (Mark.byte_behind _)⟩

theorem start_nodeFrom (base : String) (tree : Tree) :
    (nodeFrom (.behind base) tree).start = Position.start.after (base ++ tree.lead) := by
  have starts : (nodeFrom (.behind base) tree).start =
      (Mark.behind (base ++ tree.lead)).position := by
    rw [Mark.behind_append]
    cases tree <;> rfl
  exact starts

theorem children_nodeFrom {field : Option Field} {kind : NodeKind}
    (other : kind ≠ .inheritanceSpecifier) (mark : Mark) (trees : List Tree) :
    (nodeFrom mark (.node field kind trees)).children = nodesFrom mark trees := by
  have same : ∀ parts, markType kind parts = parts := fun parts => by
    fun_cases markType kind parts
    · exact absurd rfl other
    · rfl
  exact same _

theorem nodesFrom_behind_cons (base : String) (tree : Tree) (rest : List Tree) :
    nodesFrom (.behind base) (tree :: rest) =
      nodeFrom (.behind base) tree :: nodesFrom (.behind (base ++ tree.source)) rest := by
  rw [nodesFrom, Mark.behind_append]

theorem nodesFrom_behind_append (base : String) (front back : List Tree) :
    nodesFrom (.behind base) (front ++ back) =
      nodesFrom (.behind base) front ++ nodesFrom (.behind (base ++ sources front)) back := by
  rw [nodesFrom_append, Mark.behind_append]

/-! ## Plain trees -/

/-- No part of the tree is a declaration or a fault. -/
inductive IsPlain : Tree → Prop where
  | leaf {field : Option Field} {kind : LeafKind} {lead text : String} :
      IsPlain (leaf field kind lead text)
  | node {field : Option Field} {kind : NodeKind} {children : List Tree}
      (undeclared : kind.isDeclaration = false)
      (plain : ∀ name, kind = .phrase name → name ∉ ownKinds) (sound : kind ≠ .error)
      (children_plain : ∀ child ∈ children, IsPlain child) : IsPlain (node field kind children)

theorem isDeclaration_leaf (mark : Mark) (field : Option Field) (kind : LeafKind)
    (lead text : String) : (nodeFrom mark (.leaf field kind lead text)).isDeclaration = false := by
  refine Bool.eq_false_iff.mpr fun declares => ?_
  rw [Node.isDeclaration_iff, kind_nodeFrom] at declares
  cases kind with
  | token =>
      refine tokenKind_notMem_ownKinds text ?_
      have same : tokenKind text = "class_declaration" ∨ tokenKind text = "protocol_declaration" :=
        declares
      rcases same with same | same <;> simp [same, ownKinds]
  | name | comment | separator => simp [kindName] at declares

theorem isDeclaration_node {field : Option Field} {kind : NodeKind} (mark : Mark)
    (undeclared : kind.isDeclaration = false)
    (plain : ∀ name, kind = .phrase name → name ∉ ownKinds) :
    (nodeFrom mark (.node field kind trees)).isDeclaration = false := by
  refine Bool.eq_false_iff.mpr fun declares => ?_
  rw [isDeclaration_of_kindName plain declares] at undeclared
  cases undeclared

theorem isFault_node {field : Option Field} {kind : NodeKind} (mark : Mark)
    (sound : kind ≠ .error) : (nodeFrom mark (.node field kind trees)).isFault = false := by
  cases kind <;> first | rfl | exact absurd rfl sound

/-- What a node is to its parent does not matter for what is printed. -/
theorem prints_markType {members : List Member} {kind : NodeKind} {parts : List Node}
    (prints : Prints front members parts) : Prints front members (markType kind parts) := by
  fun_cases markType kind parts with
  | case1 first rest =>
      cases prints with
      | plain undeclared sound within later => exact .plain undeclared sound within later
      | declare head sound within later =>
          exact .declare ⟨head.declares, head.start, head.keyword, head.named, head.entries⟩ sound
            within later
  | case2 => exact prints

theorem prints_plain {nodes : List Node} (plain : ∀ node ∈ nodes, Prints front [] [node]) :
    Prints front [] nodes := by
  have all := Prints.after plain (.nil : Prints front [] [])
  rwa [List.append_nil] at all

theorem IsPlain.prints (plain : tree.IsPlain) (mark : Mark) (front : String) :
    Prints front [] [nodeFrom mark tree] := by
  induction plain generalizing mark front with
  | leaf => exact .single (isDeclaration_leaf ..) rfl .nil
  | node undeclared plain sound _ ih =>
      refine .single (isDeclaration_node mark undeclared plain) (isFault_node mark sound) ?_
      refine prints_markType (prints_plain fun node listed => ?_)
      obtain ⟨tree, among, mark', rfl⟩ := exists_of_mem_nodesFrom listed
      exact ih tree among mark' front

theorem prints_nodesFrom (plain : ∀ tree ∈ trees, tree.IsPlain) (mark : Mark) (front : String) :
    ∀ node ∈ nodesFrom mark trees, Prints front [] [node] := by
  intro node listed
  obtain ⟨tree, among, mark', rfl⟩ := exists_of_mem_nodesFrom listed
  exact (plain tree among).prints mark' front

theorem prints_before {members : List Member} {nodes : List Node}
    (prints : Prints front members nodes) (plain : ∀ tree ∈ trees, tree.IsPlain) (mark : Mark) :
    Prints front members (nodes ++ nodesFrom mark trees) := by
  have all := prints.append (prints_plain (prints_nodesFrom plain mark _))
  rwa [List.append_nil] at all

end Tree

/-! ## Texts of types -/

@[simp] theorem Gap.lead_empty : Gap.empty.lead = "" := rfl

@[simp] theorem Gap.lead_space : Gap.space.lead = " " := rfl

namespace Printer.Supertype

open Source.Tree (IsPlain nodeFrom nodesFrom nodesFrom_behind_cons nodesFrom_behind_append)

variable {gap : Gap} {kind : NodeKind} {type : Supertype} {types : List Supertype}

theorem source_tree_eq (text_eq : (tree gap type).text = type.print) :
    (tree gap type).source = gap.lead ++ type.print := by
  rw [← Tree.lead_append_text, text_eq]
  obtain ⟨name, _ | ⟨first, types⟩⟩ := type <;> rfl

theorem append_sources_laterTrees
    (text_eq : ∀ type ∈ types, ∀ gap, (tree gap type).text = type.print) (first : String) :
    first ++ Tree.sources (laterTrees kind types) =
      String.intercalate ", " (first :: printAll types) := by
  induction types generalizing first with
  | nil =>
      rw [laterTrees, Tree.sources, String.append_empty, printAll, String.intercalate_singleton]
  | cons next types ih =>
      have entry : (Tree.node none kind [tree .space next]).source = " " ++ next.print := by
        rw [Tree.source, Tree.sources, source_tree_eq (text_eq next (by simp) .space)]
        exact String.append_empty
      rw [printAll, String.intercalate_cons_cons,
        ← ih (fun type listed => text_eq type (by simp [listed])) next.print, laterTrees,
        Tree.sources, Tree.sources, entry]
      have separator : (Tree.leaf none .token Gap.empty.lead ",").source ++ " " = ", " := rfl
      simp only [← separator, String.append_assoc]

theorem text_tree (gap : Gap) (type : Supertype) : (tree gap type).text = type.print := by
  induction type using Supertype.induction generalizing gap with
  | apply name arguments ih =>
      cases arguments with
      | nil => exact String.append_empty
      | cons first types =>
          have argument : (tree .empty first).source = first.print := by
            rw [source_tree_eq (ih first (by simp) .empty), Gap.lead_empty, String.empty_append]
          have row := @append_sources_laterTrees (.phrase "type") types
            (fun type listed => ih type (by simp [listed])) first.print
          rw [print, specializedName, ← row]
          simp only [tree, Tree.text, Tree.texts, Tree.sources, Tree.source, Tree.sources_append,
            argument, Gap.lead_empty, String.append_empty, String.empty_append, String.append_assoc]

theorem source_tree (gap : Gap) (type : Supertype) :
    (tree gap type).source = gap.lead ++ type.print :=
  source_tree_eq (text_tree gap type)

theorem lead_tree (gap : Gap) (type : Supertype) : (tree gap type).lead = gap.lead := by
  obtain ⟨name, _ | ⟨first, types⟩⟩ := type <;> rfl

theorem sources_clauseTrees (types : List Supertype) :
    Tree.sources (clauseTrees types) = inheritanceClause types := by
  cases types with
  | nil => rfl
  | cons first types =>
      have row := @append_sources_laterTrees .inheritanceSpecifier types
        (fun type _ gap => text_tree gap type) first.print
      have opening : (Tree.leaf none .token Gap.empty.lead ":").source ++ " " = ": " := rfl
      have clause : inheritanceClause (first :: types) =
          ": " ++ String.intercalate ", " (first.print :: printAll types) := rfl
      rw [clause, ← row, ← opening]
      simp only [clauseTrees, Tree.sources, Tree.source, source_tree, Gap.lead_space,
        String.append_empty, String.append_assoc]

/-! ## Plain types -/

theorem isPlain_laterTrees (undeclared : kind.isDeclaration = false)
    (unowned : ∀ name, kind = .phrase name → name ∉ ownKinds) (sound : kind ≠ .error)
    (plain : ∀ type ∈ types, ∀ gap, (tree gap type).IsPlain) :
    ∀ part ∈ laterTrees kind types, part.IsPlain := by
  induction types with
  | nil => nofun
  | cons next types ih =>
      have wrapped : (Tree.node none kind [tree .space next]).IsPlain :=
        .node undeclared unowned sound (List.forall_mem_singleton.mpr (plain next (.head _) .space))
      have later := ih fun type listed => plain type (.tail _ listed)
      exact List.forall_mem_cons.mpr ⟨.leaf, List.forall_mem_cons.mpr ⟨wrapped, later⟩⟩

theorem type_notMem_ownKinds (name : String) (same : NodeKind.phrase "type" = .phrase name) :
    name ∉ ownKinds := by
  cases same
  decide

theorem isPlain_tree (gap : Gap) (type : Supertype) : (tree gap type).IsPlain := by
  induction type using Supertype.induction generalizing gap with
  | apply name arguments ih =>
      cases arguments with
      | nil => exact .node rfl nofun nofun (List.forall_mem_singleton.mpr .leaf)
      | cons first types =>
          have wrapped : (Tree.node none (.phrase "type") [tree .empty first]).IsPlain :=
            .node rfl type_notMem_ownKinds nofun
              (List.forall_mem_singleton.mpr (ih first (.head _) .empty))
          have later : ∀ part ∈ laterTrees (.phrase "type") types, part.IsPlain :=
            isPlain_laterTrees rfl type_notMem_ownKinds nofun fun type listed =>
              ih type (.tail _ listed)
          have clause : (Tree.node none .typeArguments (.leaf none .token Gap.empty.lead "<" ::
              (.node none (.phrase "type") [tree .empty first] ::
                laterTrees (.phrase "type") types ++
                  [.leaf none .token Gap.empty.lead ">"]))).IsPlain := by
            refine .node rfl nofun nofun ?_
            simp only [List.mem_cons, List.mem_append, List.not_mem_nil, or_false]
            rintro part (rfl | (rfl | listed) | rfl)
            · exact .leaf
            · exact wrapped
            · exact later part listed
            · exact .leaf
          refine .node rfl nofun nofun (List.forall_mem_cons.mpr ⟨.leaf, ?_⟩)
          exact List.forall_mem_singleton.mpr clause

theorem isPlain_clauseTrees (types : List Supertype) :
    ∀ part ∈ clauseTrees types, part.IsPlain := by
  cases types with
  | nil => nofun
  | cons first types =>
      have entry : (Tree.node none .inheritanceSpecifier [tree .space first]).IsPlain :=
        .node rfl nofun nofun (List.forall_mem_singleton.mpr (isPlain_tree .space first))
      have later : ∀ part ∈ laterTrees .inheritanceSpecifier types, part.IsPlain :=
        isPlain_laterTrees rfl nofun nofun fun type _ gap => isPlain_tree gap type
      exact List.forall_mem_cons.mpr ⟨.leaf, List.forall_mem_cons.mpr ⟨entry, later⟩⟩

/-! ## Rows of types -/

variable {one : String → Supertype → Node → Prop} {keep : Node → Bool}

theorem text_element (gap : Gap) (kind : NodeKind) (type : Supertype) :
    (Tree.node none kind [tree gap type]).text = type.print := by
  rw [Tree.text, Tree.texts, text_tree]
  exact String.append_empty

theorem source_element (gap : Gap) (kind : NodeKind) (type : Supertype) :
    (Tree.node none kind [tree gap type]).source = gap.lead ++ type.print := by
  rw [Tree.source, Tree.sources, source_tree]
  exact String.append_empty

theorem row_trees
    (drops : ∀ mark, keep (nodeFrom mark (.leaf none .token Gap.empty.lead ",")) = false)
    (keeps : ∀ mark gap type, keep (nodeFrom mark (.node none kind [tree gap type])) = true)
    (each : ∀ base gap type,
      one (base ++ gap.lead) type (nodeFrom (.behind base) (.node none kind [tree gap type])))
    (base : String) (gap : Gap) (first : Supertype) (types : List Supertype) :
    Row one (base ++ gap.lead) (first :: types)
      ((nodesFrom (.behind base)
        (.node none kind [tree gap first] :: laterTrees kind types)).filter keep) := by
  induction types generalizing base gap first with
  | nil =>
      rw [laterTrees, nodesFrom_behind_cons, List.filter_cons_of_pos (keeps _ _ _)]
      exact .cons (each base gap first) .nil
  | cons next types ih =>
      let comma := Tree.leaf none .token Gap.empty.lead ","
      have reached : base ++ (gap.lead ++ first.print) ++ comma.source ++ Gap.space.lead =
          base ++ gap.lead ++ (first.print ++ ", ") := by
        have separator : comma.source ++ Gap.space.lead = ", " := rfl
        rw [← separator]
        simp only [String.append_assoc]
      have later := ih (base ++ (gap.lead ++ first.print) ++ comma.source) .space next
      rw [nodesFrom_behind_cons, laterTrees, nodesFrom_behind_cons,
        List.filter_cons_of_pos (keeps _ _ _),
        List.filter_cons_of_neg (Bool.eq_false_iff.mp (drops _)), source_element]
      refine .cons (each base gap first) ?_
      rwa [reached] at later

/-! ## Nodes of types -/

theorem spells_element (base : String) (gap : Gap) (type : Supertype) :
    (nodeFrom (.behind base) (.node none (.phrase "type") [tree gap type])).Spells
      (base ++ gap.lead) type.print := by
  have spells := Tree.spells_nodeFrom base (.node none (.phrase "type") [tree gap type])
  rwa [text_element, Tree.lead, lead_tree] at spells

theorem row_arguments (base : String) (first : Supertype) (types : List Supertype) :
    Row (fun front type node => node.Spells front type.print) (base ++ "<") (first :: types)
      ((nodeFrom (.behind base) (.node none .typeArguments
        (.leaf none .token Gap.empty.lead "<" ::
          (.node none (.phrase "type") [tree .empty first] ::
            laterTrees (.phrase "type") types ++
              [.leaf none .token Gap.empty.lead ">"])))).namedChildren.filter (!·.isExtra)) := by
  let keep (node : Node) : Bool := !node.isExtra && node.isNamed
  have closed (mark : Mark) :
      (nodesFrom mark [.leaf none .token Gap.empty.lead ">"]).filter keep = [] := rfl
  have row := @row_trees (.phrase "type") (fun front type node => node.Spells front type.print)
    keep (fun _ => rfl) (fun _ _ _ => rfl) spells_element (base ++ "<") .empty first types
  rw [Gap.lead_empty, String.append_empty] at row
  rw [Node.namedChildren, Tree.children_nodeFrom (by decide), List.filter_filter,
    nodesFrom_behind_cons, nodesFrom_behind_append,
    List.filter_cons_of_neg (Bool.eq_false_iff.mp rfl), List.filter_append, closed, List.append_nil]
  exact row

theorem isType_tree (base : String) (gap : Gap) (type : Supertype) :
    IsType (base ++ gap.lead) type (nodeFrom (.behind base) (tree gap type)) := by
  have spells := Tree.spells_nodeFrom base (tree gap type)
  rw [text_tree, lead_tree] at spells
  obtain ⟨name, _ | ⟨first, types⟩⟩ := type
  · exact ⟨rfl, spells, .plain rfl (Tree.spells_nodeFrom base (.leaf none .name gap.lead name))⟩
  · refine ⟨rfl, spells, .applied rfl
      (Tree.spells_nodeFrom base (.leaf none .name gap.lead name)) rfl ?_⟩
    have row := row_arguments (base ++ (Tree.leaf none .name gap.lead name).source) first types
    have reached : base ++ (Tree.leaf none .name gap.lead name).source ++ "<" =
        base ++ gap.lead ++ (name ++ "<") := by
      simp only [Tree.source, String.append_assoc]
    rwa [reached, Mark.behind_append] at row

theorem isEntry_element (base : String) (gap : Gap) (type : Supertype) :
    IsEntry (base ++ gap.lead) type
      (nodeFrom (.behind base) (.node none .inheritanceSpecifier [tree gap type])) := by
  have isType := isType_tree base gap type
  refine ⟨_, rfl, ?_⟩
  exact ⟨isType.kind, ⟨isType.spells.startByte, isType.spells.endByte⟩, isType.parts⟩

theorem row_clauseTrees (base : String) (types : List Supertype) :
    Row IsEntry (base ++ ": ") types
      ((nodesFrom (.behind base) (clauseTrees types)).filter Node.isSpecifier) := by
  cases types with
  | nil => exact .nil
  | cons first types =>
      have opening : base ++ (Tree.leaf none .token Gap.empty.lead ":").source ++ Gap.space.lead =
          base ++ ": " := String.append_assoc
      have row := @row_trees .inheritanceSpecifier IsEntry Node.isSpecifier (fun _ => rfl)
        (fun _ _ _ => rfl) isEntry_element
        (base ++ (Tree.leaf none .token Gap.empty.lead ":").source) .space first types
      rw [clauseTrees, nodesFrom_behind_cons, List.filter_cons_of_neg (Bool.eq_false_iff.mp rfl)]
      rwa [opening] at row

end Printer.Supertype
end Lineage.Source
