import Lineage.Proofs.Source.Texts
import Mathlib.Data.List.Basic

/-!
# Walks and outlines

The nodes of a tree in the two orders in which it is walked, outer nodes first or inner nodes first,
are a list without gaps.  The declarations of the tree are those of its nodes, inner ones first.  A
walk that goes down only where an error is claimed misses no fault, and the way up from a fault
meets a declaration if and only if the fault is inside one.
-/

namespace Lineage.Source

/-! ## Orders of places -/

/-- The order in which inner nodes come first. -/
inductive Place.Precedes : Place → Place → Prop where
  | inner {index : Nat} {place : Place} : Precedes (index :: place) []
  | left {index later : Nat} {place other : Place} :
      index < later → Precedes (index :: place) (later :: other)
  | within {index : Nat} {place other : Place} :
      Precedes place other → Precedes (index :: place) (index :: other)

namespace Node

variable {node child root : Node} {children : List Node} {label : Label} {place below : Place}
variable {content : String} {declarations : List Declaration}

theorem induction {motive : Node → Prop}
    (node : ∀ label children, (∀ child ∈ children, motive child) → motive ⟨label, children⟩)
    (root : Node) : motive root := by
  refine Node.rec (motive_2 := fun nodes => ∀ node ∈ nodes, motive node) node nofun ?_ root
  intro first rest here others node listed
  rcases List.mem_cons.mp listed with rfl | listed
  · exact here
  · exact others node listed

/-! ## Nodes at places -/

theorem at?_of_getElem? {index : Nat} (found : children[index]? = some child) :
    at? ⟨label, children⟩ (index :: place) = child.at? place := by
  rw [at?, found, Option.bind_some]

theorem at?_cons_eq_some_iff {index : Nat} :
    root.at? (index :: place) = some node ↔
      ∃ child, root.children[index]? = some child ∧ child.at? place = some node := by
  rw [at?, Option.bind_eq_some_iff]

theorem at?_append (root : Node) (front back : Place) :
    root.at? (front ++ back) = (root.at? front).bind (at? · back) := by
  induction front generalizing root with
  | nil => rfl
  | cons index front ih =>
      rw [List.cons_append, at?, at?, Option.bind_assoc]
      exact congrArg _ (funext fun child => ih child)

def inChild (index : Nat) (entry : Place × Node) : Place × Node :=
  (index :: entry.1, entry.2)

mutual

def preorder : Node → List (Place × Node)
  | ⟨label, children⟩ => ([], ⟨label, children⟩) :: preorderIn 0 children

def preorderIn (index : Nat) : List Node → List (Place × Node)
  | [] => []
  | node :: rest => (preorder node).map (inChild index) ++ preorderIn (index + 1) rest

end

mutual

def postorder : Node → List (Place × Node)
  | ⟨label, children⟩ => postorderIn 0 children ++ [([], ⟨label, children⟩)]

def postorderIn (index : Nat) : List Node → List (Place × Node)
  | [] => []
  | node :: rest => (postorder node).map (inChild index) ++ postorderIn (index + 1) rest

end

theorem eq_flatMap_of_numbered {α : Type} {single : Nat → Node → List α}
    {row : Nat → List Node → List α} (nil : ∀ index, row index [] = [])
    (cons : ∀ index node rest, row index (node :: rest) = single index node ++ row (index + 1) rest)
    (index : Nat) (nodes : List Node) :
    row index nodes = (nodes.zipIdx index).flatMap fun child => single child.2 child.1 := by
  induction nodes generalizing index with
  | nil => exact nil index
  | cons node rest ih => rw [cons, ih, List.zipIdx_cons, List.flatMap_cons]

theorem preorderIn_eq (index : Nat) (nodes : List Node) :
    preorderIn index nodes =
      (nodes.zipIdx index).flatMap fun child => child.1.preorder.map (inChild child.2) :=
  @eq_flatMap_of_numbered _ (fun index node => node.preorder.map (inChild index)) preorderIn
    (fun _ => rfl) (fun _ _ _ => rfl) index nodes

theorem postorderIn_eq (index : Nat) (nodes : List Node) :
    postorderIn index nodes =
      (nodes.zipIdx index).flatMap fun child => child.1.postorder.map (inChild child.2) :=
  @eq_flatMap_of_numbered _ (fun index node => node.postorder.map (inChild index)) postorderIn
    (fun _ => rfl) (fun _ _ _ => rfl) index nodes

/-! ## Every node once -/

theorem mem_row {nodes : Node → List (Place × Node)}
    (complete : ∀ child ∈ children, ∀ {place}, (place, node) ∈ nodes child ↔
      child.at? place = some node) :
    ((place, node) ∈ children.zipIdx.flatMap fun child => (nodes child.1).map (inChild child.2)) ↔
      ∃ index inner child, place = index :: inner ∧ children[index]? = some child ∧
        child.at? inner = some node := by
  simp only [List.mem_flatMap, List.mem_map, Prod.exists, List.mk_mem_zipIdx_iff_getElem?]
  constructor
  · rintro ⟨child, index, found, inner, here, listed, same⟩
    cases same
    exact ⟨index, inner, child, rfl, found,
      (complete child (List.mem_of_getElem? found)).mp listed⟩
  · rintro ⟨index, inner, child, rfl, found, present⟩
    exact ⟨child, index, found, inner, node,
      (complete child (List.mem_of_getElem? found)).mpr present, rfl⟩

theorem at?_eq_some_iff :
    at? ⟨label, children⟩ place = some node ↔ place = [] ∧ node = ⟨label, children⟩ ∨
      ∃ index inner child, place = index :: inner ∧ children[index]? = some child ∧
        child.at? inner = some node := by
  cases place with
  | nil => simp [at?, eq_comm]
  | cons index place => simp [at?_cons_eq_some_iff]

theorem mem_preorder : (place, node) ∈ root.preorder ↔ root.at? place = some node := by
  induction root using Node.induction generalizing place with
  | node label children ih =>
      rw [preorder, List.mem_cons, preorderIn_eq, mem_row ih, at?_eq_some_iff, Prod.mk.injEq]

theorem mem_postorder : (place, node) ∈ root.postorder ↔ root.at? place = some node := by
  induction root using Node.induction generalizing place with
  | node label children ih =>
      rw [postorder, List.mem_append, List.mem_singleton, postorderIn_eq, mem_row ih,
        at?_eq_some_iff, Prod.mk.injEq, or_comm]

theorem pairwise_zipIdx (nodes : List Node) :
    (nodes.zipIdx 0).Pairwise fun first second => first.2 < second.2 := by
  rw [← List.pairwise_map, List.zipIdx_map_snd]
  exact List.pairwise_lt_range'

theorem pairwise_preorder (root : Node) :
    root.preorder.Pairwise fun first second => first.1 < second.1 := by
  induction root using Node.induction with
  | node label children ih =>
      rw [preorder, List.pairwise_cons, preorderIn_eq, List.pairwise_flatMap]
      refine ⟨fun entry listed => ?_, fun child listed => ?_, ?_⟩
      · obtain ⟨child, -, below⟩ := List.mem_flatMap.mp listed
        obtain ⟨entry, -, rfl⟩ := List.mem_map.mp below
        exact List.nil_lt_cons _ _
      · have member : child.1 ∈ children := List.fst_mem_of_mem_zipIdx listed
        exact (ih child.1 member).map _ fun _ _ less => List.cons_lt_cons_self.mpr less
      · refine (pairwise_zipIdx children).imp fun less entry listed entry' listed' => ?_
        obtain ⟨below, -, rfl⟩ := List.mem_map.mp listed
        obtain ⟨below', -, rfl⟩ := List.mem_map.mp listed'
        exact List.cons_lt_cons_iff.mpr (.inl less)

theorem pairwise_postorder (root : Node) :
    root.postorder.Pairwise fun first second => first.1.Precedes second.1 := by
  induction root using Node.induction with
  | node label children ih =>
      rw [postorder, List.pairwise_append, postorderIn_eq, List.pairwise_flatMap]
      refine ⟨⟨fun child listed => ?_, ?_⟩, List.pairwise_singleton _ _, fun entry listed => ?_⟩
      · have member : child.1 ∈ children := List.fst_mem_of_mem_zipIdx listed
        exact (ih child.1 member).map _ fun _ _ => .within
      · refine (pairwise_zipIdx children).imp fun less entry listed entry' listed' => ?_
        obtain ⟨below, -, rfl⟩ := List.mem_map.mp listed
        obtain ⟨below', -, rfl⟩ := List.mem_map.mp listed'
        exact .left less
      · obtain ⟨child, -, below⟩ := List.mem_flatMap.mp listed
        obtain ⟨entry, -, rfl⟩ := List.mem_map.mp below
        simp only [List.mem_singleton, forall_eq]
        exact .inner

/-! ## Walking down -/

/-- An error is claimed wherever a fault is, at the node itself or below it. -/
def Flagged (root : Node) : Prop :=
  ∀ place below node fault, root.at? place = some node → node.at? below = some fault →
    fault.isFault = true → node.hasError = true

theorem Flagged.inner (flagged : Flagged ⟨label, children⟩) (listed : child ∈ children) :
    child.Flagged := by
  intro place below node fault found
  obtain ⟨index, here⟩ := List.mem_iff_getElem?.mp listed
  exact flagged (index :: place) below node fault ((at?_of_getElem? here).trans found)

/-- The fault of a subtree at `place`, as one of the whole tree. -/
def beyond (place : Place) (entry : Place × Node) : Place × Node :=
  (place ++ entry.1, entry.2)

theorem faultsIn_eq (place : Place) (index : Nat) (nodes : List Node) :
    faultsIn place index nodes =
      (nodes.zipIdx index).flatMap fun child => faults (place ++ [child.2]) child.1 :=
  @eq_flatMap_of_numbered _ (fun index => faults (place ++ [index])) (faultsIn place)
    (fun _ => rfl) (fun _ _ _ => rfl) index nodes

theorem faults_eq (place : Place) (flagged : node.Flagged) :
    node.faults place = (node.preorder.filter (·.2.isFault)).map (beyond place) := by
  induction node using Node.induction generalizing place with
  | node label children ih =>
      have inner : (if label.hasError then faultsIn place 0 children else []) =
          ((preorderIn 0 children).filter (·.2.isFault)).map (beyond place) := by
        cases claimed : label.hasError with
        | true =>
            rw [if_pos rfl, faultsIn_eq, preorderIn_eq, List.filter_flatMap, List.map_flatMap]
            refine List.flatMap_congr fun child listed => ?_
            have member : child.1 ∈ children := List.fst_mem_of_mem_zipIdx listed
            rw [ih child.1 member _ (flagged.inner member), List.filter_map, List.map_map]
            refine List.map_congr_left fun entry _ => ?_
            simp [beyond, inChild]
        | false =>
            -- Nothing is claimed here, so that there is no fault below and none is missed.
            rw [List.filter_eq_nil_iff.mpr]
            · rfl
            · rintro ⟨below, fault⟩ listed harmful
              have present : (below, fault) ∈ preorder ⟨label, children⟩ :=
                List.mem_cons_of_mem _ listed
              have claim := flagged [] below _ fault rfl (mem_preorder.mp present) harmful
              cases claimed.symm.trans claim
      rw [faults, preorder, List.filter_cons, inner]
      cases harmful : isFault ⟨label, children⟩ <;> simp [beyond]

mutual

/-- Whether a node claims an error where it is a fault, and where a child claims one. -/
def isFlagged : Node → Bool
  | ⟨label, children⟩ =>
      (label.hasError || !isFault ⟨label, children⟩ && !children.any (·.hasError)) &&
        areFlagged children

def areFlagged : List Node → Bool
  | [] => true
  | node :: rest => isFlagged node && areFlagged rest

end

theorem areFlagged_eq_all (nodes : List Node) : areFlagged nodes = nodes.all isFlagged := by
  induction nodes with
  | nil => rfl
  | cons node rest ih => rw [areFlagged, ih, List.all_cons]

theorem flagged_of_isFlagged (passes : node.isFlagged = true) : node.Flagged := by
  induction node using Node.induction with
  | node label children ih =>
      rw [isFlagged, Bool.and_eq_true, areFlagged_eq_all, List.all_eq_true] at passes
      obtain ⟨own, inner⟩ := passes
      rintro (_ | ⟨index, place⟩) below node fault found fault_found harmful
      · cases found
        cases claimed : label.hasError with
        | true => rfl
        | false =>
            rw [claimed, Bool.false_or, Bool.and_eq_true, Bool.not_eq_true',
              Bool.not_eq_true'] at own
            rcases below with _ | ⟨index, below⟩
            · cases fault_found
              cases own.1.symm.trans harmful
            · obtain ⟨child, here, found⟩ := at?_cons_eq_some_iff.mp fault_found
              have listed := List.mem_of_getElem? here
              have claim := ih child listed (inner child listed) [] below child fault rfl found
                harmful
              exact absurd claim (List.any_eq_false.mp own.2 child listed)
      · obtain ⟨child, here, found⟩ := at?_cons_eq_some_iff.mp found
        have listed := List.mem_of_getElem? here
        exact ih child listed (inner child listed) place below node fault found fault_found harmful

theorem exists_at?_of_mem_faults (base : Place) {fault : Place × Node}
    (listed : fault ∈ root.faults base) :
    ∃ below, fault.1 = base ++ below ∧ root.at? below = some fault.2 := by
  induction root using Node.induction generalizing base with
  | node label children ih =>
      rw [faults, List.mem_append] at listed
      rcases listed with own | inner
      · split_ifs at own
        · cases List.mem_singleton.mp own
          exact ⟨[], by simp, rfl⟩
        · cases own
      · split_ifs at inner
        · rw [faultsIn_eq] at inner
          obtain ⟨⟨child, index⟩, numbered, listed⟩ := List.mem_flatMap.mp inner
          have here := List.mk_mem_zipIdx_iff_getElem?.mp numbered
          obtain ⟨below, same, found⟩ := ih child (List.mem_of_getElem? here) _ listed
          refine ⟨index :: below, ?_, (at?_of_getElem? here).trans found⟩
          rw [same, List.append_assoc]
          rfl
        · cases inner

/-! ## Walking up -/

def IsBelowDeclaration (root : Node) (place : Place) : Prop :=
  ∃ above, above <+: place ∧ above ≠ place ∧ ∃ node, root.at? above = some node ∧
    node.isDeclaration = true

theorem isBelowDeclaration_iff {way : List Nat} :
    root.isBelowDeclaration way = true ↔ root.IsBelowDeclaration way.reverse := by
  -- The way up has the innermost number first, so that its tail leads to the parent.
  induction way with
  | nil =>
      refine iff_of_false Bool.false_ne_true ?_
      rintro ⟨above, within, differs, -⟩
      exact differs (List.prefix_nil.mp within)
  | cons index parent ih =>
      rw [isBelowDeclaration, Bool.or_eq_true, ih, List.reverse_cons, Option.any_eq_true]
      constructor
      · rintro (declares | ⟨above, within, -, declares⟩)
        · exact ⟨parent.reverse, List.prefix_append _ _, by simp, declares⟩
        · refine ⟨above, within.trans (List.prefix_append _ _), ?_, declares⟩
          rintro rfl
          have shorter := within.length_le
          rw [List.length_append, List.length_singleton] at shorter
          omega
      · rintro ⟨above, within, differs, declares⟩
        rcases List.prefix_concat_iff.mp within with same | within
        · exact absurd same differs
        · by_cases same : above = parent.reverse
          · exact .inl (same ▸ declares)
          · exact .inr ⟨above, within, same, declares⟩

theorem isInside_iff : root.isInside place = true ↔ root.IsBelowDeclaration place := by
  rw [isInside, isBelowDeclaration_iff, List.reverse_reverse]

/-! ## Declarations -/

def gather (content : String) (entries : List (Place × Node)) : Option (List Declaration) :=
  (entries.mapM fun (entry : Place × Node) => entry.2.declared? content).map List.flatten

theorem gather_append (front back : List (Place × Node)) :
    gather content (front ++ back) =
      (gather content front).bind fun first => (gather content back).map (first ++ ·) := by
  rw [gather, gather, gather, List.mapM_append]
  cases front.mapM fun entry => entry.2.declared? content with
  | none => rfl
  | some first => cases back.mapM fun entry => entry.2.declared? content <;> simp

theorem gather_map_inChild (index : Nat) (entries : List (Place × Node)) :
    gather content (entries.map (inChild index)) = gather content entries := by
  rw [gather, List.mapM_map]
  rfl

theorem gather_singleton (place : Place) (node : Node) :
    gather content [(place, node)] = node.declared? content := by
  rw [gather, List.mapM_cons]
  cases node.declared? content <;> simp

theorem declarations?_eq_gather (root : Node) :
    root.declarations? content = gather content root.postorder := by
  -- A row of nodes is gathered in the same way, whatever number it starts with.
  refine Node.rec
    (motive_2 := fun nodes => ∀ index, declarationsIn? content nodes =
      gather content (postorderIn index nodes)) ?_ (fun _ => rfl) ?_ root
  · intro label children row
    rw [declarations?, postorder, gather_append, gather_singleton, row 0]
    cases gather content (postorderIn 0 children) with
    | none => rfl
    | some inner => cases declared? content ⟨label, children⟩ <;> rfl
  · intro node rest here later index
    rw [declarationsIn?, postorderIn, gather_append, gather_map_inChild, here, later (index + 1)]
    cases gather content node.postorder with
    | none => rfl
    | some first => cases gather content (postorderIn (index + 1) rest) <;> rfl

theorem isSome_declarations?_iff :
    (root.declarations? content).isSome ↔ ∀ place node, root.at? place = some node →
      ∀ read ∈ node.readNodes, (read.text? content).isSome := by
  rw [declarations?_eq_gather, gather, Option.isSome_map, isSome_mapM_iff]
  simp only [Prod.forall, mem_postorder, isSome_declared?_iff]

/-- The name that a declaration with these parts gives: the part marked so, or else its first part
that is a name. -/
inductive Named : List Node → Node → Prop where
  | marked {before after : List Node} {name : Node} :
      (∀ other ∈ before, other.field ≠ some "name") → name.field = some "name" →
      Named (before ++ name :: after) name
  | unmarked {before after : List Node} {name : Node} :
      (∀ other ∈ before ++ name :: after, other.field ≠ some "name") →
      (∀ other ∈ before, other.kind ≠ "type_identifier") → name.kind = "type_identifier" →
      Named (before ++ name :: after) name

/-- The node at the place is a declaration with a name, and this is what it declares. -/
def Declares (content : String) (root : Node) (place : Place) (declaration : Declaration) : Prop :=
  ∃ node name, root.at? place = some node ∧
    (node.kind = "class_declaration" ∨ node.kind = "protocol_declaration") ∧
    Named node.children name ∧ node.Makes content name declaration

theorem nameNode?_eq_some_iff {name : Node} :
    node.nameNode? = some name ↔ Named node.children name := by
  rw [nameNode?, child?]
  constructor
  · intro named
    cases marked : node.children.find? (·.field == some "name") with
    | some child =>
        rw [marked, Option.some_or, Option.some.injEq] at named
        subst named
        obtain ⟨here, before, after, same, others⟩ := List.find?_eq_some_iff_append.mp marked
        rw [same]
        exact .marked (by simpa using others) (by simpa using here)
    | none =>
        rw [marked, Option.none_or] at named
        obtain ⟨here, before, after, same, others⟩ := List.find?_eq_some_iff_append.mp named
        have unmarked := List.find?_eq_none.mp marked
        rw [same] at unmarked ⊢
        exact .unmarked (by simpa using unmarked) (by simpa [isName] using others)
          (by simpa [isName] using here)
  · generalize node.children = children
    intro named
    cases named with
    | @marked before after name others here =>
        have marked : (before ++ name :: after).find? (·.field == some "name") = some name :=
          List.find?_eq_some_iff_append.mpr
            ⟨by simpa using here, before, after, rfl, by simpa using others⟩
        rw [marked, Option.some_or]
    | @unmarked before after name none others here =>
        have marked : (before ++ name :: after).find? (·.field == some "name") = Option.none :=
          List.find?_eq_none.mpr (by simpa using none)
        have found : (before ++ name :: after).find? isName = some name :=
          List.find?_eq_some_iff_append.mpr
            ⟨by simpa [isName] using here, before, after, rfl, by simpa [isName] using others⟩
        rw [marked, found, Option.none_or]

theorem isDeclaration_iff :
    node.isDeclaration = true ↔
      node.kind = "class_declaration" ∨ node.kind = "protocol_declaration" := by
  simp [isDeclaration]

def makes (entry : Place × Node) : Bool :=
  entry.2.isDeclaration && entry.2.nameNode?.isSome

theorem makes_iff {entry : Place × Node} :
    makes entry = true ↔ entry.2.isDeclaration = true ∧ ∃ name, entry.2.nameNode? = some name := by
  rw [makes, Bool.and_eq_true, Option.isSome_iff_exists]

theorem declares_of_declared? {own : List Declaration} (found : root.at? place = some node)
    (declared : node.declared? content = some own) :
    List.Forall₂ (root.Declares content) ((([(place, node)] : List _).filter makes).map Prod.fst)
      own := by
  rw [declared?_eq_some_iff] at declared
  cases declares : node.isDeclaration with
  | false =>
      rw [if_neg (by simp [declares])] at declared
      subst declared
      simp [makes, declares]
  | true =>
      rw [if_pos declares] at declared
      cases named : node.nameNode? with
      | none =>
          rw [named] at declared
          cases declared
          simp [makes, named]
      | some name =>
          rw [named] at declared
          obtain ⟨declaration, rest, made, last, rfl⟩ := List.forall₂_cons_left_iff.mp declared
          cases last
          have kept : makes (place, node) = true := makes_iff.mpr ⟨declares, name, named⟩
          rw [List.filter_cons_of_pos kept]
          exact .cons ⟨node, name, found, isDeclaration_iff.mp declares,
            nameNode?_eq_some_iff.mp named, made⟩ .nil

theorem declares_of_gather {entries : List (Place × Node)}
    (within : ∀ entry ∈ entries, root.at? entry.1 = some entry.2)
    (gathered : gather content entries = some declarations) :
    List.Forall₂ (root.Declares content) ((entries.filter makes).map Prod.fst) declarations := by
  induction entries generalizing declarations with
  | nil =>
      cases gathered
      exact .nil
  | cons entry entries ih =>
      obtain ⟨place, node⟩ := entry
      rw [← List.singleton_append, gather_append, gather_singleton] at gathered
      obtain ⟨own, declared, rest⟩ := Option.bind_eq_some_iff.mp gathered
      obtain ⟨later, others, rfl⟩ := Option.map_eq_some_iff.mp rest
      have here := declares_of_declared? (within _ (.head _)) declared
      have below := ih (fun entry listed => within entry (.tail _ listed)) others
      rw [← List.singleton_append, List.filter_append, List.map_append]
      exact List.rel_append here below

theorem exists_places (declared : root.declarations? content = some declarations) :
    ∃ places : List Place, places.Pairwise Place.Precedes ∧
      List.Forall₂ (root.Declares content) places declarations ∧
      ∀ place, place ∈ places ↔ ∃ declaration, root.Declares content place declaration := by
  rw [declarations?_eq_gather] at declared
  have row := declares_of_gather (fun entry listed => mem_postorder.mp listed) declared
  refine ⟨(root.postorder.filter makes).map Prod.fst,
    (root.pairwise_postorder.filter _).map _ fun _ _ => id, row, fun place => ⟨?_, ?_⟩⟩
  · intro listed
    obtain ⟨index, inside, rfl⟩ := List.getElem_of_mem listed
    exact ⟨_, row.get inside (row.length_eq ▸ inside)⟩
  · rintro ⟨declaration, node, name, found, declares, named, -⟩
    refine List.mem_map.mpr ⟨(place, node), List.mem_filter.mpr ⟨mem_postorder.mpr found, ?_⟩, rfl⟩
    exact makes_iff.mpr ⟨isDeclaration_iff.mpr declares, name, nameNode?_eq_some_iff.mpr named⟩

/-! ## Harm -/

/-- The node at the place is a fault that does harm: it is below a declaration, or there is none. -/
def Harms (root : Node) (declarations : List Declaration) (place : Place) : Prop :=
  (∃ node, root.at? place = some node ∧ node.isFault = true) ∧
    (declarations = [] ∨ root.IsBelowDeclaration place)

theorem least_of_find? {entries : List (Place × Node)} {test : Place × Node → Bool}
    (ordered : entries.Pairwise fun first second => first.1 < second.1) {entry : Place × Node}
    (found : entries.find? test = some entry) :
    (entry ∈ entries ∧ test entry = true) ∧
      ∀ other ∈ entries, test other = true → entry.1 = other.1 ∨ entry.1 < other.1 := by
  obtain ⟨passes, front, back, rfl, failed⟩ := List.find?_eq_some_iff_append.mp found
  refine ⟨⟨by simp, passes⟩, fun other listed passes' => ?_⟩
  rcases List.mem_append.mp listed with listed | listed
  · have fails := failed other listed
    rw [passes'] at fails
    cases fails
  · have later := (List.pairwise_append.mp ordered).2.1
    rcases List.mem_cons.mp listed with rfl | listed
    · exact .inl rfl
    · exact .inr (List.rel_of_pairwise_cons later listed)

def isHarmful (root : Node) (declarations : List Declaration) (fault : Place × Node) : Bool :=
  declarations.isEmpty || root.isInside fault.1

def harm? (root : Node) (declarations : List Declaration) : Option (Place × Node) :=
  (root.preorder.filter (·.2.isFault)).find? (root.isHarmful declarations)

theorem harms_iff :
    root.Harms declarations place ↔ ∃ node, (place, node) ∈ root.preorder.filter (·.2.isFault) ∧
      root.isHarmful declarations (place, node) = true := by
  simp only [Harms, isHarmful, List.mem_filter, mem_preorder, Bool.or_eq_true, List.isEmpty_iff,
    isInside_iff, exists_and_right]

theorem harm?_eq_none_iff :
    root.harm? declarations = none ↔ ¬ ∃ place, root.Harms declarations place := by
  rw [harm?, List.find?_eq_none]
  constructor
  · rintro harmless ⟨place, harms⟩
    obtain ⟨node, listed, harmful⟩ := harms_iff.mp harms
    exact harmless _ listed harmful
  · rintro harmless ⟨place, node⟩ listed harmful
    exact harmless ⟨place, harms_iff.mpr ⟨node, listed, harmful⟩⟩

theorem harm?_eq_some_iff :
    root.harm? declarations = some (place, node) ↔ root.at? place = some node ∧
      root.Harms declarations place ∧
      ∀ other, root.Harms declarations other → place = other ∨ place < other := by
  have least {place : Place} {node : Node}
      (found : root.harm? declarations = some (place, node)) :
      root.at? place = some node ∧ root.Harms declarations place ∧
        ∀ other, root.Harms declarations other → place = other ∨ place < other := by
    obtain ⟨⟨listed, harmful⟩, first⟩ := least_of_find? (root.pairwise_preorder.filter _) found
    refine ⟨mem_preorder.mp (List.mem_of_mem_filter listed), harms_iff.mpr ⟨node, listed, harmful⟩,
      fun other harms => ?_⟩
    obtain ⟨node', listed', harmful'⟩ := harms_iff.mp harms
    exact first _ listed' harmful'
  refine ⟨least, ?_⟩
  rintro ⟨here, harms, first⟩
  cases found : root.harm? declarations with
  | none => exact absurd ⟨place, harms⟩ (harm?_eq_none_iff.mp found)
  | some fault =>
      obtain ⟨place', node'⟩ := fault
      obtain ⟨here', harms', first'⟩ := least found
      have same : place = place' := by
        rcases first place' harms' with same | less
        · exact same
        · rcases first' place harms with same | more
          · exact same.symm
          · exact absurd (List.lt_trans less more) (List.lt_irrefl _)
      subst same
      cases here.symm.trans here'
      rfl

/-! ## Outlines -/

def answer (declarations : List Declaration) :
    Option (Place × Node) → Except ParseError (List Declaration)
  | some (_, node) => .error (.malformedSource (node.start.line + 1) (node.start.column + 1))
  | none => .ok declarations

theorem outline?_eq_map :
    root.outline? content =
      (root.declarations? content).map fun declarations =>
        answer declarations ((root.faults []).find? (root.isHarmful declarations)) := by
  rw [outline?]
  cases root.declarations? content <;> rfl

theorem isSome_outline?_iff :
    (root.outline? content).isSome ↔ (root.declarations? content).isSome := by
  rw [outline?_eq_map, Option.isSome_map]

theorem declarations?_of_outline? (outlined : root.outline? content = some (.ok declarations)) :
    root.declarations? content = some declarations := by
  rw [outline?_eq_map] at outlined
  obtain ⟨found, declared, same⟩ := Option.map_eq_some_iff.mp outlined
  cases harm : (root.faults []).find? (root.isHarmful found) with
  | some fault =>
      rw [harm] at same
      cases same
  | none =>
      rw [harm] at same
      cases same
      exact declared

/-- An error is where a node of the tree starts, whether or not errors are claimed as they should
be. -/
theorem exists_of_outline?_error {cause : ParseError}
    (outlined : root.outline? content = some (.error cause)) :
    ∃ place node, root.at? place = some node ∧
      cause = .malformedSource (node.start.line + 1) (node.start.column + 1) := by
  rw [outline?_eq_map] at outlined
  obtain ⟨found, -, same⟩ := Option.map_eq_some_iff.mp outlined
  cases harm : (root.faults []).find? (root.isHarmful found) with
  | some fault =>
      rw [harm] at same
      cases same
      obtain ⟨below, -, here⟩ := exists_at?_of_mem_faults [] (List.mem_of_find?_eq_some harm)
      exact ⟨below, fault.2, here, rfl⟩
  | none =>
      rw [harm] at same
      cases same

theorem outline?_eq (flagged : root.Flagged) :
    root.outline? content =
      (root.declarations? content).map fun declarations =>
        answer declarations (root.harm? declarations) := by
  have found := root.faults_eq [] flagged
  have same : beyond [] = id := rfl
  rw [same, List.map_id] at found
  rw [outline?_eq_map, found]
  rfl

theorem outline?_eq_error_iff (flagged : root.Flagged)
    (declared : root.declarations? content = some declarations) {cause : ParseError} :
    root.outline? content = some (.error cause) ↔ ∃ place node, root.at? place = some node ∧
      root.Harms declarations place ∧
      (∀ other, root.Harms declarations other → place = other ∨ place < other) ∧
      cause = .malformedSource (node.start.line + 1) (node.start.column + 1) := by
  rw [outline?_eq flagged, declared, Option.map_some, Option.some.injEq]
  constructor
  · intro answered
    cases found : root.harm? declarations with
    | none =>
        rw [found] at answered
        cases answered
    | some fault =>
        rw [found] at answered
        cases answered
        obtain ⟨here, harms, first⟩ := harm?_eq_some_iff.mp found
        exact ⟨_, _, here, harms, first, rfl⟩
  · rintro ⟨place, node, here, harms, first, rfl⟩
    rw [harm?_eq_some_iff.mpr ⟨here, harms, first⟩]
    rfl

theorem outline?_eq_ok_iff (flagged : root.Flagged)
    (declared : root.declarations? content = some declarations) :
    root.outline? content = some (.ok declarations) ↔
      ¬ ∃ place, root.Harms declarations place := by
  rw [outline?_eq flagged, declared, Option.map_some, Option.some.injEq, ← harm?_eq_none_iff]
  cases root.harm? declarations with
  | none => simp [answer]
  | some fault => simp [answer]

/-- There is an answer for a tree if and only if every node whose text is looked up has one.  The
declarations are those of the nodes that make one, inner ones first.  The answer is an error exactly
if a fault is below a declaration, or if there is a fault and no declaration, and then it tells where
the first such fault starts. -/
theorem outline_exact (content : String) (root : Node) (flagged : root.Flagged) :
    ((root.outline? content).isSome ↔ (root.declarations? content).isSome) ∧
    ((root.declarations? content).isSome ↔ ∀ place node, root.at? place = some node →
      ∀ read ∈ node.readNodes, (read.text? content).isSome) ∧
    ∀ declarations, root.declarations? content = some declarations →
      (∃ places : List Place, places.Pairwise Place.Precedes ∧
        List.Forall₂ (root.Declares content) places declarations ∧
        ∀ place, place ∈ places ↔ ∃ declaration, root.Declares content place declaration) ∧
      ((∃ cause, root.outline? content = some (.error cause)) ↔
        ∃ place, root.Harms declarations place) ∧
      (∀ cause, root.outline? content = some (.error cause) ↔ ∃ place node,
        root.at? place = some node ∧ root.Harms declarations place ∧
        (∀ other, root.Harms declarations other → place = other ∨ place < other) ∧
        cause = .malformedSource (node.start.line + 1) (node.start.column + 1)) ∧
      ((¬ ∃ place, root.Harms declarations place) ↔
        root.outline? content = some (.ok declarations)) := by
  refine ⟨isSome_outline?_iff, isSome_declarations?_iff,
    fun declarations declared => ⟨exists_places declared, ⟨?_, ?_⟩,
      fun cause => outline?_eq_error_iff flagged declared,
      (outline?_eq_ok_iff flagged declared).symm⟩⟩
  · rintro ⟨cause, failed⟩
    obtain ⟨place, node, -, harms, -⟩ := (outline?_eq_error_iff flagged declared).mp failed
    exact ⟨place, harms⟩
  · rintro harmed
    cases found : root.harm? declarations with
    | none => exact absurd harmed (harm?_eq_none_iff.mp found)
    | some fault =>
        obtain ⟨here, harms, first⟩ := harm?_eq_some_iff.mp found
        exact ⟨_, (outline?_eq_error_iff flagged declared).mpr ⟨_, _, here, harms, first, rfl⟩⟩

def token (kind : String) (startByte endByte : Nat) (start : Position) : Node :=
  { kind, isNamed := false, startByte, endByte, start, children := [] }

/-- A file with an error in front of its declarations, a type with a protocol in it that has no name
but an error, and a missing brace. -/
def faultyFile : Node :=
  let colon := token ":" 22 23 ⟨2, 10⟩
  let nameless : Node :=
    { kind := "protocol_declaration", hasError := true, startByte := 13, endByte := 23,
      start := ⟨2, 1⟩,
      children := [token "protocol" 13 21 ⟨2, 1⟩,
        { kind := "ERROR", isError := true, isExtra := true, hasError := true, startByte := 22,
          endByte := 23, start := ⟨2, 10⟩, children := [colon] }] }
  let missing := { token "\x7d" 23 23 ⟨2, 11⟩ with isMissing := true, hasError := true }
  let body : Node :=
    { kind := "class_body", hasError := true, startByte := 10, endByte := 23, start := ⟨1, 8⟩,
      children := [token "\x7b" 10 11 ⟨1, 8⟩, nameless, missing] }
  let name : Node :=
    { kind := "type_identifier", field := some "name", startByte := 8, endByte := 9,
      start := ⟨1, 6⟩, children := [] }
  { kind := "source_file", hasError := true, startByte := 0, endByte := 23, start := ⟨0, 0⟩,
    children :=
      [{ kind := "ERROR", isError := true, isExtra := true, hasError := true, startByte := 0,
         endByte := 1, start := ⟨0, 0⟩, children := [token ")" 0 1 ⟨0, 0⟩] },
        { kind := "class_declaration", hasError := true, startByte := 2, endByte := 23,
          start := ⟨1, 0⟩,
          children :=
            [{ token "class" 2 7 ⟨1, 0⟩ with field := some "declaration_kind" }, name, body] }] }

/-- The error in front does no harm.  The nameless protocol's does, before the missing brace. -/
theorem outline_exact_of_faultyFile :
    let content := ")\nclass A \x7b\n protocol :"
    let declarations : List Declaration := [⟨"A", .class, 2, []⟩]
    faultyFile.Flagged ∧ faultyFile.declarations? content = some declarations ∧
    faultyFile.outline? content = some (.error (.malformedSource 3 11)) ∧
    ((faultyFile.outline? content).isSome ↔ (faultyFile.declarations? content).isSome) ∧
    (∃ places : List Place, places.Pairwise Place.Precedes ∧
      List.Forall₂ (faultyFile.Declares content) places declarations ∧
      ∀ place, place ∈ places ↔ ∃ declaration, faultyFile.Declares content place declaration) ∧
    ∃ place node, faultyFile.at? place = some node ∧ faultyFile.Harms declarations place ∧
      (∀ other, faultyFile.Harms declarations other → place = other ∨ place < other) ∧
      node.start = ⟨2, 10⟩ := by
  intro content declarations
  have flagged : faultyFile.Flagged := flagged_of_isFlagged (by decide)
  have declared : faultyFile.declarations? content = some declarations := by decide
  have failed : faultyFile.outline? content = some (.error (.malformedSource 3 11)) := by decide
  obtain ⟨answered, -, exact_⟩ := outline_exact content faultyFile flagged
  obtain ⟨places, -, errors, -⟩ := exact_ declarations declared
  obtain ⟨place, node, found, harms, first, same⟩ := (errors _).mp failed
  refine ⟨flagged, declared, failed, answered, places, place, node, found, harms, first, ?_⟩
  obtain ⟨⟨kind, field, isNamed, isExtra, isError, isMissing, hasError, startByte, endByte, line,
    column⟩, children⟩ := node
  cases same
  rfl

end Node
end Lineage.Source
