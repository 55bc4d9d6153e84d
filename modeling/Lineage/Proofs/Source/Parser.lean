import Lineage.Proofs.Source.Coverage
import Lineage.Proofs.Source.Tokens

/-!
# Trees of the parser

The lexemes of a source are the white space and the texts of the leaves of its tree.  Each node of
the parser is around those of its own leaves, claims an error where there is one, and has its name
first if it is a declaration.
-/

namespace Lineage.Source

open Node (Spans Covers Bounds covers_cons_iff)

/-! ## Marks -/

namespace Mark

def behind (text : String) : Mark := start.after text

theorem after_append (mark : Mark) (front back : String) :
    mark.after (front ++ back) = (mark.after front).after back := by
  simp [after, Position.after_append, Nat.add_assoc]

theorem behind_append (front back : String) : behind (front ++ back) = (behind front).after back :=
  after_append _ _ _

theorem after_empty (mark : Mark) : mark.after "" = mark := rfl

theorem byte_behind (text : String) : (behind text).byte = text.utf8ByteSize :=
  Nat.zero_add _

end Mark

/-! ## Lexemes -/

namespace Tree

mutual

def lexemes : Tree → List String
  | leaf _ _ lead text => [lead, text]
  | missing _ => []
  | node _ _ children => lexemesIn children

def lexemesIn : List Tree → List String
  | [] => []
  | tree :: rest => lexemes tree ++ lexemesIn rest

end

/-- How many lexemes stand before the text of a tree. -/
def leading : Tree → Nat
  | leaf .. => 1
  | missing _ => 0
  | node _ _ [] => 0
  | node _ _ (first :: _) => leading first

def leadingIn : List Tree → Nat
  | [] => 0
  | tree :: _ => leading tree

theorem leading_node (field : Option Field) (kind : NodeKind) (trees : List Tree) :
    leading (.node field kind trees) = leadingIn trees := by
  cases trees <;> rfl

theorem join_lexemes (tree : Tree) : String.join tree.lexemes = tree.source := by
  refine Tree.rec (motive_2 := fun trees => String.join (lexemesIn trees) = sources trees)
    (fun field kind lead text => ?_) (fun _ => rfl) (fun _ _ _ row => row) rfl
    (fun tree rest here later => ?_) tree
  · rw [lexemes, String.join_cons, String.join_cons, String.join_nil, String.append_empty]
    rfl
  · rw [lexemesIn, String.join_append, here, later, sources]

theorem leading_le (tree : Tree) : tree.leading ≤ tree.lexemes.length := by
  induction tree using Tree.induction with
  | leaf | missing => simp [leading, lexemes]
  | node field kind children ih =>
      cases children with
      | nil => exact Nat.le_refl _
      | cons first rest =>
          have here := ih first (.head _)
          rw [lexemes, lexemesIn, List.length_append, leading]
          omega

theorem join_take_leading (tree : Tree) :
    String.join (tree.lexemes.take tree.leading) = tree.lead := by
  induction tree using Tree.induction with
  | leaf | missing => simp [leading, lexemes, lead]
  | node field kind children ih =>
      cases children with
      | nil => rfl
      | cons first rest =>
          rw [lexemes, lexemesIn, leading, lead, List.take_append_of_le_length (leading_le first)]
          exact ih first (.head _)

/-! ## Nodes around their lexemes -/

variable {tree : Tree} {trees : List Tree} {front back : List String}

theorem between_append_take {own : List String} {count : Nat} (within : count ≤ own.length) :
    between (front ++ (own ++ back)) 0 (front.length + count) =
      String.join front ++ String.join (own.take count) := by
  rw [between, List.drop_zero, List.take_length_add_append, String.join_append,
    List.take_append_of_le_length within]

theorem bounds_label (tree : Tree) (hasError : Bool) :
    Bounds (front ++ (tree.lexemes ++ back)) (front.length + tree.leading)
      (front.length + tree.lexemes.length)
      (label (.behind (String.join front)) tree hasError) where
  startByte := by
    rw [between_append_take (leading_le tree), join_take_leading, label]
    rw [← Mark.behind_append, Mark.byte_behind]
  endByte := by
    rw [between_append_take (Nat.le_refl _), List.take_length, join_lexemes, ← lead_append_text,
      ← String.append_assoc, ← Mark.byte_behind, Mark.behind_append, Mark.behind_append]
    rfl
  start := by
    rw [between_append_take (leading_le tree), join_take_leading, label]
    rw [← Mark.behind_append]
    rfl

theorem covers_markType {lexemes : List String} {first last : Nat} {kind : NodeKind}
    {parts : List Node} (covers : Covers lexemes first last parts) :
    Covers lexemes first last (markType kind parts) := by
  fun_cases markType kind parts with
  | case1 first rest =>
      obtain ⟨start, stop, before, ⟨bounds, inner⟩, later⟩ := covers_cons_iff.mp covers
      exact .cons before ⟨bounds.startByte, bounds.endByte, bounds.start⟩ inner later
  | case2 => exact covers

theorem spans_nodeFrom (tree : Tree) (front back : List String) :
    (nodeFrom (.behind (String.join front)) tree).Spans (front ++ (tree.lexemes ++ back))
      (front.length + tree.leading) (front.length + tree.lexemes.length) := by
  refine Tree.rec
    (motive_1 := fun tree => ∀ front back,
      (nodeFrom (.behind (String.join front)) tree).Spans
        (front ++ (tree.lexemes ++ back)) (front.length + tree.leading)
        (front.length + tree.lexemes.length))
    (motive_2 := fun trees => ∀ front back,
      Covers (front ++ (lexemesIn trees ++ back)) (front.length + leadingIn trees)
        (front.length + (lexemesIn trees).length)
        (nodesFrom (.behind (String.join front)) trees))
    ?_ ?_ ?_ ?_ ?_ tree front back
  · intro field kind lead text front back
    refine ⟨bounds_label (.leaf field kind lead text) _, .nil ?_ ?_⟩
    · simp [leading, lexemes]
    · simp [lexemes]
  · intro text front back
    refine ⟨bounds_label (.missing text) _, .nil (Nat.le_refl _) ?_⟩
    simp [lexemes]
  · intro field kind children row front back
    refine ⟨bounds_label (.node field kind children) _, covers_markType ?_⟩
    rw [leading_node]
    exact row front back
  · intro front back
    refine .nil (Nat.le_refl _) ?_
    simp [lexemesIn]
  · intro tree rest here later front back
    have first := here front (lexemesIn rest ++ back)
    have others := later (front ++ tree.lexemes) back
    have joined : Mark.behind (String.join (front ++ tree.lexemes)) =
        (Mark.behind (String.join front)).after tree.source := by
      rw [String.join_append, join_lexemes, Mark.behind_append]
    rw [joined, List.append_assoc, List.length_append] at others
    rw [nodesFrom, lexemesIn, List.append_assoc, List.length_append, ← Nat.add_assoc]
    exact covers_cons_iff.mpr ⟨_, _, Nat.le_refl _, first, others.mono (Nat.le_add_right _ _)⟩

/-! ## Claimed errors -/

theorem areFlagged_markType {kind : NodeKind} {parts : List Node}
    (flagged : Node.areFlagged parts = true) : Node.areFlagged (markType kind parts) = true := by
  fun_cases markType kind parts with
  | case1 first rest =>
      obtain ⟨label, children⟩ := first
      exact flagged
  | case2 => exact flagged

theorem any_hasError_markType (kind : NodeKind) (parts : List Node) :
    (markType kind parts).any (·.hasError) = parts.any (·.hasError) := by
  fun_cases markType kind parts <;> rfl

theorem isFlagged_nodeFrom (mark : Mark) (tree : Tree) : (nodeFrom mark tree).isFlagged = true := by
  refine Tree.rec
    (motive_1 := fun tree => ∀ mark, (nodeFrom mark tree).isFlagged = true)
    (motive_2 := fun trees => ∀ mark, Node.areFlagged (nodesFrom mark trees) = true)
    ?_ ?_ ?_ (fun _ => rfl) ?_ tree mark
  · intro field kind lead text mark
    simp [nodeFrom, Node.isFlagged, Node.isFault, label, isError, isMissing, Node.areFlagged]
  · intro text mark
    rfl
  · intro field kind children row mark
    rw [nodeFrom, Node.isFlagged, Bool.and_eq_true]
    refine ⟨?_, areFlagged_markType (row mark)⟩
    rw [any_hasError_markType]
    cases claimed : (nodesFrom mark children).any (·.hasError) with
    | true => simp [label]
    | false => cases kind <;> simp [Node.isFault, label, isError, isMissing]
  · intro tree rest here later mark
    rw [nodesFrom, Node.areFlagged, here, later]
    rfl

/-! ## Names -/

variable {mark : Mark} {node : Node} {kind : NodeKind}

@[simp] theorem kind_nodeFrom (mark : Mark) (tree : Tree) :
    (nodeFrom mark tree).kind = tree.kindName := by
  cases tree <;> rfl

@[simp] theorem field_nodeFrom (mark : Mark) (tree : Tree) :
    (nodeFrom mark tree).field = tree.field?.map Field.word := by
  cases tree <;> rfl

theorem field_nodeFrom_eq_name_iff :
    (nodeFrom mark tree).field = some "name" ↔ tree.field? = some .name := by
  rw [field_nodeFrom]
  rcases tree.field? with _ | _ | _ <;> simp [Field.word]

theorem tokenKind_notMem_ownKinds (text : String) : tokenKind text ∉ ownKinds := by
  intro listed
  rw [tokenKind] at listed
  split_ifs at listed with word
  · revert listed
    decide
  · -- A kind of its own is made of letters, so that it would be taken for a word.
    refine word ?_
    simp only [ownKinds, List.mem_cons, List.not_mem_nil, or_false] at listed
    rcases listed with rfl | rfl | rfl <;> decide

theorem isSpecifier_of_kindName (shaped : tree.IsShaped)
    (same : tree.kindName = "inheritance_specifier") : tree.isSpecifier = true := by
  have listed : tree.kindName ∈ ownKinds := by simp [same, ownKinds]
  cases shaped with
  | @leaf field kind lead text =>
      cases kind with
      | token => exact absurd listed (tokenKind_notMem_ownKinds text)
      | name | comment | separator => simp [kindName] at same
  | @missing text => exact absurd listed (tokenKind_notMem_ownKinds text)
  | @node field kind children _ plain _ _ =>
      cases kind with
      | inheritanceSpecifier => rfl
      | phrase name => exact absurd listed (plain name rfl)
      | sourceFile | typeDeclaration | protocolDeclaration | userType | typeArguments | error
        | group => simp [kindName] at same

theorem isSpecifier_nodeFrom (shaped : tree.IsShaped) (plain : tree.isSpecifier = false)
    (mark : Mark) : (nodeFrom mark tree).isSpecifier = false := by
  rw [Node.isSpecifier, kind_nodeFrom, beq_eq_false_iff_ne]
  intro same
  rw [isSpecifier_of_kindName shaped same] at plain
  cases plain

theorem isDeclaration_of_kindName {field : Option Field}
    (plain : ∀ name, kind = .phrase name → name ∉ ownKinds)
    (declares : Node.isDeclaration (nodeFrom mark (.node field kind trees)) = true) :
    kind.isDeclaration = true := by
  rw [Node.isDeclaration_iff, kind_nodeFrom] at declares
  cases kind with
  | typeDeclaration | protocolDeclaration => rfl
  | phrase name =>
      refine absurd ?_ (plain name rfl)
      rcases declares with same | same <;> simp [kindName] at same <;> simp [same, ownKinds]
  | sourceFile | inheritanceSpecifier | userType | typeArguments | error | group =>
      simp [kindName] at declares

theorem nodesFrom_append (mark : Mark) (front back : List Tree) :
    nodesFrom mark (front ++ back) =
      nodesFrom mark front ++ nodesFrom (mark.after (sources front)) back := by
  induction front generalizing mark with
  | nil =>
      rw [sources, Mark.after_empty]
      rfl
  | cons tree front ih =>
      rw [List.cons_append, nodesFrom, nodesFrom, ih, sources, Mark.after_append, List.cons_append]

theorem exists_of_mem_nodesFrom (listed : node ∈ nodesFrom mark trees) :
    ∃ tree ∈ trees, ∃ mark', node = nodeFrom mark' tree := by
  induction trees generalizing mark with
  | nil => cases listed
  | cons tree trees ih =>
      rcases List.mem_cons.mp listed with rfl | listed
      · exact ⟨tree, .head _, mark, rfl⟩
      · obtain ⟨other, among, mark', same⟩ := ih listed
        exact ⟨other, .tail _ among, mark', same⟩

theorem exists_of_mem_markType {parts : List Node} (listed : node ∈ markType kind parts) :
    ∃ part ∈ parts, part.kind = node.kind ∧ part.children = node.children := by
  revert listed
  fun_cases markType kind parts with
  | case1 first rest =>
      intro listed
      rcases List.mem_cons.mp listed with rfl | listed
      · exact ⟨first, .head _, rfl, rfl⟩
      · exact ⟨node, .tail _ listed, rfl, rfl⟩
  | case2 => exact fun listed => ⟨node, listed, rfl, rfl⟩

theorem NamedFirst.hasNameFirst {field : Option Field} (named : NamedFirst trees)
    (declares : kind.isDeclaration = true) (shaped : ∀ tree ∈ trees, tree.IsShaped) :
    (nodeFrom mark (.node field kind trees)).HasNameFirst := by
  obtain ⟨front, name, back, rfl, unnamed, marked, plain⟩ := named
  rintro - given read
  have parts : (nodeFrom mark (.node field kind (front ++ name :: back))).children =
      nodesFrom mark front ++
        nodeFrom (mark.after (sources front)) name ::
          nodesFrom ((mark.after (sources front)).after name.source) back := by
    rw [nodeFrom, nodesFrom_append, nodesFrom]
    cases kind <;> first | rfl | cases declares
  have first : given = nodeFrom (mark.after (sources front)) name := by
    rw [Node.nameNode?, Node.child?, parts, List.find?_eq_some_iff_append.mpr
      ⟨?_, nodesFrom mark front, _, rfl, ?_⟩, Option.some_or] at read
    · exact (Option.some.inj read).symm
    · rw [beq_iff_eq]
      exact field_nodeFrom_eq_name_iff.mpr marked
    · intro other listed
      obtain ⟨tree, among, mark', rfl⟩ := exists_of_mem_nodesFrom listed
      rw [Bool.not_eq_true', beq_eq_false_iff_ne]
      exact fun same => (unnamed tree among).1 (field_nodeFrom_eq_name_iff.mp same)
  refine ⟨_, _, first ▸ parts, fun other listed => ?_⟩
  rcases List.mem_append.mp listed with before | here
  · obtain ⟨tree, among, mark', rfl⟩ := exists_of_mem_nodesFrom before
    have shape := shaped tree (List.mem_append_left _ among)
    exact isSpecifier_nodeFrom shape (unnamed tree among).2 mark'
  · rw [List.mem_singleton.mp here, first]
    exact isSpecifier_nodeFrom (shaped name (by simp)) plain _

theorem IsShaped.hasNameFirst (shaped : tree.IsShaped) {mark : Mark} {place : Place}
    (found : (nodeFrom mark tree).at? place = some node) : node.HasNameFirst := by
  induction shaped generalizing mark place node with
  | leaf | missing =>
      rcases place with _ | ⟨index, place⟩
      · cases found
        rintro - name named
        cases named
      · cases found
  | @node field kind children names plain extra shaped ih =>
      rcases place with _ | ⟨index, place⟩
      · cases found
        intro declares
        have declared := isDeclaration_of_kindName plain declares
        exact (names declared).hasNameFirst declared shaped declares
      · obtain ⟨child, here, found⟩ := Node.at?_cons_eq_some_iff.mp found
        obtain ⟨part, listed, kinds, children⟩ :=
          exists_of_mem_markType (List.mem_of_getElem? here)
        obtain ⟨tree, among, mark', rfl⟩ := exists_of_mem_nodesFrom listed
        -- A child differs from the node of its tree in its field, which does not matter.
        rcases place with _ | ⟨inner, place⟩
        · cases found
          have own : (nodeFrom mark' tree).at? [] = some (nodeFrom mark' tree) := rfl
          exact (ih tree among own).congr kinds children
        · have below : (nodeFrom mark' tree).at? (inner :: place) = some node := by
            rw [Node.at?, children]
            exact found
          exact ih tree among below

end Tree

/-! ## Sources -/

theorem fitsAt_syntaxTree (source : String) : syntaxTree.FitsAt source := by
  rintro root same
  cases same
  have spans := Tree.spans_nodeFrom (tree source) [] []
  have whole : String.join (tree source).lexemes = source := by
    rw [Tree.join_lexemes, source_tree]
  refine ⟨⟨(tree source).lexemes, whole, ?_⟩, fun place node found => ?_⟩
  · simp only [List.nil_append, List.append_nil, List.length_nil, Nat.zero_add] at spans
    exact covers_cons_iff.mpr ⟨_, _, Nat.zero_le _, spans, .nil (Nat.le_refl _) (Nat.le_refl _)⟩
  · exact (isShaped_tree source).hasNameFirst found

theorem flagged_syntaxTree {source : String} {root : Node} (same : syntaxTree source = .ok root) :
    root.Flagged := by
  cases same
  exact Node.flagged_of_isFlagged (Tree.isFlagged_nodeFrom _ _)

end Lineage.Source
