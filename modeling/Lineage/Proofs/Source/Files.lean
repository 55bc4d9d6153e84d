import Lineage.Proofs.Source.Entries
import Lineage.Proofs.Source.Members

/-!
# Nodes of printed files

The tree of a printed declaration stands for its print, and the node of that tree is one of the
declaration.  A gap before a declaration holds the lines that were filled into it: their comments
are nodes before the declaration, and the declaration starts where they end.
-/

namespace Lineage.Source

open Printer
open Source.Tree (IsPlain nodeFrom nodesFrom sources)
open Node (Prints IsHead IsEntry Spells)

/-! ## Gaps -/

namespace Gap

variable {gap : Gap}

def text (gap : Gap) : String := sources gap.extras ++ gap.lead

@[simp] theorem text_newline : Gap.newline.text = "\n" := rfl

theorem text_fill (gap : Gap) (filler : Filler) :
    (gap.fill filler).text = gap.text ++ filler.print := by
  have feed : String.ofList ['\n'] = "\n" := rfl
  cases filler with
  | blank white =>
      simp only [text, fill, lead, Filler.print, String.ofList_append, String.ofList_toList, feed,
        String.append_assoc]
  | comment white text =>
      simp only [Gap.text, fill, lead, Filler.print, Tree.sources_append, Tree.sources, Tree.source,
        String.ofList_append, String.ofList_toList, feed, String.append_empty, String.append_assoc]

theorem text_fillAll (gap : Gap) (fillers : List Filler) :
    (gap.fillAll fillers).text = gap.text ++ printFillers fillers := by
  induction fillers generalizing gap with
  | nil => exact String.append_empty.symm
  | cons filler fillers ih =>
      rw [fillAll, List.foldl_cons, ← fillAll, ih, text_fill, printFillers, printFillers,
        List.map_cons, String.join_cons, String.append_assoc]

theorem sources_extras_append (gap : Gap) (field : Option Field) (kind : LeafKind) (text : String) :
    sources (gap.extras ++ [.leaf field kind gap.lead text]) = gap.text ++ text := by
  rw [Tree.sources_append, Tree.sources, Tree.source, Tree.sources, String.append_empty, Gap.text,
    String.append_assoc]

theorem sources_itemTrees (isPaused : Bool) (gap : Gap) :
    sources (gap.itemTrees isPaused) ++ (gap.itemGap isPaused).lead = gap.text := by
  cases isPaused with
  | false =>
      rw [itemTrees, if_neg (by decide), List.append_nil]
      rfl
  | true =>
      rw [itemTrees, if_pos rfl, sources_extras_append, String.append_empty]
      exact String.append_empty

theorem isPlain_extras_append {field : Option Field} {kind : LeafKind} {lead text : String}
    (plain : ∀ tree ∈ gap.extras, tree.IsPlain) :
    ∀ tree ∈ gap.extras ++ [.leaf field kind lead text], tree.IsPlain :=
  List.forall_mem_append.mpr ⟨plain, List.forall_mem_singleton.mpr .leaf⟩

theorem isPlain_fillAll (fillers : List Filler) (plain : ∀ tree ∈ gap.extras, tree.IsPlain) :
    ∀ tree ∈ (gap.fillAll fillers).extras, tree.IsPlain := by
  induction fillers generalizing gap with
  | nil => exact plain
  | cons filler fillers ih =>
      refine @ih (gap.fill filler) ?_
      cases filler with
      | blank white => exact plain
      | comment white text => exact isPlain_extras_append plain

theorem isPlain_itemTrees (isPaused : Bool) (plain : ∀ tree ∈ gap.extras, tree.IsPlain) :
    ∀ tree ∈ gap.itemTrees isPaused, tree.IsPlain := by
  cases isPaused with
  | false =>
      rw [itemTrees, if_neg (by decide), List.append_nil]
      exact plain
  | true => exact isPlain_extras_append plain

end Gap

/-! ## Texts of declarations -/

namespace Printer.Member

variable {gap : Gap} {kind : DeclarationKind} {name front base : String}
variable {supertypes : List Supertype} {members : List Member} {below : List Filler}

def headTrees (gap : Gap) (kind : DeclarationKind) (name : String) (supertypes : List Supertype) :
    List Tree :=
  .leaf (some .declarationKind) .token gap.lead kind.keyword :: nameTree name kind ::
    Supertype.clauseTrees supertypes

def bodyTrees (kind : DeclarationKind) (members : List Member) (below : List Filler) : List Tree :=
  let closing := Gap.newline.fillAll below
  .leaf none .token Gap.space.lead openBrace ::
    (treesAll false (innerBlock kind != .enumMembers) .newline members ++
      (closing.extras ++ [.leaf none .token closing.lead closeBrace]))

theorem tree_declare (gap : Gap) (above : List Filler) :
    tree gap (declare above kind name supertypes members below) =
      .node none (nodeKind kind) (headTrees gap kind name supertypes ++
        [.node none (.phrase "body") (bodyTrees kind members below)]) := rfl

theorem source_nameTree (name : String) (kind : DeclarationKind) :
    (nameTree name kind).source = " " ++ name := by
  cases kind with
  | extension => exact Supertype.source_element .space (.phrase "type") (.apply name [])
  | «class» | struct | enum | actor | protocol => rfl

theorem lead_nameTree (name : String) (kind : DeclarationKind) :
    (nameTree name kind).lead = " " := by
  cases kind <;> rfl

theorem text_nameTree (name : String) (kind : DeclarationKind) :
    (nameTree name kind).text = name := by
  cases kind with
  | extension => exact Supertype.text_element .space (.phrase "type") (.apply name [])
  | «class» | struct | enum | actor | protocol => rfl

theorem sources_headTrees (gap : Gap) (kind : DeclarationKind) (name : String)
    (supertypes : List Supertype) :
    sources (headTrees gap kind name supertypes) ++ " \x7b\n" =
      gap.lead ++ printHead kind name supertypes := by
  rw [headTrees, Tree.sources, Tree.sources, Tree.source, source_nameTree,
    Supertype.sources_clauseTrees, printHead]
  simp only [String.append_assoc]

theorem sources_treesAll {isPaused pauses : Bool}
    (source_tree : ∀ member ∈ members, ∀ gap,
      (tree gap member).source = gap.lead ++ member.printBody) :
    sources (treesAll isPaused pauses gap members) ++ (gapAfter gap members).text =
      gap.text ++ printAll members := by
  induction members generalizing gap isPaused with
  | nil => exact String.empty_append.trans String.append_empty.symm
  | cons member members ih =>
      have later := @ih .newline pauses fun other listed => source_tree other (.tail _ listed)
      have item := Gap.sources_itemTrees isPaused (gap.fillAll member.above)
      have after : gapAfter gap (member :: members) = .newline := rfl
      rw [gapAfter_newline] at later
      rw [treesAll, Tree.sources_append, Tree.sources, source_tree member (.head _), after,
        String.append_assoc, String.append_assoc, later, printAll, print_eq]
      rw [Gap.text_fillAll] at item
      simp only [← String.append_assoc, item, Gap.text_newline]

theorem sources_bodyTrees (kind : DeclarationKind) (below : List Filler)
    (source_tree : ∀ member ∈ members, ∀ gap,
      (tree gap member).source = gap.lead ++ member.printBody) :
    sources (bodyTrees kind members below) =
      " \x7b\n" ++ (printAll members ++ (printFillers below ++ "\x7d")) := by
  have opening : (Tree.leaf none .token Gap.space.lead openBrace).source ++ "\n" = " \x7b\n" := rfl
  have inner := @sources_treesAll .newline members false (innerBlock kind != .enumMembers)
    source_tree
  have closing := Gap.text_fillAll .newline below
  rw [gapAfter_newline, Gap.text_newline] at inner
  rw [bodyTrees, Tree.sources, Tree.sources_append, Gap.sources_extras_append, closing,
    Gap.text_newline]
  generalize sources (treesAll false _ .newline members) = inside at inner ⊢
  calc (Tree.leaf none .token Gap.space.lead openBrace).source ++
        (inside ++ ("\n" ++ printFillers below ++ closeBrace))
      = (Tree.leaf none .token Gap.space.lead openBrace).source ++
          ((inside ++ "\n") ++ (printFillers below ++ closeBrace)) := by
        simp only [String.append_assoc]
    _ = " \x7b\n" ++ (printAll members ++ (printFillers below ++ "\x7d")) := by
        rw [inner, ← opening]
        simp only [String.append_assoc]
        rfl

theorem source_tree (gap : Gap) (member : Member) :
    (tree gap member).source = gap.lead ++ member.printBody := by
  induction member using Member.induction generalizing gap with
  | declare above kind name supertypes members below ih =>
      rw [tree_declare, Tree.source, Tree.sources_append, Tree.sources, Tree.source, Tree.sources,
        String.append_empty, sources_bodyTrees kind below ih, ← String.append_assoc,
        sources_headTrees, printBody, String.append_assoc]

/-! ## Nodes of declarations -/

theorem isPlain_nameTree (name : String) (kind : DeclarationKind) :
    (nameTree name kind).IsPlain := by
  cases kind with
  | extension =>
      exact .node rfl Supertype.type_notMem_ownKinds nofun
        (List.forall_mem_singleton.mpr (Supertype.isPlain_tree .space (.apply name [])))
  | «class» | struct | enum | actor | protocol => exact .leaf

theorem isPlain_headTrees : ∀ part ∈ headTrees gap kind name supertypes, part.IsPlain :=
  List.forall_mem_cons.mpr ⟨.leaf,
    List.forall_mem_cons.mpr ⟨isPlain_nameTree name kind, Supertype.isPlain_clauseTrees supertypes⟩⟩

theorem nodeKind_ne (kind : DeclarationKind) : nodeKind kind ≠ .inheritanceSpecifier := by
  cases kind <;> decide

theorem children_tree (base : String) (gap : Gap) (above : List Filler) :
    (nodeFrom (.behind base)
        (tree gap (declare above kind name supertypes members below))).children =
      nodesFrom (.behind base) [.leaf (some .declarationKind) .token gap.lead kind.keyword] ++
        (nodesFrom (.behind (base ++ (gap.lead ++ kind.keyword))) [nameTree name kind] ++
          (nodesFrom (.behind (base ++ gap.lead ++ (kind.keyword ++ " " ++ name)))
              (Supertype.clauseTrees supertypes) ++
            nodesFrom (.behind (base ++ sources (headTrees gap kind name supertypes)))
              [.node none (.phrase "body") (bodyTrees kind members below)])) := by
  have named : base ++ (gap.lead ++ kind.keyword) ++ (" " ++ name) =
      base ++ gap.lead ++ (kind.keyword ++ " " ++ name) := by
    simp only [String.append_assoc]
  rw [tree_declare, Tree.children_nodeFrom (nodeKind_ne kind), Tree.nodesFrom_behind_append,
    headTrees, Tree.nodesFrom_behind_cons, Tree.nodesFrom_behind_cons, source_nameTree, Tree.source,
    named]
  rfl

theorem isHead_tree (base : String) (gap : Gap) (above : List Filler) :
    IsHead (base ++ gap.lead) kind name supertypes
      (nodeFrom (.behind base) (tree gap (declare above kind name supertypes members below))) where
  declares := by
    rw [Tree.kind_nodeFrom]
    cases kind <;> rfl
  start := Tree.start_nodeFrom _ _
  keyword := fun _ => by
    refine ⟨nodeFrom (.behind base) (.leaf (some .declarationKind) .token gap.lead kind.keyword),
      ?_, ?_⟩
    · rw [Node.child?, children_tree]
      rfl
    · cases kind <;> rfl
  named := by
    refine ⟨nodeFrom (.behind (base ++ (gap.lead ++ kind.keyword))) (nameTree name kind), ?_, ?_⟩
    · rw [Node.child?, children_tree]
      cases kind <;> rfl
    · have spells := Tree.spells_nodeFrom (base ++ (gap.lead ++ kind.keyword)) (nameTree name kind)
      rw [lead_nameTree, text_nameTree] at spells
      simpa only [String.append_assoc] using spells
  entries := by
    have row := Supertype.row_clauseTrees (base ++ gap.lead ++ (kind.keyword ++ " " ++ name))
      supertypes
    have keyword (mark : Mark) :
        (nodesFrom mark [.leaf (some .declarationKind) .token gap.lead kind.keyword]).filter
          Node.isSpecifier = [] := by
      cases kind <;> rfl
    have named (mark : Mark) :
        (nodesFrom mark [nameTree name kind]).filter Node.isSpecifier = [] := by
      cases kind <;> rfl
    have body (mark : Mark) (trees : List Tree) :
        (nodesFrom mark [.node none (.phrase "body") trees]).filter Node.isSpecifier = [] := rfl
    rw [children_tree, List.filter_append, List.filter_append, List.filter_append, keyword, named,
      body, List.nil_append, List.nil_append, List.append_nil]
    have reached : base ++ gap.lead ++ (kind.keyword ++ " " ++ name) ++ ": " =
        base ++ gap.lead ++ (kind.keyword ++ " " ++ name ++ ": ") := String.append_assoc
    rwa [reached] at row

/-! ## Nodes of files -/

/-- The nodes of declarations, if the texts before them end with the gap before the first. -/
theorem prints_treesAll {isPaused pauses : Bool}
    (prints_tree : ∀ member ∈ members, ∀ base gap front,
      base ++ gap.lead = front ++ printFillers member.above →
      Prints front [member] [nodeFrom (.behind base) (tree gap member)])
    (plain : ∀ tree ∈ gap.extras, tree.IsPlain) (reached : base ++ gap.text = front) :
    Prints front members (nodesFrom (.behind base) (treesAll isPaused pauses gap members)) := by
  induction members generalizing gap isPaused base front with
  | nil => exact .nil
  | cons member members ih =>
      have before := Gap.isPlain_itemTrees isPaused (Gap.isPlain_fillAll member.above plain)
      have item := Gap.sources_itemTrees isPaused (gap.fillAll member.above)
      rw [Gap.text_fillAll] at item
      rw [treesAll, Tree.nodesFrom_behind_append, Tree.nodesFrom_behind_cons]
      generalize (gap.fillAll member.above).itemTrees isPaused = items at before item ⊢
      generalize (gap.fillAll member.above).itemGap isPaused = rest at item ⊢
      have here : base ++ sources items ++ rest.lead = front ++ printFillers member.above := by
        rw [String.append_assoc, item, ← String.append_assoc, reached]
      refine .after (Tree.prints_nodesFrom before _ _) ?_
      refine (prints_tree member (.head _) _ _ _ here).append ?_
      refine ih (fun other listed => prints_tree other (.tail _ listed))
        (List.forall_mem_nil _) ?_
      rw [Gap.text_newline, source_tree, printAll, printAll, String.append_empty, print_eq]
      simp only [← String.append_assoc] at here ⊢
      rw [here]

theorem isPlain_closing (below : List Filler) {lead text : String} :
    ∀ part ∈ (Gap.newline.fillAll below).extras ++ [.leaf none .token lead text], part.IsPlain :=
  Gap.isPlain_extras_append (Gap.isPlain_fillAll below nofun)

theorem prints_bodyTrees (kind : DeclarationKind) (below : List Filler)
    (prints_tree : ∀ member ∈ members, ∀ base gap front,
      base ++ gap.lead = front ++ printFillers member.above →
      Prints front [member] [nodeFrom (.behind base) (tree gap member)])
    (opened : base ++ " \x7b\n" = front) :
    Prints front members (nodesFrom (.behind base) (bodyTrees kind members below)) := by
  have brace : ∀ tree ∈ [Tree.leaf none .token Gap.space.lead openBrace], tree.IsPlain :=
    List.forall_mem_singleton.mpr .leaf
  have reached : base ++ sources [Tree.leaf none .token Gap.space.lead openBrace] ++
      Gap.newline.text = front := by
    rw [← opened, String.append_assoc]
    rfl
  have unset : ∀ tree ∈ Gap.newline.extras, tree.IsPlain := nofun
  have inner := @prints_treesAll _ _ _ _ false (innerBlock kind != .enumMembers) prints_tree unset
    reached
  rw [bodyTrees, ← List.singleton_append, Tree.nodesFrom_behind_append,
    Tree.nodesFrom_behind_append]
  exact .after (Tree.prints_nodesFrom brace _ _)
    (Tree.prints_before inner (isPlain_closing below) _)

theorem prints_tree (member : Member) (base : String) (gap : Gap) (front : String)
    (reached : base ++ gap.lead = front ++ printFillers member.above) :
    Prints front [member] [nodeFrom (.behind base) (tree gap member)] := by
  induction member using Member.induction generalizing base gap front with
  | declare above kind name supertypes members below ih =>
      have head := @isHead_tree kind name supertypes members below base gap above
      have sound : (nodeFrom (.behind base)
          (tree gap (declare above kind name supertypes members below))).isFault = false :=
        Tree.isFault_node _ (by cases kind <;> decide)
      have opened : base ++ sources (headTrees gap kind name supertypes) ++ " \x7b\n" =
          front ++ (printFillers above ++ printHead kind name supertypes) := by
        rw [String.append_assoc, sources_headTrees, ← String.append_assoc, reached,
          String.append_assoc]
        rfl
      have body : Prints (front ++ (printFillers above ++ printHead kind name supertypes)) members
          [nodeFrom (.behind (base ++ sources (headTrees gap kind name supertypes)))
            (.node none (.phrase "body") (bodyTrees kind members below))] :=
        .single (Tree.isDeclaration_node _ rfl fun _ same => by cases same; decide) rfl
          (prints_bodyTrees kind below ih opened)
      rw [reached] at head
      refine .declare head sound ?_ .nil
      rw [tree_declare, Tree.children_nodeFrom (nodeKind_ne kind), Tree.nodesFrom_behind_append]
      exact .after (Tree.prints_nodesFrom isPlain_headTrees _ _) body

end Printer.Member

/-! ## Reading printed files -/

open Member

theorem prints_fileTree (members : List Member) (below : List Filler) :
    Prints "" members [(fileTree members below).nodeFrom .start] := by
  have unset : ∀ tree ∈ Gap.empty.extras, tree.IsPlain := nofun
  have reached : "" ++ Gap.empty.text = "" := rfl
  have ending : ∀ tree ∈ ((gapAfter .empty members).fillAll below).extras ++
      [.leaf none .token ((gapAfter .empty members).fillAll below).lead ""], tree.IsPlain := by
    refine Gap.isPlain_extras_append (Gap.isPlain_fillAll below ?_)
    cases members <;> exact List.forall_mem_nil _
  have inner := @prints_treesAll _ _ _ _ false true
    (fun member (_ : member ∈ members) => prints_tree member) unset reached
  refine .single (Tree.isDeclaration_node _ rfl nofun) rfl ?_
  rw [fileTree, Tree.children_nodeFrom (by decide), Tree.nodesFrom_append]
  exact Tree.prints_before inner ending _

/-- A parser that gives each printed file a tree with the nodes of what was printed. -/
def TreeParser.ReadsPrints (parser : TreeParser) : Prop :=
  ∀ ⦃members below⦄, arePrintable false members = true → below.all Filler.isPrintable = true →
    ∃ root, parser (printFile members below) = .ok root ∧ Prints "" members [root]

theorem readsPrints_syntaxTree : syntaxTree.ReadsPrints := by
  intro members below printable printable'
  refine ⟨(fileTree members below).nodeFrom .start, ?_, prints_fileTree members below⟩
  rw [syntaxTree, tree, tokens_printFile printable printable', treeOf_tokensAll printable]

/-- Declarations that are printed are read back: inner ones first and in order, each with its
name, its kind, the line of its head and its supertypes. -/
theorem parse_printFile (parser : TreeParser) (reads : parser.ReadsPrints) (members : List Member)
    (below : List Filler) (printable : arePrintable false members = true)
    (printable' : below.all Filler.isPrintable = true) :
    parser.parse? (printFile members below) = some (.ok (expectedAll 1 members)) := by
  obtain ⟨root, parsed, prints⟩ := reads printable printable'
  rw [TreeParser.parse?, parsed]
  exact prints.outline? printable

/-- A file with types in types, generic supertypes and lines that look like declarations. -/
def nestedFile : List Member :=
  [.declare [.comment "" " class Hidden \x7b"] .class "Outer"
      [.apply "Base" [], .apply "Store" [.apply "Pair" [.apply "Key" [], .apply "Value" []]]]
      [.declare [] .enum "Kind" []
        [.declare [.blank " "] .struct "Deep" [] [] [],
          .declare [] .actor "Worker" [.apply "Job" []] [] [.comment "  " "\x7d"]] []] [],
    .declare [.blank ""] .extension "Outer" [.apply "Shape" []]
      [.declare [] .class "Late" [] [] []] [],
    .declare [] .protocol "Shape" [] [] [.blank "\t"]]

theorem parse_printFile_nested :
    syntaxTree.ReadsPrints ∧ arePrintable false nestedFile = true ∧
      syntaxTree.parse? ("// class Hidden \x7b\n" ++
          "class Outer: Base, Store<Pair<Key, Value>> \x7b\n" ++
          "enum Kind \x7b\n" ++
          " \n" ++
          "struct Deep \x7b\n" ++
          "\x7d\n" ++
          "actor Worker: Job \x7b\n" ++
          "  //\x7d\n" ++
          "\x7d\n" ++
          "\x7d\n" ++
          "\x7d\n" ++
          "\n" ++
          "extension Outer: Shape \x7b\n" ++
          "class Late \x7b\n" ++
          "\x7d\n" ++
          "\x7d\n" ++
          "protocol Shape \x7b\n" ++
          "\t\n" ++
          "\x7d\n") =
        some (.ok [⟨"Deep", .struct, 5, []⟩, ⟨"Worker", .actor, 7, [.named "Job"]⟩,
          ⟨"Kind", .enum, 3, []⟩,
          ⟨"Outer", .class, 2,
            [.named "Base", .generic "Store" [specializedName "Pair" ["Key", "Value"]]]⟩,
          ⟨"Late", .class, 14, []⟩, ⟨"Outer", .extension, 13, [.named "Shape"]⟩,
          ⟨"Shape", .protocol, 17, []⟩]) :=
  ⟨readsPrints_syntaxTree, by decide,
    parse_printFile syntaxTree readsPrints_syntaxTree nestedFile [] (by decide) rfl⟩

def nullFile : List Member :=
  [.declare [] .class "A" [] [] [.comment "" " \x00"]]

/-- A null character is no line break, and yet a source that has one in a comment is refused. -/
theorem refused_of_nullFile :
    '\n' ∉ " \x00".toList ∧ '\r' ∉ " \x00".toList ∧
      printFile nullFile [] = "class A \x7b\n// \x00\n\x7d\n" ∧
      syntaxTree.parse? (printFile nullFile []) = some (.error (.malformedSource 2 4)) :=
  ⟨by decide, by decide, by decide, by decide +kernel⟩

end Lineage.Source
