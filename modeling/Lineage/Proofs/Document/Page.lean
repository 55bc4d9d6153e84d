import Lineage.Document.Page
import Lineage.Proofs.Document.Record
import Lineage.Proofs.Graph.History
import Lineage.Proofs.Graph.Links
import Lineage.Proofs.Text.Label
import Lineage.Proofs.Text.Replace

/-!
# The network page read back

A page whose marks are filled at once can be read back, whatever the names of the nodes are.
The page is filled mark by mark, and it is the same page exactly when no name holds a mark that
is filled after the name has come in.
-/

open Std

namespace Lineage.Page

variable {graph : Graph} {mark : List Char}

/-! ## Marks -/

structure IsMark (mark : List Char) : Prop where
  nonempty : mark ≠ []
  underscored : '_' ∈ mark
  punctuation : Record.punctuation.Disjoint mark
  special : Text.Quoted.special.Disjoint mark
  keys : ∀ key ∈ nodeKeys ++ edgeKeys, key.toList.Disjoint mark

theorem isMark_nodesMark : IsMark nodesMark := by
  constructor <;> decide

theorem isMark_edgesMark : IsMark edgesMark := by
  constructor <;> decide

theorem isMark_distanceMark : IsMark distanceMark := by
  constructor <;> decide

theorem IsMark.newline (isMark : IsMark mark) : '\n' ∉ mark :=
  isMark.special (by decide)

/-! ## Marks in the data -/

theorem infix_nodeLine_iff (isMark : IsMark mark) (node : String) :
    mark <:+: nodeLine node ↔ mark <:+: node.toList := by
  have keyed : ∀ key ∈ nodeKeys, key.toList.Disjoint mark :=
    fun key listed => isMark.keys key (List.mem_append_left _ listed)
  rw [nodeLine, Record.infix_line_iff isMark.nonempty isMark.punctuation keyed rfl]
  have escaped := Text.Quoted.infix_escape_iff isMark.nonempty isMark.special node.toList
  have labelled (within : mark <:+: Text.label node.toList) : mark <:+: node.toList :=
    Text.infix_of_infix_label isMark.nonempty isMark.special within
  simpa [escaped] using labelled

theorem infix_edgeLine_iff (isMark : IsMark mark) (link : String × String) :
    mark <:+: edgeLine link ↔ mark <:+: link.1.toList ∨ mark <:+: link.2.toList := by
  have keyed : ∀ key ∈ edgeKeys, key.toList.Disjoint mark :=
    fun key listed => isMark.keys key (List.mem_append_right _ listed)
  rw [edgeLine, Record.infix_line_iff isMark.nonempty isMark.punctuation keyed rfl]
  simp [Text.Quoted.infix_escape_iff isMark.nonempty isMark.special]

theorem infix_lines_iff (isMark : IsMark mark) (lines : List (List Char)) :
    mark <:+: Text.joinWith ['\n'] lines ↔ ∃ line ∈ lines, mark <:+: line :=
  Text.infix_joinWith_iff isMark.nonempty (by simp [isMark.newline]) (by simp) lines

theorem infix_nodesText_iff (isMark : IsMark mark) :
    mark <:+: nodesText graph ↔ ∃ node ∈ graph.nodeList, mark <:+: node.toList := by
  rw [nodesText, infix_lines_iff isMark]
  simp [infix_nodeLine_iff isMark]

theorem infix_edgesText_iff (isMark : IsMark mark) :
    mark <:+: edgesText graph ↔
      ∃ link ∈ graph.links, mark <:+: link.1.toList ∨ mark <:+: link.2.toList := by
  rw [edgesText, infix_lines_iff isMark]
  simp [infix_edgeLine_iff isMark]

/-! ## Marks in the template -/

def framed (nodes edges : List Char) (after : List (List Char)) : List Char :=
  Text.joinWith ['\n'] (beforeNodes ++ nodes :: (beforeEdges ++ edges :: after))

theorem template_eq_framed : template = framed nodesMark edgesMark afterEdges := by
  have split : templateLines =
      templateLines.take 17 ++ "__NODES__" ::
        ((templateLines.drop 18).take 3 ++ "__EDGES__" :: templateLines.drop 22) := rfl
  rw [template, split, List.map_append, List.map_cons, List.map_append, List.map_cons]
  rfl

theorem plain_before :
    ∀ line ∈ beforeNodes ++ beforeEdges, '_' ∉ line ∧ '\n' ∉ line := by
  decide +kernel

theorem unmarked_afterEdges :
    ∀ line ∈ afterEdges, ¬nodesMark <:+: line ∧ ¬edgesMark <:+: line := by
  decide +kernel

theorem substitute_framed {fillings : List (List Char × List Char)}
    (marks : ∀ filling ∈ fillings, IsMark filling.1) (nodes edges : List Char)
    (after : List (List Char)) :
    Text.substitute fillings (framed nodes edges after) =
      framed (Text.substitute fillings nodes) (Text.substitute fillings edges)
        (after.map (Text.substitute fillings)) := by
  have before (lines : List (List Char)) (within : ∀ line ∈ lines, '_' ∉ line) :
      lines.map (Text.substitute fillings) = lines :=
    Text.map_substitute_of_absent fun line listed filling filled inside =>
      within line listed (inside.subset (marks filling filled).underscored)
  have before_nodes := before beforeNodes fun line listed =>
    (plain_before line (List.mem_append_left _ listed)).1
  have before_edges := before beforeEdges fun line listed =>
    (plain_before line (List.mem_append_right _ listed)).1
  rw [framed, Text.substitute_joinWith (fun filling filled => (marks filling filled).nonempty)
    (fun filling filled => (marks filling filled).newline)]
  rw [List.map_append, List.map_cons, List.map_append, List.map_cons, before_nodes, before_edges]
  rfl

/-! ## Filling -/

def closing (distance : Nat) : List (List Char) :=
  afterEdges.map (Text.replace distanceMark (toString distance).toList)

theorem replace_framed (isMark : IsMark mark) (replacement nodes edges : List Char)
    (after : List (List Char)) :
    Text.replace mark replacement (framed nodes edges after) =
      framed (Text.replace mark replacement nodes) (Text.replace mark replacement edges)
        (after.map (Text.replace mark replacement)) := by
  have marks : ∀ filling ∈ [(mark, replacement)], IsMark filling.1 := by simp [isMark]
  rw [Text.replace_eq_substitute, substitute_framed marks]

theorem replace_self (isMark : IsMark mark) (replacement : List Char) :
    Text.replace mark replacement mark = replacement := by
  have found : Text.front? [(mark, replacement)] mark = some (mark, replacement) := by
    simp [Text.front?]
  rw [Text.replace_eq_substitute]
  exact Text.substitute_self (mark, replacement) found isMark.nonempty

theorem map_replace_of_absent {lines : List (List Char)}
    (absent : ∀ line ∈ lines, ¬mark <:+: line) (replacement : List Char) :
    lines.map (Text.replace mark replacement) = lines := by
  rw [Text.replace_eq_substitute]
  exact Text.map_substitute_of_absent fun line listed => by simp [absent line listed]

/-- The page as it is filled mark by mark: the later fillings also reach into the data. -/
theorem fill_eq (graph : Graph) (distance : Nat) :
    let digits := (toString distance).toList
    fill graph distance =
      framed
        (Text.replace distanceMark digits
          (Text.replace edgesMark (edgesText graph) (nodesText graph)))
        (Text.replace distanceMark digits (edgesText graph)) (closing distance) := by
  intro digits
  have edgesMark_kept : Text.replace nodesMark (nodesText graph) edgesMark = edgesMark :=
    Text.replace_of_absent (by decide) _
  rw [fill, template_eq_framed, replace_framed isMark_nodesMark,
    replace_self isMark_nodesMark, edgesMark_kept,
    map_replace_of_absent fun line listed => (unmarked_afterEdges line listed).1,
    replace_framed isMark_edgesMark, replace_self isMark_edgesMark,
    map_replace_of_absent fun line listed => (unmarked_afterEdges line listed).2,
    replace_framed isMark_distanceMark]
  rfl

theorem filled_eq (graph : Graph) (distance : Nat) :
    filled graph distance =
      framed (nodesText graph) (edgesText graph) (closing distance) := by
  let fillings :=
    [(nodesMark, nodesText graph), (edgesMark, edgesText graph),
      (distanceMark, (toString distance).toList)]
  have marks : ∀ filling ∈ fillings, IsMark filling.1 := by
    simp [fillings, isMark_nodesMark, isMark_edgesMark, isMark_distanceMark]
  have nodes : Text.substitute fillings nodesMark = nodesText graph :=
    Text.substitute_self (nodesMark, nodesText graph) rfl isMark_nodesMark.nonempty
  have edges : Text.substitute fillings edgesMark = edgesText graph :=
    Text.substitute_self (edgesMark, edgesText graph) rfl isMark_edgesMark.nonempty
  have after : afterEdges.map (Text.substitute fillings) = closing distance := by
    apply List.map_congr_left
    intro line listed
    have absent := unmarked_afterEdges line listed
    rw [Text.replace_eq_substitute, Text.substitute_cons_of_absent _ absent.1,
      Text.substitute_cons_of_absent _ absent.2]
    · simp [isMark_distanceMark.nonempty]
    · simp [isMark_edgesMark.nonempty, isMark_distanceMark.nonempty]
  rw [filled, template_eq_framed, substitute_framed marks, nodes, edges, after]

/-! ## When the fillings keep apart -/

theorem framed_eq {after : List (List Char)} (some_line : after ≠ []) (nodes edges : List Char) :
    framed nodes edges after =
      (beforeNodes ++ [nodes] ++ beforeEdges ++ [edges]).flatMap (· ++ ['\n']) ++
        Text.joinWith ['\n'] after := by
  rw [← Text.joinWith_append some_line, framed]
  simp only [List.append_assoc, List.cons_append, List.nil_append]

theorem one_lt_length_closing (distance : Nat) : 1 < (closing distance).length := by
  rw [closing, List.length_map, afterEdges, List.length_map]
  decide

theorem closing_ne_nil (distance : Nat) : closing distance ≠ [] :=
  List.ne_nil_of_length_pos (Nat.zero_lt_of_lt (one_lt_length_closing distance))

theorem count_framed {after : List (List Char)} (some_line : after ≠ []) (nodes edges : List Char)
    (c : Char) :
    (framed nodes edges after).count c =
      nodes.count c + edges.count c + (framed [] [] after).count c := by
  rw [framed_eq some_line, framed_eq some_line]
  simp only [List.flatMap_append, List.flatMap_singleton, List.count_append, List.count_nil]
  omega

theorem digit_of_mem_toString {distance : Nat} {c : Char}
    (listed : c ∈ (toString distance).toList) : c.isDigit = true := by
  rw [Nat.toString_eq_repr, Nat.repr, String.toList_ofList] at listed
  exact Nat.isDigit_of_mem_toDigits (by decide) (by decide) listed

theorem count_digits {c : Char} (letter : c.isDigit = false) (distance : Nat) :
    (toString distance).toList.count c = 0 := by
  rw [List.count_eq_zero]
  intro listed
  rw [digit_of_mem_toString listed] at letter
  exact absurd letter (by decide)

theorem edgesText_eq_nil_of_count (absent : (edgesText graph).count '\x7b' = 0) :
    edgesText graph = [] := by
  cases listed : graph.links with
  | nil => simp [edgesText, listed]
  | cons link others =>
      have opens : '\x7b' ∈ edgeLine link := by
        have first : '\x7b' ∈ "        \x7b ".toList := by decide
        exact List.mem_append_left _ (List.mem_append_left _ first)
      have within : ['\x7b'] <:+: edgesText graph := by
        rw [edgesText, Text.infix_joinWith_iff (by simp) (by decide) (by simp)]
        exact ⟨edgeLine link, by simp [listed], (List.singleton_infix_iff _ _).mpr opens⟩
      rw [List.singleton_infix_iff, ← List.count_pos_iff, absent] at within
      exact absurd within (by decide)

theorem fill_eq_filled_iff (graph : Graph) (distance : Nat) :
    fill graph distance = filled graph distance ↔
      ¬edgesMark <:+: nodesText graph ∧ ¬distanceMark <:+: nodesText graph ∧
        ¬distanceMark <:+: edgesText graph := by
  rw [fill_eq, filled_eq]
  constructor
  · intro same
    obtain ⟨edgesIn, edgesIn_zero, edgesIn_count⟩ := Text.exists_count_replace
      isMark_edgesMark.nonempty (edgesText graph) (nodesText graph)
    obtain ⟨reached, reached_zero, reached_count⟩ := Text.exists_count_replace
      isMark_distanceMark.nonempty (toString distance).toList
      (Text.replace edgesMark (edgesText graph) (nodesText graph))
    obtain ⟨reached', reached'_zero, reached'_count⟩ := Text.exists_count_replace
      isMark_distanceMark.nonempty (toString distance).toList (edgesText graph)
    -- What was brought in weighs as much as the marks that it took the place of.
    have balance (c : Char) (letter : c.isDigit = false) :
        edgesIn * (edgesText graph).count c =
          edgesIn * edgesMark.count c + (reached + reached') * distanceMark.count c := by
      have counts := congrArg (List.count c) same
      have some_line := closing_ne_nil distance
      rw [count_framed some_line _ _ c,
        count_framed some_line (nodesText graph) (edgesText graph) c] at counts
      have first := edgesIn_count c
      have second := reached_count c
      have third := reached'_count c
      rw [count_digits letter, Nat.mul_zero] at second third
      rw [Nat.add_mul]
      omega
    have braces := balance '\x7b' (by decide)
    have letters := balance 'G' (by decide)
    have doubled := balance 'D' (by decide)
    have counts : edgesMark.count '\x7b' = 0 ∧ distanceMark.count '\x7b' = 0 ∧
        edgesMark.count 'G' = 1 ∧ distanceMark.count 'G' = 0 ∧ distanceMark.count 'D' = 2 := by
      decide
    obtain ⟨edgesBrace, distanceBrace, edgesG, distanceG, distanceD⟩ := counts
    rw [edgesBrace, distanceBrace] at braces
    rw [edgesG, distanceG] at letters
    rw [distanceD] at doubled
    have none_in : edgesIn = 0 := by
      rcases Nat.mul_eq_zero.mp braces with zero | blank
      · exact zero
      · rw [edgesText_eq_nil_of_count blank, List.count_nil] at letters
        omega
    have none_reached : reached = 0 ∧ reached' = 0 := by
      rw [none_in, Nat.zero_mul, Nat.zero_mul] at doubled
      omega
    have first := edgesIn_zero.mp none_in
    have second := reached_zero.mp none_reached.1
    rw [Text.replace_of_absent first] at second
    exact ⟨first, second, reached'_zero.mp none_reached.2⟩
  · rintro ⟨first, second, third⟩
    rw [Text.replace_of_absent first, Text.replace_of_absent second, Text.replace_of_absent third]

/-! ## Reading -/

theorem readNodeLine?_nodeLine (node : String) : readNodeLine? (nodeLine node) = some node := by
  have read : Record.read? nodeKeys (nodeLine node) =
      some [node.toList, Text.joinWith ['\n'] (Text.segments node.toList)] :=
    Record.read?_line
      (.cons (Text.Quoted.written_escape _) (.cons (Text.written_label _) .nil)) rfl
  simp [readNodeLine?, read]

theorem readEdgeLine?_edgeLine (link : String × String) :
    readEdgeLine? (edgeLine link) = some link := by
  have read : Record.read? edgeKeys (edgeLine link) = some [link.1.toList, link.2.toList] :=
    Record.read?_line
      (.cons (Text.Quoted.written_escape _) (.cons (Text.Quoted.written_escape _) .nil)) rfl
  simp [readEdgeLine?, read]

theorem newline_notMem_nodeLine (node : String) : '\n' ∉ nodeLine node :=
  Record.newline_notMem_line (by decide) rfl
    (by simp [Text.Quoted.newline_notMem_escape, Text.newline_notMem_label])

theorem newline_notMem_edgeLine (link : String × String) : '\n' ∉ edgeLine link :=
  Record.newline_notMem_line (by decide) rfl (by simp [Text.Quoted.newline_notMem_escape])

def orBlank (lines : List (List Char)) : List (List Char) :=
  if lines.isEmpty then [[]] else lines

theorem flatMap_orBlank (lines : List (List Char)) :
    (orBlank lines).flatMap (· ++ ['\n']) = Text.joinWith ['\n'] lines ++ ['\n'] := by
  cases lines with
  | nil => rfl
  | cons line others => exact Text.flatMap_append_eq_joinWith (List.cons_ne_nil _ _)

theorem unbroken_orBlank {lines : List (List Char)} (unbroken : Text.Unbroken lines) :
    Text.Unbroken (orBlank lines) := by
  cases lines with
  | nil => simp [orBlank, Text.Unbroken]
  | cons line others => exact unbroken

theorem readArray_orBlank {α : Type} {line? : List Char → Option α} {write : α → List Char}
    (reads : ∀ value, line? (write value) = some value) (blank : line? [] = none)
    (values : List α) {rest : List (List Char)} (stops : rest.head?.bind line? = none) :
    readArray line? (orBlank (values.map write) ++ rest) = (values, rest) := by
  cases values with
  | nil => rfl
  | cons value values =>
      have read := Record.readWhile_append reads (value :: values) stops
      cases written : write value with
      | nil =>
          have both := reads value
          rw [written, blank] at both
          exact absurd both (by simp)
      | cons c others =>
          simp only [List.map_cons, written, List.cons_append] at read
          simpa [orBlank, readArray, written] using read

theorem pieces_framed {nodes edges after : List (List Char)} (some_line : after ≠ [])
    (nodesUnbroken : Text.Unbroken nodes) (edgesUnbroken : Text.Unbroken edges) :
    Text.pieces (· == '\n')
        (framed (Text.joinWith ['\n'] nodes) (Text.joinWith ['\n'] edges) after) =
      beforeNodes ++ (orBlank nodes ++ (beforeEdges ++ (orBlank edges ++
        Text.pieces (· == '\n') (Text.joinWith ['\n'] after)))) := by
  have lines : framed (Text.joinWith ['\n'] nodes) (Text.joinWith ['\n'] edges) after =
      (beforeNodes ++ orBlank nodes ++ beforeEdges ++ orBlank edges).flatMap (· ++ ['\n']) ++
        Text.joinWith ['\n'] after := by
    rw [framed_eq some_line]
    simp only [List.flatMap_append, List.flatMap_singleton, flatMap_orBlank]
  have before : Text.Unbroken beforeNodes := fun line listed =>
    (plain_before line (List.mem_append_left _ listed)).2
  have between : Text.Unbroken beforeEdges := fun line listed =>
    (plain_before line (List.mem_append_right _ listed)).2
  have unbroken :=
    ((before.append (unbroken_orBlank nodesUnbroken)).append between).append
      (unbroken_orBlank edgesUnbroken)
  rw [lines, Text.pieces_flatMap_append unbroken]
  simp only [List.append_assoc]

theorem exists_pieces_closing (distance : Nat) :
    ∃ rest, Text.pieces (· == '\n') (Text.joinWith ['\n'] (closing distance)) =
      afterEdges.take 1 ++ rest := by
  have split : closing distance = afterEdges.take 1 ++ (closing distance).drop 1 := by
    have first : (closing distance).take 1 = afterEdges.take 1 := by
      rw [closing, ← List.map_take]
      exact map_replace_of_absent (by decide) _
    rw [← first, List.take_append_drop]
  have more : (closing distance).drop 1 ≠ [] := by
    rw [ne_eq, List.drop_eq_nil_iff, Nat.not_le]
    exact one_lt_length_closing distance
  rw [split, Text.joinWith_append more, Text.pieces_flatMap_append (by decide)]
  exact ⟨_, rfl⟩

/-! ## The page -/

/-- No name holds a mark that is filled after the name has come in. -/
structure Unmarked (graph : Graph) : Prop where
  nodes : ∀ node ∈ graph.nodeList,
    ¬edgesMark <:+: node.toList ∧ ¬distanceMark <:+: node.toList
  links : ∀ link ∈ graph.links,
    ¬distanceMark <:+: link.1.toList ∧ ¬distanceMark <:+: link.2.toList

theorem unmarked_iff :
    Unmarked graph ↔
      ¬edgesMark <:+: nodesText graph ∧ ¬distanceMark <:+: nodesText graph ∧
        ¬distanceMark <:+: edgesText graph := by
  rw [infix_nodesText_iff isMark_edgesMark, infix_nodesText_iff isMark_distanceMark,
    infix_edgesText_iff isMark_distanceMark]
  simp only [not_exists, not_and, not_or]
  constructor
  · intro unmarked
    exact ⟨fun node listed => (unmarked.nodes node listed).1,
      fun node listed => (unmarked.nodes node listed).2, unmarked.links⟩
  · rintro ⟨edges, nodes, links⟩
    exact ⟨fun node listed => ⟨edges node listed, nodes node listed⟩, links⟩

theorem unmarked_iff_of_closed (closed : graph.Closed) :
    Unmarked graph ↔ ∀ node ∈ graph.nodeList,
      ¬edgesMark <:+: node.toList ∧ ¬distanceMark <:+: node.toList := by
  refine ⟨Unmarked.nodes, fun nodes => ⟨nodes, fun link listed => ?_⟩⟩
  obtain ⟨source, target⟩ := Graph.touches_of_mem_links listed
  rw [← closed, ← Graph.mem_nodeList] at source target
  exact ⟨(nodes _ source).2, (nodes _ target).2⟩

theorem page_eq_iff (graph : Graph) (distance : Nat) :
    graph.page distance = String.ofList (filled graph distance) ↔ Unmarked graph := by
  rw [Graph.page, String.ofList_inj, fill_eq_filled_iff, unmarked_iff]

theorem read?_filled (graph : Graph) (distance : Nat) :
    read? (filled graph distance) = some (graph.nodeList, graph.links) := by
  obtain ⟨rest, ends⟩ := exists_pieces_closing distance
  have nodesEnd (rest : List (List Char)) :
      (beforeEdges ++ rest).head?.bind readNodeLine? = none := by
    rw [List.head?_append_of_ne_nil _ (by decide)]
    decide
  have edgesEnd : (afterEdges.take 1 ++ rest).head?.bind readEdgeLine? = none := by
    rw [List.head?_append_of_ne_nil _ (by decide)]
    decide
  have nodesUnbroken := Text.unbroken_map newline_notMem_nodeLine graph.nodeList
  have edgesUnbroken := Text.unbroken_map newline_notMem_edgeLine graph.links
  rw [filled_eq, read?, nodesText, edgesText,
    pieces_framed (closing_ne_nil distance) nodesUnbroken edgesUnbroken, ends]
  have nodes := readArray_orBlank readNodeLine?_nodeLine (by decide) graph.nodeList
    (nodesEnd (orBlank (graph.links.map edgeLine) ++ (afterEdges.take 1 ++ rest)))
  have edges := readArray_orBlank readEdgeLine?_edgeLine (by decide) graph.links edgesEnd
  simp only [readLines?, Record.afterLines?_append, Option.bind_eq_bind, Option.bind_some,
    nodes, edges]
  rfl

/-- Filled at once, the page has a line for every node and for every edge between fixed lines,
and it can be read back, whatever the names are.  The page itself is that one if and only if no
name holds a mark that is filled after the name has come in; it is enough to look at the nodes
where these are the nodes of the edge map. -/
theorem page_eq_filled_iff_unmarked (graph : Graph) (distance : Nat) :
    ∃ nodes links, graph.Listed nodes links ∧
      filled graph distance =
        framed (Text.joinWith ['\n'] (nodes.map nodeLine))
          (Text.joinWith ['\n'] (links.map edgeLine)) (closing distance) ∧
      read? (filled graph distance) = some (nodes, links) ∧
      (graph.page distance = String.ofList (filled graph distance) ↔ Unmarked graph) ∧
      (Unmarked graph → read? (graph.page distance).toList = some (nodes, links)) ∧
      (graph.Closed → (Unmarked graph ↔
        ∀ node ∈ nodes, ¬edgesMark <:+: node.toList ∧ ¬distanceMark <:+: node.toList)) := by
  have read := read?_filled graph distance
  refine ⟨graph.nodeList, graph.links, graph.listed, filled_eq graph distance, read,
    page_eq_iff graph distance, ?_, unmarked_iff_of_closed⟩
  intro unmarked
  rw [(page_eq_iff graph distance).mpr unmarked, String.toList_ofList, read]

/-- The edges come into the name of the second node, and the array of nodes breaks off there. -/
theorem page_unreadable_of_edgesMark :
    let graph := (∅ : Graph).addEdge "A" "__EDGES__"
    graph.page 400 ≠ String.ofList (filled graph 400) ∧
      read? (graph.page 400).toList = none := by
  intro graph
  have unreadable : read? (graph.page 400).toList = none := by
    rw [Graph.page, String.toList_ofList]
    decide +kernel
  refine ⟨fun same => ?_, unreadable⟩
  rw [same, String.toList_ofList, read?_filled] at unreadable
  exact absurd unreadable (by simp)

end Lineage.Page
