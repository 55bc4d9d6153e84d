import Lineage.Document.Data
import Lineage.Proofs.Document.Record
import Lineage.Proofs.Graph.Links

/-!
# The data document read back

Every name keeps to its line, so that the lines of the document are those that were written,
and the reader finds the nodes and the links in them.  Hence the document tells graphs apart by
their nodes and by the targets of every source.
-/

namespace Lineage.Data

/-! ## Reading what was written -/

theorem readNodeLine?_nodeLine (node : String) : readNodeLine? (nodeLine node) = some node := by
  have read : Record.read? nodeKeys (nodeLine node) = some [node.toList] :=
    Record.read?_line (.cons (Text.Quoted.written_escape _) .nil) rfl
  simp [readNodeLine?, read]

theorem readLinkLine?_linkLine (link : String × String) :
    readLinkLine? (linkLine link) = some link := by
  have read : Record.read? linkKeys (linkLine link) = some [link.1.toList, link.2.toList] :=
    Record.read?_line
      (.cons (Text.Quoted.written_escape _) (.cons (Text.Quoted.written_escape _) .nil)) rfl
  simp [readLinkLine?, read]

theorem read_fixed_eq_none :
    ∀ line ∈ opening ++ middle ++ closing,
      readNodeLine? line = none ∧ readLinkLine? line = none := by
  decide

theorem readLines?_lines (graph : Graph) :
    readLines? (lines graph) = some (graph.nodeList, graph.links) := by
  have nodesEnd (rest : List (List Char)) : (middle ++ rest).head?.bind readNodeLine? = none := by
    rw [List.head?_append_of_ne_nil _ (by decide)]
    decide
  have linksEnd : closing.head?.bind readLinkLine? = none := by decide
  simp only [readLines?, lines, List.append_assoc, Record.afterLines?_append, Option.bind_eq_bind,
    Option.bind_some, Record.readWhile_append readNodeLine?_nodeLine graph.nodeList (nodesEnd _),
    Record.readWhile_append readLinkLine?_linkLine graph.links linksEnd]
  rfl

/-! ## Lines -/

theorem newline_notMem_nodeLine (node : String) : '\n' ∉ nodeLine node :=
  Record.newline_notMem_line (by decide) rfl (by simp [Text.Quoted.newline_notMem_escape])

theorem newline_notMem_linkLine (link : String × String) : '\n' ∉ linkLine link :=
  Record.newline_notMem_line (by decide) rfl (by simp [Text.Quoted.newline_notMem_escape])

theorem unbroken_lines (graph : Graph) : Text.Unbroken (lines graph) := by
  have opens : Text.Unbroken opening := by decide
  have between : Text.Unbroken middle := by decide
  have closes : Text.Unbroken closing := by decide
  have nodes := Text.unbroken_map newline_notMem_nodeLine graph.nodeList
  have links := Text.unbroken_map newline_notMem_linkLine graph.links
  exact (((opens.append nodes).append between).append links).append closes

theorem splitLines?_text (graph : Graph) : splitLines? (text graph) = some (lines graph) := by
  have cut := Text.pieces_flatMap_append (unbroken_lines graph) []
  rw [List.append_nil] at cut
  simp [splitLines?, text, cut]

theorem read?_data_eq (graph : Graph) :
    read? graph.data = some (graph.nodeList, graph.links) := by
  simp only [read?, Graph.data, String.toList_ofList, splitLines?_text, Option.bind_eq_bind,
    Option.bind_some, readLines?_lines]

theorem length_lines (graph : Graph) :
    (lines graph).length = 11 + graph.nodeCount + graph.edgeCount := by
  have opens : opening.length = 4 := rfl
  have between : middle.length = 3 := rfl
  have closes : closing.length = 4 := rfl
  simp only [lines, List.length_append, List.length_map, Graph.length_nodeList,
    Graph.length_links, opens, between, closes]
  omega

theorem data_eq_iff {graph other : Graph} :
    graph.data = other.data ↔
      graph.nodes = other.nodes ∧ ∀ source, graph.targets source = other.targets source := by
  rw [← Graph.nodeList_eq_iff, ← Graph.links_eq_iff]
  constructor
  · intro same
    have read := read?_data_eq graph
    rw [same, read?_data_eq, Option.some.injEq, Prod.mk.injEq] at read
    exact ⟨read.1.symm, read.2.symm⟩
  · rintro ⟨nodes, links⟩
    simp only [Graph.data, text, lines, nodes, links]

theorem exists_body (graph : Graph) :
    ∃ body, graph.data.toList = body ++ ['\n'] ∧
      Text.pieces (· == '\n') body = lines graph := by
  have some_line : lines graph ≠ [] := by
    rw [← List.length_pos_iff, length_lines]
    omega
  refine ⟨Text.joinWith ['\n'] (lines graph), ?_, ?_⟩
  · rw [Graph.data, String.toList_ofList, text, Text.flatMap_append_eq_joinWith some_line]
  · exact Text.pieces_joinWith (unbroken_lines graph) some_line

/-- The document has a line for every node and for every link, in order, and eleven lines
besides.  No name can make another line of its own or pass for one of the eleven, so that a
reader gets back the nodes and the links, and graphs have the same document if and only if
they have the same nodes and the same targets at every source. -/
theorem data_read_back (graph : Graph) :
    ∃ nodes links, graph.Listed nodes links ∧
      nodes.length = graph.nodeCount ∧ links.length = graph.edgeCount ∧
      (∃ body, graph.data.toList = body ++ ['\n'] ∧
        Text.pieces (· == '\n') body =
          opening ++ nodes.map nodeLine ++ middle ++ links.map linkLine ++ closing ∧
        (Text.pieces (· == '\n') body).length = 11 + nodes.length + links.length) ∧
      opening.getLast? = some "    nodes: [".toList ∧
      middle.getLast? = some "    links: [".toList ∧
      (∀ line ∈ opening ++ middle ++ closing,
        readNodeLine? line = none ∧ readLinkLine? line = none) ∧
      read? graph.data = some (nodes, links) ∧
      ∀ other : Graph, graph.data = other.data ↔
        graph.nodes = other.nodes ∧ ∀ source, graph.targets source = other.targets source := by
  obtain ⟨body, ends, cut⟩ := exists_body graph
  refine ⟨graph.nodeList, graph.links, graph.listed, graph.length_nodeList, graph.length_links,
    ⟨body, ends, cut, ?_⟩, rfl, rfl, read_fixed_eq_none, read?_data_eq graph,
    fun _ => data_eq_iff⟩
  rw [cut, length_lines, Graph.length_nodeList, Graph.length_links]

end Lineage.Data
