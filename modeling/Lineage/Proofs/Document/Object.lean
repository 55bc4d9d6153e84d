import Lineage.Document.Object
import Lineage.Proofs.Graph.Links
import Lineage.Proofs.Text.Json

/-!
# Reading the JSON document back

A reader of JSON finds every name as it was, the nodes and the sources in order, and for every
source its targets as they were added.  With the empty target lists nothing of the graph is
missing.
-/

open Std

namespace Lineage.Graph

variable {graph : Graph}

/-! ## The value of a graph -/

theorem spelled_names (names : List String) : (Json.array (names.map .string)).Spelled := by
  refine .array fun item listed => ?_
  obtain ⟨name, _, rfl⟩ := List.mem_map.mp listed
  exact .string name

theorem spelled_toJson (graph : Graph) : graph.toJson.Spelled := by
  refine .object fun field listed => ?_
  simp only [List.mem_cons, List.not_mem_nil, or_false] at listed
  obtain rfl | rfl := listed
  · exact spelled_names graph.nodeList
  · refine .object fun field listed => ?_
    obtain ⟨edge, _, rfl⟩ := List.mem_map.mp listed
    exact spelled_names edge.2

theorem read?_json (graph : Graph) : Json.read? graph.json = some graph.toJson :=
  Json.read?_render graph.spelled_toJson

/-! ## The graph of a value -/

private theorem mapM_map_eq_some {α β : Type} {write : α → β} {read : β → Option α}
    (reads : ∀ value, read (write value) = some value) (values : List α) :
    (values.map write).mapM read = some values := by
  induction values with
  | nil => rfl
  | cons value values ih => simp [reads, ih]

theorem stringsOf?_names (names : List String) :
    stringsOf? (.array (names.map .string)) = some names := by
  apply mapM_map_eq_some
  intro name
  rfl

theorem ofList_nodeList (graph : Graph) : ExtTreeSet.ofList graph.nodeList = graph.nodes := by
  apply ExtTreeSet.ext_mem
  intro node
  rw [ExtTreeSet.mem_ofList, List.contains_iff_mem, mem_nodeList]

theorem ofJson?_toJson (graph : Graph) : ofJson? graph.toJson = some graph := by
  have edges : (graph.edgeList.map fun edge =>
      (edge.1, Json.array (edge.2.map .string))).mapM (fun edge => do
        let targets ← stringsOf? edge.2
        return (edge.1, targets)) = some graph.edgeList := by
    apply mapM_map_eq_some
    rintro ⟨source, targets⟩
    simp [stringsOf?_names]
  have rebuilt : (⟨.ofList graph.nodeList, .ofList graph.edgeList⟩ : Graph) = graph := by
    rw [ofList_nodeList, edgeList, Text.ofList_toList]
  rw [toJson, ofJson?, stringsOf?_names, edges]
  simp [rebuilt]

/-- Reading the document gives an object with two fields.  The one holds the nodes in order,
each once.  The other has a field for every source, in order and also where there are no
targets, and in it the targets of the source as they were added.  The graph can be rebuilt from
them. -/
theorem json_read_back (graph : Graph) :
    ∃ (nodes : List String) (edges : List (String × List String)),
      Json.read? graph.json = some (.object
        [("nodes", .array (nodes.map .string)),
         ("edges", .object (edges.map fun edge => (edge.1, .array (edge.2.map .string))))]) ∧
      nodes.Pairwise (· < ·) ∧ (∀ node, node ∈ nodes ↔ node ∈ graph.nodes) ∧
      edges.Pairwise (fun first second => first.1 < second.1) ∧
      (∀ source targets, (source, targets) ∈ edges ↔ graph.edges[source]? = some targets) ∧
      (Json.read? graph.json).bind ofJson? = some graph := by
  refine ⟨graph.nodeList, graph.edgeList, graph.read?_json, graph.pairwise_nodeList,
    fun _ => mem_nodeList, graph.pairwise_edgeList, fun _ _ => mem_edgeList, ?_⟩
  rw [read?_json, Option.bind_some, ofJson?_toJson]

end Lineage.Graph
