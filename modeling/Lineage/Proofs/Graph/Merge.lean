import Lineage.Normalization
import Mathlib.Data.List.Basic

/-!
# Merging graphs

A graph is known by its nodes and by the target list of every source.  Adding edges and merging
are described by what they do to these two, and it follows that whatever is added to a merged
graph may as well have been added before the merge.
-/

open Std

namespace Lineage.Graph

variable {graph other : Graph} {node source : String}

theorem eq_of_nodes_of_edges (nodes : ∀ node, node ∈ graph.nodes ↔ node ∈ other.nodes)
    (edges : ∀ source : String, graph.edges[source]? = other.edges[source]?) :
    graph = other := by
  obtain ⟨graphNodes, graphEdges⟩ := graph
  obtain ⟨otherNodes, otherEdges⟩ := other
  have sameNodes : graphNodes = otherNodes := ExtTreeSet.ext_mem nodes
  have sameEdges : graphEdges = otherEdges := ExtTreeMap.ext_getElem? edges
  rw [sameNodes, sameEdges]

theorem joined_assoc (first second third : Option (List String)) :
    Option.merge (· ++ ·) (Option.merge (· ++ ·) first second) third =
      Option.merge (· ++ ·) first (Option.merge (· ++ ·) second third) :=
  (Option.associative_merge _).assoc first second third

/-! ## Adding edges -/

@[simp] theorem getElem?_edges_empty : (∅ : Graph).edges[source]? = none :=
  ExtTreeMap.getElem?_empty

private theorem mem_foldl_insert (targets : List String) (nodes : ExtTreeSet String) :
    node ∈ targets.foldl ExtTreeSet.insert nodes ↔ node ∈ nodes ∨ node ∈ targets := by
  induction targets generalizing nodes with
  | nil => simp
  | cons target targets ih =>
      rw [List.foldl_cons, ih]
      simp only [ExtTreeSet.mem_insert, Std.compare_eq_iff_eq, List.mem_cons,
        eq_comm (a := target)]
      rw [or_assoc, or_left_comm]

theorem mem_nodes_addEdges (graph : Graph) (targets : List String) :
    node ∈ (graph.addEdges source targets).nodes ↔
      node ∈ graph.nodes ∨ node = source ∨ node ∈ targets := by
  simp only [addEdges, mem_foldl_insert, ExtTreeSet.mem_insert, Std.compare_eq_iff_eq,
    eq_comm (a := source)]
  rw [or_assoc, or_left_comm]

theorem getElem?_edges_addEdges (graph : Graph) (start : String) (targets : List String) :
    (graph.addEdges start targets).edges[source]? =
      Option.merge (· ++ ·) graph.edges[source]?
        (if start = source then some targets else none) := by
  by_cases same : start = source
  · subst same
    cases present : graph.edges[start]? <;> simp [addEdges, present]
  · simp [addEdges, ExtTreeMap.getElem?_alter, same]

/-- The targets that a list of edges adds to a source, unless it never names the source. -/
def pooled (source : String) : List (String × List String) → Option (List String)
  | [] => none
  | edge :: rest =>
      Option.merge (· ++ ·) (if edge.1 = source then some edge.2 else none)
        (pooled source rest)

theorem pooled_eq_none {edges : List (String × List String)}
    (absent : ∀ edge ∈ edges, edge.1 ≠ source) : pooled source edges = none := by
  induction edges with
  | nil => rfl
  | cons edge rest ih =>
      have other := absent edge (.head _)
      have others := ih fun edge listed => absent edge (.tail _ listed)
      simp [pooled, other, others]

theorem pooled_eq_some_iff {edges : List (String × List String)} {targets : List String}
    (distinct : edges.Pairwise fun first second => first.1 ≠ second.1) :
    pooled source edges = some targets ↔ (source, targets) ∈ edges := by
  induction edges with
  | nil => simp [pooled]
  | cons edge rest ih =>
      obtain ⟨start, ends⟩ := edge
      obtain ⟨first, distinct⟩ := List.pairwise_cons.mp distinct
      by_cases same : start = source
      · subst same
        have absent := pooled_eq_none fun edge listed => (first edge listed).symm
        have fresh : (start, targets) ∉ rest := fun listed => first _ listed rfl
        simp [pooled, absent, fresh, eq_comm]
      · have differs : source ≠ start := fun h => same h.symm
        simp [pooled, same, ih distinct, differs]

theorem pooled_toList_edges (graph : Graph) (source : String) :
    pooled source graph.edges.toList = graph.edges[source]? := by
  have distinct : graph.edges.toList.Pairwise fun first second => first.1 ≠ second.1 :=
    ExtTreeMap.distinct_keys_toList.imp fun differs same => differs (by simp [same])
  ext targets
  rw [pooled_eq_some_iff distinct, ExtTreeMap.mem_toList_iff_getElem?_eq_some]

theorem getElem?_edges_addAll (graph : Graph) (edges : List (String × List String)) :
    (graph.addAll edges).edges[source]? =
      Option.merge (· ++ ·) graph.edges[source]? (pooled source edges) := by
  induction edges generalizing graph with
  | nil => simp [pooled]
  | cons edge rest ih =>
      rw [addAll_cons, ih, getElem?_edges_addEdges, pooled, joined_assoc]

theorem mem_nodes_addAll (graph : Graph) (edges : List (String × List String)) :
    node ∈ (graph.addAll edges).nodes ↔
      node ∈ graph.nodes ∨ ∃ edge ∈ edges, node = edge.1 ∨ node ∈ edge.2 := by
  induction edges generalizing graph with
  | nil => simp
  | cons edge rest ih =>
      rw [addAll_cons, ih, mem_nodes_addEdges, or_assoc]
      simp [or_assoc]

/-! ## Merging -/

def Touches (graph : Graph) (node : String) : Prop :=
  ∃ source targets, graph.edges[source]? = some targets ∧ (node = source ∨ node ∈ targets)

theorem merge_eq_addAll (graph other : Graph) :
    graph.merge other = graph.addAll other.edges.toList := rfl

theorem getElem?_edges_merge (graph other : Graph) :
    (graph.merge other).edges[source]? =
      Option.merge (· ++ ·) graph.edges[source]? other.edges[source]? := by
  rw [merge_eq_addAll, getElem?_edges_addAll, pooled_toList_edges]

theorem mem_nodes_merge (graph other : Graph) :
    node ∈ (graph.merge other).nodes ↔ node ∈ graph.nodes ∨ other.Touches node := by
  rw [merge_eq_addAll, mem_nodes_addAll]
  simp [Touches, ExtTreeMap.mem_toList_iff_getElem?_eq_some]

theorem touches_addEdges (graph : Graph) (start : String) (targets : List String) :
    (graph.addEdges start targets).Touches node ↔
      graph.Touches node ∨ node = start ∨ node ∈ targets := by
  constructor
  · rintro ⟨source, list, present, here⟩
    rw [getElem?_edges_addEdges] at present
    by_cases same : start = source
    · subst same
      cases before : graph.edges[start]? with
      | none =>
          simp only [before, if_true, Option.merge_none_left, Option.some.injEq] at present
          exact .inr (present ▸ here)
      | some list' =>
          simp only [before, if_true, Option.merge_some_some, Option.some.injEq] at present
          subst present
          rw [List.mem_append] at here
          rcases here with start_ | old | new
          · exact .inr (.inl start_)
          · exact .inl ⟨start, list', before, .inr old⟩
          · exact .inr (.inr new)
    · simp only [same, if_false, Option.merge_none_right] at present
      exact .inl ⟨source, list, present, here⟩
  · rintro (⟨source, list, present, here⟩ | new)
    · by_cases same : start = source
      · subst same
        refine ⟨start, list ++ targets, ?_, here.imp_right (List.mem_append_left _)⟩
        simp [getElem?_edges_addEdges, present]
      · refine ⟨source, list, ?_, here⟩
        simp [getElem?_edges_addEdges, present, same]
    · cases before : graph.edges[start]? with
      | none =>
          refine ⟨start, targets, ?_, new⟩
          simp [getElem?_edges_addEdges, before]
      | some list =>
          refine ⟨start, list ++ targets, ?_, new.imp_right (List.mem_append_right _)⟩
          simp [getElem?_edges_addEdges, before]

@[simp] theorem merge_empty (graph : Graph) : graph.merge ∅ = graph := by
  apply eq_of_nodes_of_edges
  · simp [mem_nodes_merge, Touches]
  · simp [getElem?_edges_merge]

theorem merge_addEdges (graph other : Graph) (source : String) (targets : List String) :
    graph.merge (other.addEdges source targets) =
      (graph.merge other).addEdges source targets := by
  apply eq_of_nodes_of_edges
  · intro node
    rw [mem_nodes_merge, touches_addEdges, mem_nodes_addEdges, mem_nodes_merge, or_assoc]
  · intro start
    rw [getElem?_edges_merge, getElem?_edges_addEdges, getElem?_edges_addEdges,
      getElem?_edges_merge, joined_assoc]

theorem merge_addAll (graph other : Graph) (edges : List (String × List String)) :
    graph.merge (other.addAll edges) = (graph.merge other).addAll edges := by
  induction edges generalizing other with
  | nil => rfl
  | cons edge rest ih => rw [addAll_cons, ih, merge_addEdges, addAll_cons]

end Lineage.Graph
