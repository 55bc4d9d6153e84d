import Lineage.Proofs.Graph.History
import Lineage.Proofs.Text.Order
import Mathlib.Algebra.BigOperators.Group.Finset.Basic
import Mathlib.Data.List.Sort

/-!
# The algebra of merging

Merging appends lists of targets, so that it is associative as it stands and commutative up to
the order in which targets come.  The empty graph is neutral on the right for every graph, and
on the left for every graph that was built by adding edges and merging: such a graph has no node
that its edge map does not name.
-/

open Std

namespace Lineage.Graph

variable {graph other : Graph} {source : String}

/-! ## Reachable graphs -/

inductive Reachable : Graph → Prop where
  | empty : Reachable ∅
  | addEdge {built : Graph} (source target : String) :
      Reachable built → Reachable (built.addEdge source target)
  | addEdges {built : Graph} (source : String) (targets : List String) :
      Reachable built → Reachable (built.addEdges source targets)
  | merge {built added : Graph} :
      Reachable built → Reachable added → Reachable (built.merge added)

theorem Reachable.closed (reachable : graph.Reachable) : graph.Closed := by
  induction reachable with
  | empty => exact closed_empty
  | addEdge source target _ ih => exact ih.addEdges source [target]
  | addEdges source targets _ ih => exact ih.addEdges source targets
  | merge _ _ ih _ => exact ih.merge _

/-! ## Monoid laws -/

theorem merge_assoc (graph other third : Graph) :
    (graph.merge other).merge third = graph.merge (other.merge third) :=
  (merge_addAll graph other third.edges.toList).symm

theorem Closed.empty_merge (closed : graph.Closed) : (∅ : Graph).merge graph = graph := by
  apply eq_of_nodes_of_edges
  · intro node
    rw [mem_nodes_merge, closed]
    simp [closed_empty node, Touches]
  · simp [getElem?_edges_merge]

/-! ## Targets and counts -/

theorem targets_merge (graph other : Graph) (source : String) :
    (graph.merge other).targets source = graph.targets source ++ other.targets source := by
  rw [targets, getElem?_edges_merge, targets, targets]
  cases graph.edges[source]? <;> cases other.edges[source]? <;> simp

theorem mem_edges_merge :
    source ∈ (graph.merge other).edges ↔ source ∈ graph.edges ∨ source ∈ other.edges := by
  simp only [ExtTreeMap.mem_iff_isSome_getElem?, getElem?_edges_merge]
  cases graph.edges[source]? <;> cases other.edges[source]? <;> simp

theorem targets_eq_nil_of_notMem (absent : source ∉ graph.edges) : graph.targets source = [] := by
  rw [targets, ExtTreeMap.getElem?_eq_none absent]
  rfl

/-- Links are counted source by source, and a name that is no source counts for nothing. -/
theorem edgeCount_eq_sum {sources : Finset String}
    (all : ∀ source ∈ graph.edges, source ∈ sources) :
    graph.edgeCount = ∑ source ∈ sources, (graph.targets source).length := by
  have distinct : graph.edges.keys.Nodup :=
    ExtTreeMap.distinct_keys.imp fun differs same => differs (by simp [same])
  rw [edgeCount_eq, ← List.sum_toFinset _ distinct]
  apply Finset.sum_subset
  · intro source listed
    exact all source (ExtTreeMap.mem_keys.mp (List.mem_toFinset.mp listed))
  · intro source _ unlisted
    have absent : source ∉ graph.edges := by
      rwa [List.mem_toFinset, ExtTreeMap.mem_keys] at unlisted
    rw [targets_eq_nil_of_notMem absent, List.length_nil]

theorem edgeCount_merge (graph other : Graph) :
    (graph.merge other).edgeCount = graph.edgeCount + other.edgeCount := by
  let sources : Finset String := (graph.merge other).edges.keys.toFinset
  have all : ∀ source ∈ (graph.merge other).edges, source ∈ sources := fun source present =>
    List.mem_toFinset.mpr (ExtTreeMap.mem_keys.mpr present)
  rw [edgeCount_eq_sum all,
    edgeCount_eq_sum fun source present => all source (mem_edges_merge.mpr (.inl present)),
    edgeCount_eq_sum fun source present => all source (mem_edges_merge.mpr (.inr present)),
    ← Finset.sum_add_distrib]
  simp [targets_merge]

/-! ## Either order -/

theorem Closed.nodes_merge_comm (closed : graph.Closed) (closedOther : other.Closed) :
    (graph.merge other).nodes = (other.merge graph).nodes := by
  apply ExtTreeSet.ext_mem
  intro node
  rw [closed.merge, closedOther.merge, touches_merge, touches_merge, or_comm]

theorem keys_merge_comm (graph other : Graph) :
    (graph.merge other).edges.keys = (other.merge graph).edges.keys := by
  have ordered : ∀ any : Graph, any.edges.keys.Pairwise (· < ·) := fun _ =>
    ExtTreeMap.ordered_keys.imp fun less => Text.compare_eq_lt_iff.mp less
  refine (ordered _).eq_of_mem_iff (ordered _) fun source => ?_
  rw [ExtTreeMap.mem_keys, ExtTreeMap.mem_keys, mem_edges_merge, mem_edges_merge, or_comm]

theorem merge_comm_iff (closed : graph.Closed) (closedOther : other.Closed) :
    graph.merge other = other.merge graph ↔
      ∀ source, graph.targets source ++ other.targets source =
        other.targets source ++ graph.targets source := by
  constructor
  · intro same source
    rw [← targets_merge, same, targets_merge]
  · intro same
    rw [(closed.merge other).eq_iff (closedOther.merge graph)]
    apply ExtTreeMap.ext_getElem?
    intro source
    have both := same source
    rw [targets, targets] at both
    rw [getElem?_edges_merge, getElem?_edges_merge]
    cases first : graph.edges[source]? <;> cases second : other.edges[source]? <;>
      simp_all

/-! ## The laws together -/

/-- Merging is associative, target order included, the empty graph is neutral on both sides, and
links add up.  The order of two graphs matters only for the order of targets: nodes and sources
are the same, each source has the same targets as often, and the results are equal exactly when
the target lists of every source commute. -/
theorem merge_laws {graph other : Graph} (reachable : graph.Reachable)
    (reachableOther : other.Reachable) (third : Graph) :
    (graph.merge other).merge third = graph.merge (other.merge third) ∧
    graph.merge ∅ = graph ∧ (∅ : Graph).merge graph = graph ∧
    (graph.merge other).edgeCount = graph.edgeCount + other.edgeCount ∧
    (graph.merge other).nodes = (other.merge graph).nodes ∧
    (graph.merge other).edges.keys = (other.merge graph).edges.keys ∧
    (∀ source, ((graph.merge other).targets source).Perm ((other.merge graph).targets source)) ∧
    (graph.merge other = other.merge graph ↔
      ∀ source, graph.targets source ++ other.targets source =
        other.targets source ++ graph.targets source) := by
  have closed := reachable.closed
  have closedOther := reachableOther.closed
  refine ⟨merge_assoc graph other third, merge_empty graph, closed.empty_merge,
    edgeCount_merge graph other, closed.nodes_merge_comm closedOther,
    keys_merge_comm graph other, fun source => ?_, merge_comm_iff closed closedOther⟩
  rw [targets_merge, targets_merge]
  exact List.perm_append_comm

/-- Two graphs that share a source with repeated targets and a source without any, and a third
that makes a target of theirs a source. -/
theorem merge_laws_of_shared_sources :
    let graph := ((∅ : Graph).addEdges "A" ["B", "B"]).addEdges "X" []
    let other := ((∅ : Graph).addEdges "X" []).merge ((∅ : Graph).addEdge "A" "C")
    let third := (∅ : Graph).addEdge "C" "A"
    graph.Reachable ∧ other.Reachable ∧
    (graph.merge other).merge third = graph.merge (other.merge third) ∧
    graph.merge ∅ = graph ∧ (∅ : Graph).merge graph = graph ∧
    (graph.merge other).edgeCount = graph.edgeCount + other.edgeCount ∧
    (graph.merge other).nodes = (other.merge graph).nodes ∧
    (graph.merge other).edges.keys = (other.merge graph).edges.keys ∧
    (∀ source, ((graph.merge other).targets source).Perm ((other.merge graph).targets source)) ∧
    (graph.merge other = other.merge graph ↔
      ∀ source, graph.targets source ++ other.targets source =
        other.targets source ++ graph.targets source) := by
  intro graph other third
  have reachable : graph.Reachable := .addEdges "X" [] (.addEdges "A" ["B", "B"] .empty)
  have reachableOther : other.Reachable :=
    .merge (.addEdges "X" [] .empty) (.addEdge "A" "C" .empty)
  exact ⟨reachable, reachableOther, merge_laws reachable reachableOther third⟩

end Lineage.Graph
