import Lineage.Proofs.Graph.Merge
import Lineage.Proofs.Text.Maps
import Mathlib.Data.List.Basic
import Mathlib.Data.List.Nodup

/-!
# The links of a graph

The nodes of a graph and its links, one by one, come in the order of their names, and each
source has its targets as they were added.  A list of links in order is known by the targets of
every source, so that the links of a graph are.
-/

open Std

namespace Lineage.Graph

variable {graph other : Graph} {node source : String}

/-! ## Nodes -/

theorem mem_nodeList : node ∈ graph.nodeList ↔ node ∈ graph.nodes :=
  ExtTreeSet.mem_toList

theorem pairwise_nodeList (graph : Graph) : graph.nodeList.Pairwise (· < ·) :=
  ExtTreeSet.ordered_toList.imp fun less => Text.compare_eq_lt_iff.mp less

theorem length_nodeList (graph : Graph) : graph.nodeList.length = graph.nodeCount :=
  ExtTreeSet.length_toList

theorem nodeList_eq_iff : graph.nodeList = other.nodeList ↔ graph.nodes = other.nodes := by
  constructor
  · intro same
    apply ExtTreeSet.ext_mem
    intro node
    rw [← mem_nodeList, same, mem_nodeList]
  · intro same
    rw [nodeList, nodeList, same]

/-! ## Links in order -/

theorem mem_edgeList {targets : List String} :
    (source, targets) ∈ graph.edgeList ↔ graph.edges[source]? = some targets :=
  ExtTreeMap.mem_toList_iff_getElem?_eq_some

theorem pairwise_edgeList (graph : Graph) :
    graph.edgeList.Pairwise fun first second => first.1 < second.1 :=
  Text.pairwise_toList graph.edges

theorem length_links (graph : Graph) : graph.links.length = graph.edgeCount := by
  rw [links, edgeCount, List.length_flatMap, List.sum_eq_foldl, List.foldl_map]
  simp

theorem pairwise_links (graph : Graph) :
    graph.links.Pairwise fun first second => first.1 ≤ second.1 := by
  rw [links, List.pairwise_flatMap]
  constructor
  · intro edge _
    rw [List.pairwise_map]
    exact List.pairwise_of_forall fun _ _ => String.le_refl _
  · refine graph.pairwise_edgeList.imp fun less link listed link' listed' => ?_
    obtain ⟨_, _, rfl⟩ := List.mem_map.mp listed
    obtain ⟨_, _, rfl⟩ := List.mem_map.mp listed'
    exact Std.le_of_lt less

def targetsAmong (source : String) (links : List (String × String)) : List String :=
  (links.filter (·.1 == source)).map Prod.snd

theorem targetsAmong_cons (link : String × String) (rest : List (String × String)) :
    targetsAmong source (link :: rest) =
      if link.1 = source then link.2 :: targetsAmong source rest
      else targetsAmong source rest := by
  by_cases same : link.1 = source <;> simp [targetsAmong, same]

theorem targetsAmong_append (source : String) (first second : List (String × String)) :
    targetsAmong source (first ++ second) =
      targetsAmong source first ++ targetsAmong source second := by
  rw [targetsAmong, List.filter_append, List.map_append]
  rfl

theorem targetsAmong_flatMap (edges : List (String × List String)) :
    targetsAmong source (edges.flatMap fun edge => edge.2.map (edge.1, ·)) =
      (pooled source edges).getD [] := by
  induction edges with
  | nil => rfl
  | cons edge rest ih =>
      obtain ⟨start, ends⟩ := edge
      simp only [targetsAmong, List.flatMap_cons, List.filter_append, List.map_append,
        pooled] at ih ⊢
      rw [ih]
      by_cases same : start = source
      · cases pooled source rest <;> simp [same, List.filter_map, Function.comp_def]
      · simp [same, List.filter_map, Function.comp_def]

theorem targetsAmong_links (graph : Graph) (source : String) :
    targetsAmong source graph.links = graph.targets source := by
  rw [links, edgeList, targetsAmong_flatMap, pooled_toList_edges, targets]

theorem le_of_targetsAmong_ne_nil {link : String × String} {rest : List (String × String)}
    (ordered : (link :: rest).Pairwise fun first second => first.1 ≤ second.1)
    (present : targetsAmong source (link :: rest) ≠ []) : link.1 ≤ source := by
  rw [targetsAmong_cons] at present
  split at present
  · rename_i same
    exact same ▸ String.le_refl _
  · rw [targetsAmong, ne_eq, List.map_eq_nil_iff, List.filter_eq_nil_iff] at present
    simp only [beq_iff_eq, not_forall, not_not] at present
    obtain ⟨later, listed, rfl⟩ := present
    exact List.rel_of_pairwise_cons ordered listed

/-- Links in order are known by the targets of every source. -/
theorem eq_of_targetsAmong {first second : List (String × String)}
    (ordered : first.Pairwise fun link link' => link.1 ≤ link'.1)
    (ordered' : second.Pairwise fun link link' => link.1 ≤ link'.1)
    (same : ∀ source, targetsAmong source first = targetsAmong source second) :
    first = second := by
  induction first generalizing second with
  | nil =>
      cases second with
      | nil => rfl
      | cons link' rest' =>
          have none_left := same link'.1
          simp [targetsAmong] at none_left
  | cons link rest ih =>
      cases second with
      | nil =>
          have none_right := same link.1
          simp [targetsAmong] at none_right
      | cons link' rest' =>
          obtain ⟨start, target⟩ := link
          obtain ⟨start', target'⟩ := link'
          have le : start ≤ start' := le_of_targetsAmong_ne_nil ordered (by
            rw [same, targetsAmong_cons]
            simp)
          have ge : start' ≤ start := le_of_targetsAmong_ne_nil ordered' (by
            rw [← same, targetsAmong_cons]
            simp)
          obtain rfl := String.le_antisymm le ge
          have heads := same start
          simp only [targetsAmong_cons, if_true, List.cons.injEq] at heads
          obtain ⟨rfl, _⟩ := heads
          have rests : rest = rest' := by
            apply ih ordered.of_cons ordered'.of_cons
            intro source
            have both := same source
            rw [targetsAmong_cons, targetsAmong_cons] at both
            split at both
            · exact (List.cons.inj both).2
            · exact both
          rw [rests]

theorem links_eq_iff :
    graph.links = other.links ↔ ∀ source, graph.targets source = other.targets source := by
  constructor
  · intro same source
    rw [← targetsAmong_links, same, targetsAmong_links]
  · intro same
    apply eq_of_targetsAmong graph.pairwise_links other.pairwise_links
    intro source
    rw [targetsAmong_links, targetsAmong_links, same]

theorem touches_of_mem_links {link : String × String} (listed : link ∈ graph.links) :
    graph.Touches link.1 ∧ graph.Touches link.2 := by
  have target : link.2 ∈ graph.targets link.1 := by
    rw [← targetsAmong_links, targetsAmong, List.mem_map]
    exact ⟨link, by simp [listed], rfl⟩
  rw [targets] at target
  cases present : graph.edges[link.1]? with
  | none => simp [present] at target
  | some targets =>
      rw [present] at target
      exact ⟨⟨link.1, targets, present, .inl rfl⟩, ⟨link.1, targets, present, .inr target⟩⟩

/-! ## Listings -/

structure Listed (graph : Graph) (nodes : List String) (links : List (String × String)) :
    Prop where
  nodes_ascend : nodes.Pairwise (· < ·)
  mem_nodes : ∀ node, node ∈ nodes ↔ node ∈ graph.nodes
  sources_ascend : links.Pairwise fun first second => first.1 ≤ second.1
  targets : ∀ source, targetsAmong source links = graph.targets source

theorem listed (graph : Graph) : graph.Listed graph.nodeList graph.links where
  nodes_ascend := graph.pairwise_nodeList
  mem_nodes _ := mem_nodeList
  sources_ascend := graph.pairwise_links
  targets := graph.targetsAmong_links

end Lineage.Graph
