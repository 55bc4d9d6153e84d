import Lineage.Graph.History
import Lineage.Proofs.Graph.Merge
import Mathlib.Algebra.GroupWithZero.Nat
import Mathlib.Data.Finset.Card
import Mathlib.Data.List.Induction

/-!
# Graphs after a history

What a graph is after any number of steps can be read off the steps: every step that adds to a
source contributes one list of targets, and the target list of the source is these lists one
after the other.  The nodes are those that the edge map names, so that the edge map alone
determines the graph.
-/

open Std

namespace Lineage.Graph

variable {graph other : Graph} {node source name : String}

/-! ## Nodes -/

/-- The graph has the nodes that its edge map names, and no others. -/
def Closed (graph : Graph) : Prop :=
  ∀ node, node ∈ graph.nodes ↔ graph.Touches node

theorem touches_addAll (graph : Graph) (edges : List (String × List String)) :
    (graph.addAll edges).Touches node ↔
      graph.Touches node ∨ ∃ edge ∈ edges, node = edge.1 ∨ node ∈ edge.2 := by
  induction edges generalizing graph with
  | nil => simp
  | cons edge rest ih =>
      rw [addAll_cons, ih, touches_addEdges, or_assoc]
      simp [or_assoc]

theorem touches_merge (graph other : Graph) :
    (graph.merge other).Touches node ↔ graph.Touches node ∨ other.Touches node := by
  rw [merge_eq_addAll, touches_addAll]
  simp [Touches, ExtTreeMap.mem_toList_iff_getElem?_eq_some]

theorem closed_empty : (∅ : Graph).Closed := by
  intro node
  have absent : node ∉ (∅ : Graph).nodes := ExtTreeSet.not_mem_empty
  simp [absent, Touches]

theorem Closed.addEdges (closed : graph.Closed) (source : String) (targets : List String) :
    (graph.addEdges source targets).Closed := by
  intro node
  rw [mem_nodes_addEdges, touches_addEdges, closed node]

theorem Closed.merge (closed : graph.Closed) (other : Graph) : (graph.merge other).Closed := by
  intro node
  rw [mem_nodes_merge, touches_merge, closed node]

theorem Closed.eq_iff (closed : graph.Closed) (closedOther : other.Closed) :
    graph = other ↔ graph.edges = other.edges := by
  constructor
  · rintro rfl
    rfl
  · intro same
    apply eq_of_nodes_of_edges
    · intro node
      rw [closed, closedOther, Touches, Touches, same]
    · intro source
      rw [same]

theorem targets_eq_of_getElem? {targets : List String}
    (present : graph.edges[source]? = some targets) : graph.targets source = targets := by
  rw [Graph.targets, present]
  rfl

theorem touches_iff :
    graph.Touches node ↔
      ∃ source ∈ graph.edges, node = source ∨ node ∈ graph.targets source := by
  constructor
  · rintro ⟨source, targets, present, here⟩
    have known : source ∈ graph.edges := by
      rw [ExtTreeMap.mem_iff_isSome_getElem?, present]
      rfl
    exact ⟨source, known, by rwa [targets_eq_of_getElem? present]⟩
  · rintro ⟨source, known, here⟩
    rw [ExtTreeMap.mem_iff_isSome_getElem?, Option.isSome_iff_exists] at known
    obtain ⟨targets, present⟩ := known
    exact ⟨source, targets, present, by rwa [targets_eq_of_getElem? present] at here⟩

/-! ## Counting -/

theorem Closed.nodeCount_eq (closed : graph.Closed) :
    graph.nodeCount =
      (graph.edges.keys.flatMap fun source => source :: graph.targets source).toFinset.card := by
  have distinct : graph.nodes.toList.Nodup :=
    ExtTreeSet.distinct_toList.imp fun differs same => differs (by simp [same])
  have same : graph.nodes.toList.toFinset =
      (graph.edges.keys.flatMap fun source => source :: graph.targets source).toFinset := by
    ext node
    rw [List.mem_toFinset, List.mem_toFinset, ExtTreeSet.mem_toList, closed, touches_iff]
    simp [ExtTreeMap.mem_keys]
  rw [← same, List.toFinset_card_of_nodup distinct, ExtTreeSet.length_toList]
  rfl

theorem edgeCount_eq (graph : Graph) :
    graph.edgeCount = (graph.edges.keys.map fun source => (graph.targets source).length).sum := by
  have lists : ∀ edge ∈ graph.edges.toList, edge.2.length = (graph.targets edge.1).length := by
    intro edge listed
    rw [targets_eq_of_getElem? (ExtTreeMap.mem_toList_iff_getElem?_eq_some.mp listed)]
  calc graph.edgeCount
      = (graph.edges.toList.map fun edge => edge.2.length).sum := by
        rw [edgeCount, edgeList, List.sum_eq_foldl, List.foldl_map]
    _ = (graph.edges.toList.map fun edge => (graph.targets edge.1).length).sum := by
        rw [List.map_congr_left lists]
    _ = (graph.edges.keys.map fun source => (graph.targets source).length).sum := by
        rw [← ExtTreeMap.map_fst_toList_eq_keys, List.map_map]
        rfl

/-! ## Contributions -/

/-- The lists of targets that the steps, the latest first, have added to a source of the graph
called `name`.  A merge adds what the other graph had for the source before the merge, if it
had the source at all, and a copy brings along what the other graph has been given. -/
def contributions : List Step → String → String → List (List String)
  | [], _, _ => []
  | .addEdge changed start target :: earlier, name, source =>
      contributions earlier name source ++
        if changed = name ∧ start = source then [[target]] else []
  | .addEdges changed start targets :: earlier, name, source =>
      contributions earlier name source ++
        if changed = name ∧ start = source then [targets] else []
  | .merge changed other :: earlier, name, source =>
      let added := contributions earlier other source
      contributions earlier name source ++
        if changed = name ∧ added ≠ [] then [added.flatten] else []
  | .copy changed other :: earlier, name, source =>
      contributions earlier (if changed = name then other else name) source

def combined? : List (List String) → Option (List String)
  | [] => none
  | lists => some lists.flatten

theorem combined?_append (first second : List (List String)) :
    combined? (first ++ second) = Option.merge (· ++ ·) (combined? first) (combined? second) := by
  cases first <;> cases second <;> simp [combined?]

theorem isSome_combined? {lists : List (List String)} : (combined? lists).isSome ↔ lists ≠ [] := by
  cases lists <;> simp [combined?]

theorem getD_combined? (lists : List (List String)) : (combined? lists).getD [] = lists.flatten := by
  cases lists <;> simp [combined?]

def Records (family : Family) (given : String → String → List (List String)) : Prop :=
  ∀ name source : String, (family name).edges[source]? = combined? (given name source)

/-! ## Steps -/

theorem getElem?_edges_set_addEdges (family : Family) (changed start : String)
    (targets : List String) :
    (family.set changed ((family changed).addEdges start targets) name).edges[source]? =
      Option.merge (· ++ ·) (family name).edges[source]?
        (if changed = name ∧ start = source then some targets else none) := by
  by_cases same : name = changed
  · subst same
    rw [Family.set_self, getElem?_edges_addEdges]
    simp
  · have differs : changed ≠ name := fun h => same h.symm
    rw [Family.set_of_ne _ _ same]
    simp [differs]

theorem records_of_step {family : Family} {earlier : List Step}
    (records : Records family (contributions earlier)) (step : Step) :
    Records (step.apply family) (contributions (step :: earlier)) := by
  intro name source
  cases step with
  | addEdge changed start target =>
      rw [Step.apply, addEdge, getElem?_edges_set_addEdges, records, contributions, combined?_append]
      split <;> simp [combined?]
  | addEdges changed start targets =>
      rw [Step.apply, getElem?_edges_set_addEdges, records, contributions, combined?_append]
      split <;> simp [combined?]
  | merge changed other =>
      rw [Step.apply, contributions, combined?_append]
      by_cases same : name = changed
      · subst same
        rw [Family.set_self, getElem?_edges_merge, records, records]
        cases contributions earlier other source <;> simp [combined?]
      · have differs : changed ≠ name := fun h => same h.symm
        rw [Family.set_of_ne _ _ same, records]
        simp [differs, combined?]
  | copy changed other =>
      rw [Step.apply, contributions]
      by_cases same : name = changed
      · subst same
        rw [Family.set_self, if_pos rfl, records]
      · have differs : changed ≠ name := fun h => same h.symm
        rw [Family.set_of_ne _ _ same, if_neg differs, records]

theorem Closed.set {family : Family} (closed : ∀ name, (family name).Closed)
    (closedGraph : graph.Closed) (changed name : String) :
    (family.set changed graph name).Closed := by
  unfold Family.set
  split
  · exact closedGraph
  · exact closed name

theorem closed_of_step {family : Family} (closed : ∀ name, (family name).Closed)
    (step : Step) (name : String) : (step.apply family name).Closed := by
  cases step with
  | addEdge changed start target => exact .set closed ((closed changed).addEdges _ _) _ _
  | addEdges changed start targets => exact .set closed ((closed changed).addEdges _ _) _ _
  | merge changed other => exact .set closed ((closed changed).merge _) _ _
  | copy changed other => exact .set closed (closed other) _ _

/-! ## Runs -/

theorem Family.after_concat (steps : List Step) (step : Step) :
    Family.after (steps ++ [step]) = step.apply (Family.after steps) := by
  simp [Family.after]

theorem records_after (steps : List Step) :
    Records (Family.after steps) (contributions steps.reverse) := by
  induction steps using List.reverseRecOn with
  | nil => exact fun _ _ => getElem?_edges_empty
  | append_singleton steps step ih =>
      rw [Family.after_concat, List.reverse_append]
      exact records_of_step ih step

theorem closed_after (steps : List Step) (name : String) : (Family.after steps name).Closed := by
  induction steps using List.reverseRecOn generalizing name with
  | nil => exact closed_empty
  | append_singleton steps step ih =>
      rw [Family.after_concat]
      exact closed_of_step ih step name

theorem mem_edges_after (steps : List Step) (name source : String) :
    source ∈ (Family.after steps name).edges ↔ contributions steps.reverse name source ≠ [] := by
  rw [ExtTreeMap.mem_iff_isSome_getElem?, records_after, isSome_combined?]

theorem targets_after (steps : List Step) (name source : String) :
    (Family.after steps name).targets source =
      (contributions steps.reverse name source).flatten := by
  rw [targets, records_after, getD_combined?]

/-- After every history the nodes of a graph are its sources and their targets, a source has the
targets that the steps added to it, in the order of the steps, the counts are those of these
nodes and targets, and graphs of two histories are equal as soon as their edge maps are. -/
theorem after_determined_by_steps (steps : List Step) (name : String) :
    let graph := Family.after steps name
    let added := contributions steps.reverse name
    (∀ node, node ∈ graph.nodes ↔
      ∃ source ∈ graph.edges, node = source ∨ node ∈ graph.targets source) ∧
    (∀ source, source ∈ graph.edges ↔ added source ≠ []) ∧
    (∀ source, graph.targets source = (added source).flatten) ∧
    graph.nodeCount =
      (graph.edges.keys.flatMap fun source => source :: (added source).flatten).toFinset.card ∧
    graph.edgeCount = (graph.edges.keys.map fun source => (added source).flatten.length).sum ∧
    ∀ others otherName, graph = Family.after others otherName ↔
      graph.edges = (Family.after others otherName).edges := by
  intro graph added
  have closed : graph.Closed := closed_after steps name
  have targets : graph.targets = fun source => (added source).flatten :=
    funext (targets_after steps name)
  refine ⟨fun node => (closed node).trans touches_iff, mem_edges_after steps name,
    targets_after steps name, ?_, ?_, ?_⟩
  · rw [closed.nodeCount_eq, targets]
  · rw [edgeCount_eq, targets]
  · intro others otherName
    exact closed.eq_iff (closed_after others otherName)

end Lineage.Graph
