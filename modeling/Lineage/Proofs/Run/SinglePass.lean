import Lineage.Proofs.Graph.Merge
import Lineage.Proofs.Run.Order

/-!
# Many files as one pass

A run extracts a graph from every file and merges the graphs in the order of the file names.
The result is the graph that one pass over all declarations builds, from an empty graph and
with no graph per file, where a file that fails contributes no declaration at all.
-/

namespace Lineage

/-! ## Recording after a merge -/

theorem foldlM_map_comm {σ ι ε : Type} {step : σ → ι → Except ε σ} {map : σ → σ}
    (comm : ∀ state item, step (map state) item = (step state item).map map)
    (items : List ι) (state : σ) :
    items.foldlM step (map state) = (items.foldlM step state).map map := by
  induction items generalizing state with
  | nil => rfl
  | cons item items ih =>
      rw [List.foldlM_cons, List.foldlM_cons, comm]
      cases step state item with
      | error cause => rfl
      | ok next => exact ih next

namespace Graph

variable {strategy : Strategy}

theorem inherit?_merge (graph other : Graph) (heir : String) (entry : Entry) :
    (graph.merge other).inherit? strategy heir entry =
      (other.inherit? strategy heir entry).map graph.merge := by
  unfold inherit?
  cases entry.edges? strategy heir with
  | error cause => rfl
  | ok edges => exact congrArg Except.ok (merge_addAll graph other edges).symm

theorem declare?_merge (graph other : Graph) (declaration : Declaration) :
    (graph.merge other).declare? strategy declaration =
      (other.declare? strategy declaration).map graph.merge := by
  apply foldlM_map_comm
  intro other entry
  rw [inherit?_merge]
  cases other.inherit? strategy declaration.name entry <;> rfl

/-- Merging the graph of a file does what recording its declarations would have done. -/
theorem foldlM_declare?_of_extract {declarations : List Declaration} {other : Graph}
    (extracted : extract strategy declarations = .ok other) (graph : Graph) :
    declarations.foldlM (declare? strategy) graph = .ok (graph.merge other) := by
  calc declarations.foldlM (declare? strategy) graph
      = declarations.foldlM (declare? strategy) (graph.merge ∅) := by rw [merge_empty]
    _ = (extract strategy declarations).map graph.merge :=
        foldlM_map_comm (declare?_merge graph) declarations ∅
    _ = .ok (graph.merge other) := by rw [extracted]; rfl

/-! ## One pass -/

/-- Records the entries of declarations one by one, skipping those that are ill-shaped. -/
def record (strategy : Strategy) (graph : Graph) (declarations : List Declaration) : Graph :=
  (declarations.flatMap fun declaration =>
    declaration.inherited.map (declaration.name, ·)).foldl
      (fun graph step => graph.inherit strategy step.1 step.2) graph

theorem record_cons (graph : Graph) (declaration : Declaration)
    (declarations : List Declaration) :
    graph.record strategy (declaration :: declarations) =
      (declaration.inherited.foldl (fun graph entry =>
        graph.inherit strategy declaration.name entry) graph).record strategy declarations := by
  simp [record, List.foldl_map]

theorem foldl_inherit_of_declare? {graph next : Graph} {declaration : Declaration}
    (declared : graph.declare? strategy declaration = .ok next) :
    declaration.inherited.foldl (fun graph entry =>
      graph.inherit strategy declaration.name entry) graph = next := by
  obtain ⟨name, kind, line, entries⟩ := declaration
  unfold declare? at declared
  induction entries generalizing graph with
  | nil =>
      cases declared
      rfl
  | cons entry entries ih =>
      rw [List.foldlM_cons] at declared
      cases step : graph.inherit? strategy name entry with
      | error cause => simp [step, Except.mapError, bind, Except.bind] at declared
      | ok middle =>
          have inherited : graph.inherit strategy name entry = middle := by simp [inherit, step]
          simp only [step, Except.mapError, bind, Except.bind] at declared
          rw [List.foldl_cons, inherited]
          exact ih declared

theorem record_eq_of_foldlM {declarations : List Declaration} {graph next : Graph}
    (recorded : declarations.foldlM (declare? strategy) graph = .ok next) :
    graph.record strategy declarations = next := by
  induction declarations generalizing graph with
  | nil =>
      cases recorded
      rfl
  | cons declaration declarations ih =>
      rw [List.foldlM_cons] at recorded
      cases declared : graph.declare? strategy declaration with
      | error cause => simp [declared, bind, Except.bind] at recorded
      | ok middle =>
          simp only [declared, bind, Except.bind] at recorded
          rw [record_cons, foldl_inherit_of_declare? declared]
          exact ih recorded

end Graph

/-! ## Files that contribute -/

def contributed (strategy : Strategy) (parsed : Except ParseError (List Declaration)) :
    List Declaration :=
  match parsed with
  | .ok declarations => if (extract strategy declarations).isOk then declarations else []
  | .error _ => []

theorem foldlM_contributed (strategy : Strategy) (graph : Graph)
    (parsed : Except ParseError (List Declaration)) :
    (contributed strategy parsed).foldlM (Graph.declare? strategy) graph =
      .ok (match extractFrom strategy parsed with
        | .ok other => graph.merge other
        | .error _ => graph) := by
  cases parsed with
  | error cause => rfl
  | ok declarations =>
      cases extracted : extract strategy declarations with
      | error cause => simp [contributed, extractFrom, extracted, Except.isOk, Except.toBool]; rfl
      | ok other =>
          simp only [contributed, extractFrom, extracted, Except.isOk, Except.toBool, if_true]
          exact Graph.foldlM_declare?_of_extract extracted graph

variable {α : Type} {strategy : Strategy} {name : α → String}
variable {parsed : α → Except ParseError (List Declaration)} {files : List α}

theorem foldlM_flatMap_contributed (files : List α) (graph : Graph) :
    (files.flatMap fun file => contributed strategy (parsed file)).foldlM
        (Graph.declare? strategy) graph =
      .ok (files.foldl (fun graph file =>
        match extractFrom strategy (parsed file) with
        | .ok other => graph.merge other
        | .error _ => graph) graph) := by
  induction files generalizing graph with
  | nil => rfl
  | cons file files ih =>
      rw [List.flatMap_cons, List.foldlM_append, foldlM_contributed]
      exact ih _

def inOrder (name : α → String) (files : List α) : List α :=
  files.mergeSort fun first second => decide (name first ≤ name second)

theorem inOrder_perm (name : α → String) (files : List α) : (inOrder name files).Perm files :=
  List.mergeSort_perm _ _

theorem pairwise_inOrder (distinct : (files.map name).Nodup) :
    ((inOrder name files).map name).Pairwise (· < ·) := by
  have sorted : (inOrder name files).Pairwise fun first second =>
      decide (name first ≤ name second) = true :=
    List.pairwise_mergeSort (fun _ _ _ => by simpa using String.le_trans)
      (fun _ _ => by simpa using String.le_total _ _) files
  have apart : ((inOrder name files).map name).Nodup :=
    ((inOrder_perm name files).map name).nodup_iff.mpr distinct
  rw [List.pairwise_map]
  exact sorted.imp₂ (fun _ _ h differs => Std.lt_of_le_of_ne (of_decide_eq_true h) differs)
    (List.pairwise_map.mp apart)

theorem merged_ofList (distinct : (files.map name).Nodup) (contribution : α → FileResult) :
    (Results.ofList (files.map fun file => (name file, contribution file))).merged =
      (inOrder name files).foldl (fun graph file =>
        match contribution file with
        | .ok other => graph.merge other
        | .error _ => graph) ∅ := by
  have perm := (inOrder_perm name files).map fun file => (name file, contribution file)
  have ordered := pairwise_inOrder distinct
  have sorted := Results.toList_ofList perm (by rwa [List.map_map])
  rw [Results.merged, sorted]
  exact List.foldl_map

/-- The graph of a run that goes through the files one after the other and is not strict is the
graph of one pass, from the empty graph, over all entries of the declarations of those files
that yield a graph of their own, in the order of the file names. No entry of that pass is
ill-shaped. -/
theorem graph?_eq_single_pass (strategy : Strategy) (name : α → String)
    (parsed : α → Except ParseError (List Declaration)) (files : List α)
    (distinct : (files.map name).Nodup) :
    let result := fun file => some (extractFrom strategy (parsed file))
    let pass := (inOrder name files).flatMap fun file => contributed strategy (parsed file)
    Settings.graph? ⟨.sequential, false⟩ name result files =
        .ok ((∅ : Graph).record strategy pass) ∧
      extract strategy pass = .ok ((∅ : Graph).record strategy pass) := by
  intro result pass
  have collected : Settings.collect? ⟨.sequential, false⟩ name result files =
      .ok (.ofList (files.map fun file => (name file, extractFrom strategy (parsed file)))) :=
    Settings.eq_ok_of_collects distinct (Settings.collects_collect? trivial (by simp))
  have passed : extract strategy pass = .ok
      (Results.ofList (files.map fun file =>
        (name file, extractFrom strategy (parsed file)))).merged := by
    rw [merged_ofList distinct]
    exact foldlM_flatMap_contributed _ _
  rw [Graph.record_eq_of_foldlM passed]
  refine ⟨?_, passed⟩
  rw [Settings.graph?, collected]
  rfl

/-- Files in no order: one has a generic supertype, the next adds to the same source and is
then found malformed, one adds to that source and succeeds, and the last cannot be read. -/
theorem graph?_eq_single_pass_of_mixed_files :
    let cache : Declaration := ⟨"Store<Int>", .class, 1, [.named "Cache"]⟩
    let parsed : String → Except ParseError (List Declaration) := fun file =>
      if file = "a" then .ok [⟨"A", .class, 1, [.generic "Store" ["Int"]]⟩]
      else if file = "b" then .ok [cache, ⟨"B", .class, 1, [.named "Base", ⟨"", []⟩]⟩]
      else if file = "c" then .ok [cache]
      else .error .noTree
    let files := ["c", "d", "b", "a"]
    let result := fun file => some (extractFrom .decompose (parsed file))
    let pass := (inOrder id files).flatMap fun file => contributed .decompose (parsed file)
    (files.map id).Nodup ∧
    Settings.graph? ⟨.sequential, false⟩ id result files =
        .ok ((∅ : Graph).record .decompose pass) ∧
      extract .decompose pass = .ok ((∅ : Graph).record .decompose pass) := by
  intro cache parsed files result pass
  have distinct : (files.map id).Nodup := by decide
  exact ⟨distinct, graph?_eq_single_pass .decompose id parsed files distinct⟩

end Lineage
