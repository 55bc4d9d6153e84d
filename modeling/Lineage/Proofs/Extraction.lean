import Lineage.Extraction
import Lineage.Proofs.Graph.Inherit
import Lineage.Proofs.Graph.Algebra

/-!
# The graph of a list of declarations

Declarations are extracted by recording their entries one after the other.  The first entry that is
refused ends the extraction and is what the failure tells of.  If none is, every source has the
targets that the entries add to it, in the order of the entries.
-/

open Std

namespace Lineage

variable {strategy : Strategy} {graph after : Graph} {heir : String} {entry : Entry}
variable {steps rest : List (String × Entry)}

/-! ## Entries in order -/

def entriesOf (declarations : List Declaration) : List (String × Entry) :=
  declarations.flatMap fun declaration => declaration.inherited.map (declaration.name, ·)

theorem mem_entriesOf {declarations : List Declaration} :
    (heir, entry) ∈ entriesOf declarations ↔
      ∃ declaration ∈ declarations, declaration.name = heir ∧ entry ∈ declaration.inherited := by
  simp only [entriesOf, List.mem_flatMap, List.mem_map, Prod.mk.injEq]
  constructor
  · rintro ⟨declaration, listed, entry, member, rfl, rfl⟩
    exact ⟨declaration, listed, rfl, member⟩
  · rintro ⟨declaration, listed, rfl, member⟩
    exact ⟨declaration, listed, entry, member, rfl, rfl⟩

def Graph.enter? (strategy : Strategy) (graph : Graph) (made : String × Entry) : FileResult :=
  (graph.inherit? strategy made.1 made.2).mapError (.malformed made.1 made.2.text)

theorem Graph.declare?_eq_foldlM (graph : Graph) (declaration : Declaration) :
    graph.declare? strategy declaration =
      (declaration.inherited.map (declaration.name, ·)).foldlM (enter? strategy) graph := by
  rw [List.foldlM_map]
  rfl

theorem foldlM_declare?_eq (declarations : List Declaration) (graph : Graph) :
    declarations.foldlM (Graph.declare? strategy) graph =
      (entriesOf declarations).foldlM (Graph.enter? strategy) graph := by
  induction declarations generalizing graph with
  | nil => rfl
  | cons declaration declarations ih =>
      rw [List.foldlM_cons, entriesOf, List.flatMap_cons, List.foldlM_append,
        Graph.declare?_eq_foldlM]
      exact bind_congr ih

theorem extract_eq_foldlM (strategy : Strategy) (declarations : List Declaration) :
    extract strategy declarations = (entriesOf declarations).foldlM (Graph.enter? strategy) ∅ :=
  foldlM_declare?_eq declarations ∅

/-! ## What one entry contributes -/

def Entry.linkCount (strategy : Strategy) (entry : Entry) : Nat :=
  match strategy, entry.parts with
  | .decompose, .name _ :: .arguments arguments :: _ => 2 + arguments.length
  | _, _ => 1

def Entry.types (strategy : Strategy) (entry : Entry) : List String :=
  match strategy, entry.parts with
  | .verbatim, _ => [collapseText entry.text]
  | .decompose, .name base :: .arguments arguments :: _ =>
      specializedName base arguments :: base :: arguments
  | .decompose, .name base :: _ => [base]
  | .decompose, _ => []

namespace Entry.Adds

variable {links : List (String × String)} {node : String}

theorem length_eq (adds : entry.Adds heir strategy links) :
    links.length = entry.linkCount strategy := by
  cases adds with
  | plain => rfl
  | verbatim => rfl
  | generic =>
      simp only [List.length_append, List.length_cons, List.length_map, List.length_nil, linkCount]
      omega

theorem names_iff (adds : entry.Adds heir strategy links) :
    (∃ link ∈ links, node = link.1 ∨ node = link.2) ↔
      node = heir ∨ node ∈ entry.types strategy := by
  cases adds with
  | plain => simp [types]
  | verbatim => simp [types]
  | @generic text base arguments rest =>
      constructor
      · simp only [List.mem_cons, List.mem_append, List.mem_map, List.not_mem_nil, or_false, types]
        rintro ⟨link, (rfl | ⟨argument, listed, rfl⟩) | rfl, rfl | rfl⟩
        all_goals simp [*]
      · simp only [types, List.mem_cons]
        rintro (rfl | rfl | rfl | listed)
        · exact ⟨(node, specializedName base arguments), by simp, .inl rfl⟩
        · exact ⟨(heir, specializedName base arguments), by simp, .inr rfl⟩
        · exact ⟨(specializedName node arguments, node), by simp, .inr rfl⟩
        · exact ⟨(specializedName base arguments, node), by simp [listed], .inr rfl⟩

theorem not_refused (adds : entry.Adds heir strategy links) (shape : ShapeError) :
    ¬ entry.Refused strategy shape := by
  intro refused
  obtain ⟨edges, made, -⟩ := adds.exists_edges
  have failed := made.symm.trans (refused.edges?_eq heir)
  cases failed

end Entry.Adds

/-! ## Runs of entries -/

theorem enter?_of_adds {links : List (String × String)} (adds : entry.Adds heir strategy links) :
    ∃ after, graph.enter? strategy (heir, entry) = .ok after ∧ graph.Extends links after := by
  obtain ⟨recorded, extended⟩ := Graph.step_of_adds graph adds
  refine ⟨_, ?_, extended⟩
  rw [Graph.enter?, Graph.inherit?_eq_step, recorded]
  rfl

theorem enter?_of_refused {shape : ShapeError} (refused : entry.Refused strategy shape) :
    graph.enter? strategy (heir, entry) = .error (.malformed heir entry.text shape) := by
  rw [Graph.enter?, Graph.inherit?_eq_step, Graph.step_of_refused graph refused]
  rfl

abbrev AddsEach (strategy : Strategy) (steps : List (String × Entry))
    (added : List (List (String × String))) : Prop :=
  List.Forall₂ (fun made links => made.2.Adds made.1 strategy links) steps added

theorem foldlM_enter?_of_adds {added : List (List (String × String))}
    (adds : AddsEach strategy steps added) (graph : Graph) :
    ∃ after, steps.foldlM (Graph.enter? strategy) graph = .ok after ∧
      graph.Extends added.flatten after := by
  induction adds generalizing graph with
  | nil => exact ⟨graph, rfl, .refl graph⟩
  | @cons made links steps added first _ ih =>
      obtain ⟨middle, entered, extended⟩ := @enter?_of_adds _ graph _ _ _ first
      obtain ⟨after, run, extended'⟩ := ih middle
      refine ⟨after, ?_, extended.trans extended'⟩
      rw [List.foldlM_cons, entered]
      exact run

/-- The entry is the first of a run that is refused, and this is why. -/
def FirstRefused (strategy : Strategy) (steps : List (String × Entry)) (heir : String)
    (entry : Entry) (shape : ShapeError) : Prop :=
  ∃ before later, steps = before ++ (heir, entry) :: later ∧
    (∀ made ∈ before, ∀ shape, ¬ made.2.Refused strategy shape) ∧ entry.Refused strategy shape

theorem foldlM_enter?_of_firstRefused {shape : ShapeError}
    (first : FirstRefused strategy steps heir entry shape) (graph : Graph) :
    steps.foldlM (Graph.enter? strategy) graph = .error (.malformed heir entry.text shape) := by
  obtain ⟨before, later, rfl, sound, refused⟩ := first
  induction before generalizing graph with
  | nil =>
      rw [List.nil_append, List.foldlM_cons, enter?_of_refused refused]
      rfl
  | cons made before ih =>
      obtain ⟨accepted, sound⟩ := List.forall_mem_cons.mp sound
      rcases made.2.edges?_cases strategy made.1 with ⟨cause, bad, -⟩ | ⟨edges, -, adds, -⟩
      · exact absurd bad (accepted cause)
      · obtain ⟨middle, entered, -⟩ := @enter?_of_adds _ graph _ _ _ adds
        rw [List.cons_append, List.foldlM_cons, entered]
        exact ih middle sound

theorem addsEach_or_firstRefused (strategy : Strategy) (steps : List (String × Entry)) :
    (∃ added, AddsEach strategy steps added) ∨
      ∃ heir entry shape, FirstRefused strategy steps heir entry shape := by
  induction steps with
  | nil => exact .inl ⟨[], .nil⟩
  | cons made steps ih =>
      rcases made.2.edges?_cases strategy made.1 with ⟨shape, bad, -⟩ | ⟨edges, -, adds, -⟩
      · exact .inr ⟨made.1, made.2, shape, [], steps, rfl, nofun, bad⟩
      · rcases ih with ⟨added, all⟩ | ⟨heir, entry, shape, before, later, rfl, sound, refused⟩
        · exact .inl ⟨_, .cons adds all⟩
        · refine .inr ⟨heir, entry, shape, made :: before, later, rfl, ?_, refused⟩
          exact List.forall_mem_cons.mpr ⟨adds.not_refused, sound⟩

/-! ## Graphs that extend the empty one -/

namespace Graph

variable {links : List (String × String)}

theorem count_eq_count_targetsAmong (source target : String) (links : List (String × String)) :
    links.count (source, target) = (targetsAmong source links).count target := by
  induction links with
  | nil => rfl
  | cons link links ih =>
      obtain ⟨start, stop⟩ := link
      rw [List.count_cons, ih, targetsAmong_cons]
      by_cases same : start = source
      · simp [same, List.count_cons]
      · simp [same]

theorem Extends.edgeCount_eq (extended : (∅ : Graph).Extends links after) :
    after.edgeCount = links.length := by
  have targets : ∀ source, targetsAmong source after.links = targetsAmong source links := by
    intro source
    have none : (∅ : Graph).targets source = [] := by simp [Graph.targets]
    rw [targetsAmong_links, extended.targets, none, List.nil_append]
  have perm : after.links.Perm links := by
    rw [List.perm_iff_count]
    intro link
    rw [count_eq_count_targetsAmong, count_eq_count_targetsAmong, targets]
  rw [← length_links, perm.length_eq]

theorem targetsAmong_flatten (source : String) (added : List (List (String × String))) :
    targetsAmong source added.flatten = added.flatMap (targetsAmong source) := by
  rw [targetsAmong, List.filter_flatten, List.map_flatten, List.map_map, List.flatMap_def]
  rfl

end Graph

theorem AddsEach.length_flatten {added : List (List (String × String))}
    (adds : AddsEach strategy steps added) :
    added.flatten.length = (steps.map fun made => made.2.linkCount strategy).sum := by
  induction adds with
  | nil => rfl
  | cons first _ ih =>
      rw [List.flatten_cons, List.length_append, first.length_eq, ih]
      rfl

theorem AddsEach.names_iff {added : List (List (String × String))} {node : String}
    (adds : AddsEach strategy steps added) :
    (∃ link ∈ added.flatten, node = link.1 ∨ node = link.2) ↔
      ∃ made ∈ steps, node = made.1 ∨ node ∈ made.2.types strategy := by
  induction adds with
  | nil => simp
  | cons first _ ih =>
      simp only [List.flatten_cons, List.mem_append, or_and_right, exists_or, first.names_iff, ih,
        List.exists_mem_cons_iff]

theorem AddsEach.mem_nodes {added : List (List (String × String))} {node : String}
    (adds : AddsEach strategy steps added) (extended : (∅ : Graph).Extends added.flatten after) :
    node ∈ after.nodes ↔ ∃ made ∈ steps, node = made.1 ∨ node ∈ made.2.types strategy := by
  have absent : node ∉ (∅ : Graph).nodes := ExtTreeSet.not_mem_empty
  rw [extended.nodes, adds.names_iff]
  simp [absent]

theorem AddsEach.not_refused {added : List (List (String × String))}
    (adds : AddsEach strategy steps added) :
    ∀ made ∈ steps, ∀ shape, ¬ made.2.Refused strategy shape := by
  induction adds with
  | nil => nofun
  | cons first _ ih => exact List.forall_mem_cons.mpr ⟨first.not_refused, ih⟩

theorem FirstRefused.exists_refused {shape : ShapeError}
    (first : FirstRefused strategy steps heir entry shape) :
    (heir, entry) ∈ steps ∧ entry.Refused strategy shape := by
  obtain ⟨before, later, rfl, -, refused⟩ := first
  exact ⟨by simp, refused⟩

/-! ## Extraction -/

theorem extract_of_adds {declarations : List Declaration} {added : List (List (String × String))}
    (adds : AddsEach strategy (entriesOf declarations) added) :
    ∃ graph, extract strategy declarations = .ok graph ∧
      (∅ : Graph).Extends added.flatten graph ∧
      ∀ source, graph.targets source = added.flatMap (Graph.targetsAmong source) := by
  obtain ⟨graph, entered, extended⟩ := foldlM_enter?_of_adds adds ∅
  refine ⟨graph, (extract_eq_foldlM _ _).trans entered, extended, fun source => ?_⟩
  have none : (∅ : Graph).targets source = [] := by simp [Graph.targets]
  rw [extended.targets, none, List.nil_append, Graph.targetsAmong_flatten]

theorem mem_nodes_of_extract {declarations : List Declaration} {node : String}
    (extracted : extract strategy declarations = .ok graph) :
    node ∈ graph.nodes ↔
      ∃ made ∈ entriesOf declarations, node = made.1 ∨ node ∈ made.2.types strategy := by
  rw [extract_eq_foldlM] at extracted
  rcases addsEach_or_firstRefused strategy (entriesOf declarations) with
    ⟨added, adds⟩ | ⟨heir, entry, shape, first⟩
  · obtain ⟨after, entered, extended⟩ := foldlM_enter?_of_adds adds ∅
    cases entered.symm.trans extracted
    exact adds.mem_nodes extended
  · cases (foldlM_enter?_of_firstRefused first ∅).symm.trans extracted

/-- Extraction fails exactly if an entry is refused, and then it tells of the first one, by the name
of its declaration, its text and what is wrong with it.  A graph that is extracted has for every
source the targets that the entries add to it, in their order, one link for a plain entry and two
more than there are arguments for a generic one, and the names of declarations with entries and of
the types in these for its nodes.  Texts taken as they stand never fail. -/
theorem extractFrom_exact (strategy : Strategy) (declarations : List Declaration) :
    let steps := entriesOf declarations
    let result := extractFrom strategy (.ok declarations)
    ((∃ cause, result = .error cause) ↔
      ∃ made ∈ steps, ∃ shape, made.2.Refused strategy shape) ∧
    (∀ cause, result = .error cause ↔ ∃ heir entry shape,
      FirstRefused strategy steps heir entry shape ∧ cause = .malformed heir entry.text shape) ∧
    (∀ graph, result = .ok graph → ∃ added, AddsEach strategy steps added ∧
      (∀ source, graph.targets source = added.flatMap (Graph.targetsAmong source)) ∧
      graph.edgeCount = (steps.map fun made => made.2.linkCount strategy).sum ∧
      ∀ node, node ∈ graph.nodes ↔
        ∃ made ∈ steps, node = made.1 ∨ node ∈ made.2.types strategy) ∧
    (strategy = .verbatim → ∃ graph, result = .ok graph ∧ graph.edgeCount = steps.length) := by
  intro steps result
  have run : result = steps.foldlM (Graph.enter? strategy) ∅ :=
    extract_eq_foldlM strategy declarations
  rcases addsEach_or_firstRefused strategy steps with
    ⟨added, adds⟩ | ⟨heir, entry, shape, first⟩
  · obtain ⟨after, entered, extended⟩ := foldlM_enter?_of_adds adds ∅
    have count := extended.edgeCount_eq.trans adds.length_flatten
    rw [run, entered]
    refine ⟨⟨nofun, ?_⟩, fun cause => ⟨nofun, ?_⟩, ?_, ?_⟩
    · rintro ⟨made, listed, shape, refused⟩
      exact absurd refused (adds.not_refused made listed shape)
    · rintro ⟨heir, entry, shape, first, -⟩
      obtain ⟨listed, refused⟩ := first.exists_refused
      exact absurd refused (adds.not_refused _ listed shape)
    · rintro graph ⟨⟩
      refine ⟨added, adds, fun source => ?_, count, fun node => adds.mem_nodes extended⟩
      have none : (∅ : Graph).targets source = [] := by simp [Graph.targets]
      rw [extended.targets, none, List.nil_append, Graph.targetsAmong_flatten]
    · rintro rfl
      refine ⟨after, rfl, count.trans ?_⟩
      have one : ∀ made ∈ steps, made.2.linkCount .verbatim = 1 := fun _ _ => rfl
      rw [List.map_congr_left one]
      simp
  · have failed := foldlM_enter?_of_firstRefused first ∅
    obtain ⟨listed, refused⟩ := first.exists_refused
    rw [run, failed]
    refine ⟨⟨fun _ => ⟨_, listed, shape, refused⟩, fun _ => ⟨_, rfl⟩⟩, fun cause => ⟨?_, ?_⟩,
      ?_, ?_⟩
    · rintro ⟨⟩
      exact ⟨heir, entry, shape, first, rfl⟩
    · -- Either entry is the one that the run fails with.
      rintro ⟨heir', entry', shape', first', rfl⟩
      exact failed.symm.trans (foldlM_enter?_of_firstRefused first' ∅)
    · rintro graph ⟨⟩
    · rintro rfl
      cases refused

end Lineage
