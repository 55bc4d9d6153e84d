import Lineage.Proofs.Graph.Links

/-!
# Entries recorded one after the other

An entry is recorded by several writes to one graph, and it may turn out to be ill-shaped.  It
does so before its first write.  Hence a step on the graph either adds all links of its entry, at
the end of the target lists and in their order, or leaves the graph as it was, and a whole run of
steps does what is done by those that succeed.
-/

open Std

namespace Lineage

variable {strategy : Strategy} {heir : String} {entry : Entry}

/-! ## Shapes of entries -/

/-- The links that an entry adds to its heir and to its specialized type, in order.  Parts after
the arguments of a generic type do not matter. -/
inductive Entry.Adds (heir : String) : Strategy → Entry → List (String × String) → Prop where
  | plain {text base : String} : Adds heir .decompose ⟨text, [.name base]⟩ [(heir, base)]
  | generic {text base : String} {arguments : List String} {rest : List Part} :
      Adds heir .decompose ⟨text, .name base :: .arguments arguments :: rest⟩
        ((specializedName base arguments, base) ::
          arguments.map (specializedName base arguments, ·) ++
          [(heir, specializedName base arguments)])
  | verbatim {entry : Entry} : Adds heir .verbatim entry [(heir, collapseText entry.text)]

/-- Why an entry is ill-shaped.  The part at fault is named by its kind. -/
inductive Entry.Refused : Strategy → Entry → ShapeError → Prop where
  | empty {text : String} : Refused .decompose ⟨text, []⟩ .empty
  | notAName {text : String} {first : Part} {rest : List Part} :
      (∀ name, first ≠ .name name) →
      Refused .decompose ⟨text, first :: rest⟩ (.notAName first.kind)
  | unexpectedClause {text base : String} {second : Part} {rest : List Part} :
      (∀ arguments, second ≠ .arguments arguments) →
      Refused .decompose ⟨text, .name base :: second :: rest⟩ (.unexpectedClause second.kind)

def linksOf (edges : List (String × List String)) : List (String × String) :=
  edges.flatMap fun edge => edge.2.map (edge.1, ·)

theorem Entry.Refused.edges?_eq {cause : ShapeError} (refused : entry.Refused strategy cause)
    (heir : String) : entry.edges? strategy heir = .error cause := by
  cases refused with
  | empty => rfl
  | @notAName _ first _ foreign =>
      cases first with
      | name text => exact absurd rfl (foreign text)
      | arguments _ | other _ => rfl
  | @unexpectedClause _ _ second _ foreign =>
      cases second with
      | arguments texts => exact absurd rfl (foreign texts)
      | name _ | other _ => rfl

/-- An entry is refused, or its edges make up the links that it adds.  No source among the edges
is without a link. -/
theorem Entry.edges?_cases (strategy : Strategy) (heir : String) (entry : Entry) :
    (∃ cause, entry.Refused strategy cause ∧ entry.edges? strategy heir = .error cause) ∨
      ∃ edges, entry.edges? strategy heir = .ok edges ∧
        entry.Adds heir strategy (linksOf edges) ∧
        ∀ edge ∈ edges, ∃ link ∈ linksOf edges, link.1 = edge.1 := by
  obtain ⟨text, parts⟩ := entry
  have refusal {cause : ShapeError} (refused : Entry.Refused strategy ⟨text, parts⟩ cause) :
      ∃ cause, Entry.Refused strategy ⟨text, parts⟩ cause ∧
        Entry.edges? strategy heir ⟨text, parts⟩ = .error cause :=
    ⟨cause, refused, refused.edges?_eq heir⟩
  cases strategy with
  | verbatim => exact .inr ⟨_, rfl, .verbatim, by simp [linksOf]⟩
  | decompose =>
      match parts with
      | [] => exact .inl (refusal .empty)
      | .arguments _ :: _ | .other _ :: _ => exact .inl (refusal (.notAName nofun))
      | .name _ :: .name _ :: _ | .name _ :: .other _ :: _ =>
          exact .inl (refusal (.unexpectedClause nofun))
      | [.name base] => exact .inr ⟨_, rfl, .plain, by simp [linksOf]⟩
      | .name base :: .arguments arguments :: rest =>
          refine .inr ⟨_, rfl, ?_, by simp [linksOf]⟩
          simpa [linksOf] using Adds.generic

theorem Entry.Adds.unique {links others : List (String × String)}
    (adds : entry.Adds heir strategy links) (adds' : entry.Adds heir strategy others) :
    links = others := by
  cases adds <;> cases adds' <;> rfl

theorem Entry.Adds.exists_edges {links : List (String × String)}
    (adds : entry.Adds heir strategy links) :
    ∃ edges, entry.edges? strategy heir = .ok edges ∧ links = linksOf edges ∧
      ∀ edge ∈ edges, ∃ link ∈ links, link.1 = edge.1 := by
  rcases Entry.edges?_cases strategy heir entry with ⟨cause, refused, -⟩ | ⟨edges, made, added, all⟩
  · cases adds with
    | plain =>
        cases refused with
        | notAName foreign => exact absurd rfl (foreign _)
    | generic =>
        cases refused with
        | notAName foreign => exact absurd rfl (foreign _)
        | unexpectedClause foreign => exact absurd rfl (foreign _)
    | verbatim => cases refused
  · obtain rfl := adds.unique added
    exact ⟨edges, made, rfl, all⟩

theorem Entry.edges?_eq_error_iff {cause : ShapeError} :
    entry.edges? strategy heir = .error cause ↔ entry.Refused strategy cause := by
  constructor
  · intro failed
    rcases Entry.edges?_cases strategy heir entry with ⟨other, refused, same⟩ | ⟨edges, made, -⟩
    · cases failed.symm.trans same
      exact refused
    · cases failed.symm.trans made
  · exact fun refused => refused.edges?_eq heir

/-! ## Writes -/

/-- The writes by which an entry is recorded.  A write that has been made is not taken back when
the entry is refused after it. -/
def Entry.record (strategy : Strategy) (heir : String) (entry : Entry) :
    ExceptT ShapeError (StateM Graph) Unit :=
  match strategy with
  | .verbatim => modify (·.addEdge heir (collapseText entry.text))
  | .decompose =>
      match entry.parts with
      | [] => throw .empty
      | .name base :: rest =>
          match rest with
          | [] => modify (·.addEdge heir base)
          | .arguments arguments :: _ => do
              let specialized := specializedName base arguments
              modify (·.addEdge specialized base)
              modify (·.addEdges specialized arguments)
              modify (·.addEdge heir specialized)
          | other :: _ => throw (.unexpectedClause other.kind)
      | other :: _ => throw (.notAName other.kind)

namespace Graph

variable {graph after : Graph} {links others : List (String × String)}

def step (strategy : Strategy) (graph : Graph) (heir : String) (entry : Entry) :
    Except ShapeError Unit × Graph :=
  ((entry.record strategy heir).run.run graph).run

/-- An entry is refused before its first write. -/
theorem step_eq (graph : Graph) (heir : String) (entry : Entry) :
    graph.step strategy heir entry =
      match entry.edges? strategy heir with
      | .ok edges => (.ok (), graph.addAll edges)
      | .error cause => (.error cause, graph) := by
  obtain ⟨text, parts⟩ := entry
  cases strategy with
  | verbatim => rfl
  | decompose =>
      match parts with
      | [] | .arguments _ :: _ | .other _ :: _ => rfl
      | [.name _] | .name _ :: .arguments _ :: _ => rfl
      | .name _ :: .name _ :: _ | .name _ :: .other _ :: _ => rfl

theorem inherit?_eq_step (graph : Graph) (heir : String) (entry : Entry) :
    graph.inherit? strategy heir entry =
      (graph.step strategy heir entry).1.map fun _ => (graph.step strategy heir entry).2 := by
  rw [inherit?, step_eq]
  cases entry.edges? strategy heir <;> rfl

theorem inherit_eq_step (graph : Graph) (heir : String) (entry : Entry) :
    graph.inherit strategy heir entry = (graph.step strategy heir entry).2 := by
  rw [inherit, inherit?_eq_step, step_eq]
  cases entry.edges? strategy heir <;> rfl

/-! ## What is added -/

/-- One graph is another with links added at the end of the target lists, in their order, and
without any other difference. -/
structure Extends (before : Graph) (links : List (String × String)) (after : Graph) : Prop where
  targets : ∀ source, after.targets source = before.targets source ++ targetsAmong source links
  sources : ∀ source, source ∈ after.edges ↔
    source ∈ before.edges ∨ ∃ link ∈ links, link.1 = source
  nodes : ∀ node, node ∈ after.nodes ↔
    node ∈ before.nodes ∨ ∃ link ∈ links, node = link.1 ∨ node = link.2

theorem Extends.refl (graph : Graph) : graph.Extends [] graph := by
  constructor <;> simp [targetsAmong]

theorem Extends.trans {middle : Graph} (first : graph.Extends links middle)
    (second : middle.Extends others after) : graph.Extends (links ++ others) after where
  targets source := by
    rw [second.targets, first.targets, targetsAmong_append, List.append_assoc]
  sources source := by
    rw [second.sources, first.sources, or_assoc]
    simp [or_and_right, exists_or]
  nodes node := by
    rw [second.nodes, first.nodes, or_assoc]
    simp [or_and_right, exists_or]

theorem mem_edges_addAll (graph : Graph) (edges : List (String × List String)) (source : String) :
    source ∈ (graph.addAll edges).edges ↔
      source ∈ graph.edges ∨ ∃ edge ∈ edges, edge.1 = source := by
  have named : (pooled source edges).isSome ↔ ∃ edge ∈ edges, edge.1 = source := by
    induction edges with
    | nil => simp [pooled]
    | cons edge rest ih =>
        rw [pooled, List.exists_mem_cons_iff, ← ih]
        by_cases same : edge.1 = source <;> cases pooled source rest <;> simp [same]
  rw [ExtTreeMap.mem_iff_isSome_getElem?, getElem?_edges_addAll, ← named,
    ExtTreeMap.mem_iff_isSome_getElem?]
  cases graph.edges[source]? <;> cases pooled source edges <;> simp

theorem extends_addAll {edges : List (String × List String)}
    (linked : ∀ edge ∈ edges, ∃ link ∈ linksOf edges, link.1 = edge.1) (graph : Graph) :
    graph.Extends (linksOf edges) (graph.addAll edges) where
  targets source := by
    rw [linksOf, targetsAmong_flatMap, Graph.targets, getElem?_edges_addAll, Graph.targets]
    cases graph.edges[source]? <;> cases pooled source edges <;> simp
  sources source := by
    rw [mem_edges_addAll]
    refine or_congr_right ⟨?_, ?_⟩
    · rintro ⟨edge, listed, rfl⟩
      exact linked edge listed
    · rintro ⟨link, listed, rfl⟩
      obtain ⟨edge, known, within⟩ := List.mem_flatMap.mp listed
      obtain ⟨target, -, rfl⟩ := List.mem_map.mp within
      exact ⟨edge, known, rfl⟩
  nodes node := by
    rw [mem_nodes_addAll]
    refine or_congr_right ⟨?_, ?_⟩
    · rintro ⟨edge, listed, rfl | target⟩
      · obtain ⟨link, known, same⟩ := linked edge listed
        exact ⟨link, known, .inl same.symm⟩
      · exact ⟨(edge.1, node),
          List.mem_flatMap.mpr ⟨edge, listed, List.mem_map.mpr ⟨node, target, rfl⟩⟩, .inr rfl⟩
    · rintro ⟨link, listed, ends⟩
      obtain ⟨edge, known, within⟩ := List.mem_flatMap.mp listed
      obtain ⟨target, inside, rfl⟩ := List.mem_map.mp within
      refine ⟨edge, known, ends.imp_right ?_⟩
      rintro rfl
      exact inside

theorem step_of_adds (graph : Graph) (adds : entry.Adds heir strategy links) :
    (graph.step strategy heir entry).1 = .ok () ∧
      graph.Extends links (graph.step strategy heir entry).2 := by
  obtain ⟨edges, made, rfl, linked⟩ := adds.exists_edges
  rw [step_eq, made]
  exact ⟨rfl, extends_addAll linked graph⟩

theorem step_of_refused (graph : Graph) {cause : ShapeError}
    (refused : entry.Refused strategy cause) :
    graph.step strategy heir entry = (.error cause, graph) := by
  rw [step_eq, refused.edges?_eq]

/-! ## Runs of steps -/

/-- The graph after steps on one graph, where a step that fails does not end the run. -/
def afterSteps (strategy : Strategy) (graph : Graph) (steps : List (String × Entry)) : Graph :=
  steps.foldl (fun graph step => (graph.step strategy step.1 step.2).2) graph

def succeeds (strategy : Strategy) (step : String × Entry) : Bool :=
  ((∅ : Graph).step strategy step.1 step.2).1.isOk

theorem step_of_succeeds {made : String × Entry} (good : succeeds strategy made = true) :
    ∃ links, made.2.Adds made.1 strategy links := by
  rcases made.2.edges?_cases strategy made.1 with ⟨cause, refused, -⟩ | ⟨edges, -, adds, -⟩
  · rw [succeeds, step_of_refused _ refused] at good
    cases good
  · exact ⟨_, adds⟩

theorem step_of_not_succeeds {made : String × Entry} (bad : succeeds strategy made = false)
    (graph : Graph) : (graph.step strategy made.1 made.2).2 = graph := by
  rcases made.2.edges?_cases strategy made.1 with ⟨cause, refused, -⟩ | ⟨edges, -, adds, -⟩
  · rw [step_of_refused _ refused]
  · rw [succeeds, (step_of_adds ∅ adds).1] at bad
    cases bad

theorem afterSteps_filter (graph : Graph) (steps : List (String × Entry)) :
    graph.afterSteps strategy (steps.filter (succeeds strategy)) =
      graph.afterSteps strategy steps := by
  induction steps generalizing graph with
  | nil => rfl
  | cons made steps ih =>
      cases kept : succeeds strategy made with
      | true =>
          rw [List.filter_cons_of_pos kept]
          exact ih _
      | false =>
          rw [List.filter_cons_of_neg (by simp [kept]), ih]
          simp only [afterSteps, List.foldl_cons, step_of_not_succeeds kept]

theorem extends_afterSteps (graph : Graph) {steps : List (String × Entry)}
    (sound : ∀ made ∈ steps, succeeds strategy made = true) :
    ∃ added, List.Forall₂ (fun made links => made.2.Adds made.1 strategy links) steps added ∧
      graph.Extends added.flatten (graph.afterSteps strategy steps) := by
  induction steps generalizing graph with
  | nil => exact ⟨[], .nil, .refl graph⟩
  | cons made steps ih =>
      obtain ⟨good, sound⟩ := List.forall_mem_cons.mp sound
      obtain ⟨links, adds⟩ := step_of_succeeds good
      obtain ⟨added, all, rest⟩ := ih (graph.step strategy made.1 made.2).2 sound
      exact ⟨links :: added, .cons adds all, (step_of_adds graph adds).2.trans rest⟩

/-- A step fails exactly on an entry that is refused, for the cause of the refusal, and then it
leaves the graph as it was.  Any other step adds the links of its entry in their order and nothing
else.  After any number of steps the graph is the one that the steps which succeed make on their
own: the first one with their links, step by step. -/
theorem afterSteps_exact (strategy : Strategy) (graph : Graph) (steps : List (String × Entry)) :
    (∀ (current : Graph) (heir : String) (entry : Entry),
      let made := current.step strategy heir entry
      current.inherit? strategy heir entry = made.1.map (fun _ => made.2) ∧
      current.inherit strategy heir entry = made.2 ∧
      (∀ cause, made.1 = .error cause ↔ entry.Refused strategy cause) ∧
      (∀ cause, made.1 = .error cause → made.2 = current) ∧
      (made.1 = .ok () → ∃ links, entry.Adds heir strategy links ∧ current.Extends links made.2) ∧
      (strategy = .verbatim → made.1 = .ok ())) ∧
    graph.afterSteps strategy steps =
      graph.afterSteps strategy (steps.filter (succeeds strategy)) ∧
    ∃ added, List.Forall₂ (fun made links => made.2.Adds made.1 strategy links)
        (steps.filter (succeeds strategy)) added ∧
      graph.Extends added.flatten (graph.afterSteps strategy steps) := by
  refine ⟨fun current heir entry => ?_, (afterSteps_filter graph steps).symm, ?_⟩
  · refine ⟨inherit?_eq_step current heir entry, inherit_eq_step current heir entry, ?_⟩
    rcases entry.edges?_cases strategy heir with ⟨cause, refused, failed⟩ | ⟨edges, -, adds, -⟩
    · rw [step_of_refused current refused]
      refine ⟨fun other => ?_, fun _ _ => rfl, nofun, ?_⟩
      · rw [← @Entry.edges?_eq_error_iff strategy heir entry, failed, Except.error.injEq,
          Except.error.injEq]
      · rintro rfl
        cases refused
    · obtain ⟨recorded, extended⟩ := step_of_adds current adds
      rw [recorded]
      refine ⟨fun other => ⟨nofun, fun refused => ?_⟩, nofun, fun _ => ⟨_, adds, extended⟩, ?_⟩
      · rw [step_of_refused current refused] at recorded
        cases recorded
      · exact fun _ => rfl
  · rw [← afterSteps_filter]
    exact extends_afterSteps graph fun made listed => (List.mem_filter.mp listed).2

end Graph
end Lineage
