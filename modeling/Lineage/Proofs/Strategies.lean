import Lineage.Proofs.Specialization
import Lineage.Proofs.Text.Collapse
import Mathlib.Data.List.Flatten

/-!
# Two strategies on one list of declarations

An entry that is written on one line as a name, or as a name applied to arguments, is tied to its
heir under the same name by either strategy.  Taking it apart only adds the links of a generic type
to its base and to its arguments, so that the graph of the texts lies within the graph of the parts.
-/

namespace Lineage

variable {source node : String} {entry : Entry} {steps : List (String × Entry)}
variable {declarations : List Declaration}

/-! ## Canonical entries -/

/-- An entry made of texts without line breaks, with no white space at its ends. -/
inductive Entry.Canonical : Entry → Prop where
  | named {name : String} : Text.OneLine name.toList → Text.Trimmed name.toList →
      Canonical (.named name)
  | generic {base : String} {arguments : List String} : Text.OneLine base.toList →
      (∀ argument ∈ arguments, Text.OneLine argument.toList) →
      Text.Trimmed (specializedName base arguments).toList → Canonical (.generic base arguments)

theorem oneLine_specializedName {base : String} {arguments : List String}
    (unbroken : Text.OneLine base.toList)
    (unbroken' : ∀ argument ∈ arguments, Text.OneLine argument.toList) :
    Text.OneLine (specializedName base arguments).toList := by
  have row : Text.OneLine (String.intercalate ", " arguments).toList := by
    rw [Text.toList_intercalate]
    exact Text.oneLine_joinWith (by decide) (List.forall_mem_map.mpr unbroken')
  rw [Specialization.toList_specializedName]
  refine List.forall_mem_append.mpr ⟨unbroken, List.forall_mem_cons.mpr ⟨by decide, ?_⟩⟩
  exact List.forall_mem_append.mpr ⟨row, List.forall_mem_singleton.mpr rfl⟩

theorem Entry.Canonical.collapseText_eq (canonical : entry.Canonical) :
    collapseText entry.text = entry.text := by
  cases canonical with
  | named unbroken trimmed => exact collapseText_eq_self unbroken trimmed
  | generic unbroken unbroken' trimmed =>
      exact collapseText_eq_self (oneLine_specializedName unbroken unbroken') trimmed

theorem Entry.named_ne_generic (name base : String) (arguments : List String) :
    Entry.named name ≠ Entry.generic base arguments := by
  simp [Entry.named, Entry.generic]

theorem Entry.generic_inj {base base' : String} {arguments arguments' : List String} :
    Entry.generic base arguments = Entry.generic base' arguments' ↔
      base = base' ∧ arguments = arguments' := by
  constructor
  · intro same
    simpa [Entry.generic] using congrArg Entry.parts same
  · rintro ⟨rfl, rfl⟩
    rfl

def IsSpecialized (steps : List (String × Entry)) (name : String) : Prop :=
  ∃ made ∈ steps, ∃ base arguments,
    made.2 = .generic base arguments ∧ name = specializedName base arguments

/-! ## Links -/

def Entry.resolution (entry : Entry) : List (String × String) :=
  match entry.parts with
  | .name base :: .arguments arguments :: _ =>
      (base :: arguments).map (specializedName base arguments, ·)
  | _ => []

theorem Entry.Canonical.adds_verbatim (canonical : entry.Canonical) (heir : String) :
    entry.Adds heir .verbatim [(heir, entry.text)] := by
  have adds : entry.Adds heir .verbatim _ := .verbatim
  rwa [canonical.collapseText_eq] at adds

theorem Entry.Canonical.adds_decompose (canonical : entry.Canonical) (heir : String) :
    entry.Adds heir .decompose (entry.resolution ++ [(heir, entry.text)]) := by
  cases canonical with
  | named _ _ => exact .plain
  | generic _ _ _ => exact .generic

theorem Entry.Canonical.targetsAmong_resolution (canonical : entry.Canonical)
    (foreign : ∀ base arguments, entry = .generic base arguments →
      source ≠ specializedName base arguments) :
    Graph.targetsAmong source entry.resolution = [] := by
  cases canonical with
  | named _ _ => rfl
  | @generic base arguments _ _ _ =>
      have differs := (foreign base arguments rfl).symm
      have links : (Entry.generic base arguments).resolution =
        (base :: arguments).map (specializedName base arguments, ·) := rfl
      simp [links, Graph.targetsAmong, differs]

theorem Entry.Canonical.mem_types_decompose (canonical : entry.Canonical) :
    node ∈ entry.types .decompose ↔ node ∈ entry.types .verbatim ∨
      ∃ base arguments, entry = .generic base arguments ∧ (node = base ∨ node ∈ arguments) := by
  have texts : entry.types .verbatim = [entry.text] := congrArg ([·]) canonical.collapseText_eq
  rw [texts, List.mem_singleton]
  cases canonical with
  | @named name _ _ =>
      have types : (Entry.named name).types .decompose = [(Entry.named name).text] := rfl
      simp [types, Entry.named_ne_generic]
  | @generic base arguments _ _ _ =>
      have types : (Entry.generic base arguments).types .decompose =
        (Entry.generic base arguments).text :: base :: arguments := rfl
      simp [types, Entry.generic_inj]

/-! ## Runs -/

theorem addsEach_map {strategy : Strategy} {added : String × Entry → List (String × String)}
    (adds : ∀ made ∈ steps, made.2.Adds made.1 strategy (added made)) :
    AddsEach strategy steps (steps.map added) :=
  List.forall₂_map_right_iff.mpr (List.forall₂_same.mpr adds)

theorem flatMap_targetsAmong_texts (source : String) (steps : List (String × Entry)) :
    (steps.map fun made => [(made.1, made.2.text)]).flatMap (Graph.targetsAmong source) =
      (steps.filter (·.1 = source)).map (·.2.text) := by
  have links : (steps.map fun made => [(made.1, made.2.text)]).flatten =
      steps.map fun made => (made.1, made.2.text) := List.flatMap_pure_eq_map _ _
  rw [← Graph.targetsAmong_flatten, links, Graph.targetsAmong, List.filter_map, List.map_map]
  rfl

theorem flatMap_targetsAmong_of_not_specialized
    (canonical : ∀ made ∈ steps, made.2.Canonical) (ordinary : ¬IsSpecialized steps source) :
    (steps.map fun made => made.2.resolution ++ [(made.1, made.2.text)]).flatMap
        (Graph.targetsAmong source) =
      (steps.map fun made => [(made.1, made.2.text)]).flatMap (Graph.targetsAmong source) := by
  rw [List.flatMap_map, List.flatMap_map]
  refine List.flatMap_congr fun made listed => ?_
  have none : Graph.targetsAmong source made.2.resolution = [] :=
    (canonical made listed).targetsAmong_resolution fun base arguments same name =>
      ordinary ⟨made, listed, base, arguments, same, name⟩
  rw [Graph.targetsAmong_append, none, List.nil_append]

theorem sublist_flatMap_targetsAmong (source : String) (steps : List (String × Entry)) :
    ((steps.map fun made => [(made.1, made.2.text)]).flatMap (Graph.targetsAmong source)).Sublist
      ((steps.map fun made => made.2.resolution ++ [(made.1, made.2.text)]).flatMap
        (Graph.targetsAmong source)) := by
  rw [List.flatMap_map, List.flatMap_map]
  refine List.Sublist.flatMap_right _ fun made _ => ?_
  rw [Graph.targetsAmong_append]
  exact List.sublist_append_right _ _

/-- Canonical entries are extracted by either strategy.  Taken as texts, they give every heir the
texts of its entries, in their order.  Taken apart, they give a name the same targets unless it is
that of a generic type among them, whose own links then stand between these targets, and the nodes
besides are the bases and arguments of the generic types. -/
theorem extract_strategies_agree
    (canonical : ∀ declaration ∈ declarations, ∀ entry ∈ declaration.inherited, entry.Canonical) :
    let steps := entriesOf declarations
    ∃ decomposed verbatim, extract .decompose declarations = .ok decomposed ∧
      extract .verbatim declarations = .ok verbatim ∧
      (∀ source, verbatim.targets source = (steps.filter (·.1 = source)).map (·.2.text)) ∧
      (∀ source, ¬IsSpecialized steps source →
        decomposed.targets source = verbatim.targets source) ∧
      (∀ source, (verbatim.targets source).Sublist (decomposed.targets source)) ∧
      ∀ node, node ∈ decomposed.nodes ↔ node ∈ verbatim.nodes ∨
        ∃ made ∈ steps, ∃ base arguments,
          made.2 = .generic base arguments ∧ (node = base ∨ node ∈ arguments) := by
  intro steps
  have each : ∀ made ∈ steps, made.2.Canonical := by
    rintro ⟨heir, entry⟩ listed
    obtain ⟨declaration, known, -, member⟩ := mem_entriesOf.mp listed
    exact canonical declaration known entry member
  have adds := addsEach_map fun made listed => (each made listed).adds_decompose made.1
  have adds' := addsEach_map fun made listed => (each made listed).adds_verbatim made.1
  obtain ⟨decomposed, extracted, extended, targets⟩ := extract_of_adds adds
  obtain ⟨verbatim, extracted', extended', targets'⟩ := extract_of_adds adds'
  refine ⟨decomposed, verbatim, extracted, extracted', fun source => ?_, fun source ordinary => ?_,
    fun source => ?_, fun node => ?_⟩
  · rw [targets', flatMap_targetsAmong_texts]
  · rw [targets, targets', flatMap_targetsAmong_of_not_specialized each ordinary]
  · rw [targets, targets']
    exact sublist_flatMap_targetsAmong source steps
  · rw [adds.mem_nodes extended, adds'.mem_nodes extended', ← exists_or]
    refine exists_congr fun made => ?_
    rw [← and_or_left, or_assoc]
    exact and_congr_right fun listed => or_congr_right (each made listed).mem_types_decompose

/-- A generic type that is declared itself, and inherits from itself besides a plain type. -/
theorem extract_strategies_agree_of_declared_name :
    let box := Entry.generic "Box" ["Int", "[A ,  B]"]
    let declarations : List Declaration :=
      [⟨"List", .class, 1, [box, .named "Base"]⟩,
        ⟨"Box<Int, [A ,  B]>", .extension, 2, [.named "Codable", box]⟩]
    (∀ declaration ∈ declarations, ∀ entry ∈ declaration.inherited, entry.Canonical) ∧
      ¬IsSpecialized (entriesOf declarations) "List" ∧
      ∃ decomposed verbatim, extract .decompose declarations = .ok decomposed ∧
        extract .verbatim declarations = .ok verbatim ∧
        decomposed.targets "List" = ["Box<Int, [A ,  B]>", "Base"] ∧
        verbatim.targets "Box<Int, [A ,  B]>" = ["Codable", "Box<Int, [A ,  B]>"] ∧
        ["Codable", "Box<Int, [A ,  B]>"].Sublist (decomposed.targets "Box<Int, [A ,  B]>") ∧
        "[A ,  B]" ∈ decomposed.nodes := by
  intro box declarations
  have generic : box.Canonical := .generic (by decide) (by decide) (by decide)
  have base : (Entry.named "Base").Canonical := .named (by decide) (by decide)
  have codable : (Entry.named "Codable").Canonical := .named (by decide) (by decide)
  have canonical : ∀ declaration ∈ declarations, ∀ entry ∈ declaration.inherited,
      entry.Canonical := by
    simp only [declarations, List.forall_mem_cons]
    exact ⟨⟨generic, base, nofun⟩, ⟨codable, generic, nofun⟩, nofun⟩
  have ordinary : ¬IsSpecialized (entriesOf declarations) "List" := by
    rintro ⟨-, -, base, arguments, -, name⟩
    exact Specialization.specializedName_ne (by decide) base arguments name.symm
  obtain ⟨decomposed, verbatim, extracted, extracted', texts, agrees, within, nodes⟩ :=
    extract_strategies_agree canonical
  refine ⟨canonical, ordinary, decomposed, verbatim, extracted, extracted',
    (agrees "List" ordinary).trans ((texts "List").trans (by decide)),
    (texts "Box<Int, [A ,  B]>").trans (by decide), ?_, ?_⟩
  · have listed : verbatim.targets "Box<Int, [A ,  B]>" = ["Codable", "Box<Int, [A ,  B]>"] :=
      (texts "Box<Int, [A ,  B]>").trans (by decide)
    exact listed ▸ within "Box<Int, [A ,  B]>"
  · exact (nodes "[A ,  B]").mpr
      (.inr ⟨("List", box), .head _, "Box", ["Int", "[A ,  B]"], rfl, .inr (by decide)⟩)

end Lineage
