import Lineage.Proofs.Extraction
import Mathlib.Data.List.Infix

/-!
# Names of specialized types

An argument of a generic type is any text, with commas, brackets and arrows of its own.  If its
brackets match and it has no comma before a blank outside of them, then the name of the
specialized type shows where the argument ends.  Such a name is that of one type only, and in a
graph its node has the targets of that type and no others.
-/

namespace Lineage.Specialization

variable {first second text : List Char} {base : String} {arguments : List String}

/-! ## Brackets -/

/-- What a character adds to the depth of brackets.  The end of an arrow closes nothing. -/
def turn (before : Option Char) (c : Char) : Int :=
  if c = '<' ∨ c = '(' ∨ c = '[' then 1
  else if c = ')' ∨ c = ']' ∨ c = '>' ∧ before ≠ some '-' then -1
  else 0

def depthFrom (before : Option Char) : List Char → Int
  | [] => 0
  | c :: rest => turn before c + depthFrom (some c) rest

def depth (text : List Char) : Int :=
  depthFrom none text

/-- No bracket is closed before it is opened, none stays open, and outside of brackets no comma
stands before a blank. -/
structure Balanced (text : List Char) : Prop where
  depth_nonneg : ∀ front, front <+: text → 0 ≤ depth front
  depth_eq_zero : depth text = 0
  undivided : ∀ front rest, text = front ++ ',' :: ' ' :: rest → depth front ≠ 0

theorem balanced_iff :
    Balanced text ↔
      depth text = 0 ∧
        ∀ front ∈ text.inits, 0 ≤ depth front ∧
          ([',', ' '] <+: text.drop front.length → depth front ≠ 0) := by
  constructor
  · intro balanced
    refine ⟨balanced.depth_eq_zero, fun front listed => ?_⟩
    have starts := (List.mem_inits front text).mp listed
    refine ⟨balanced.depth_nonneg front starts, fun divides => ?_⟩
    obtain ⟨after, rfl⟩ := starts
    rw [List.drop_left] at divides
    obtain ⟨rest, rfl⟩ := divides
    exact balanced.undivided front rest rfl
  · rintro ⟨closed, fronts⟩
    refine ⟨fun front starts => (fronts front ((List.mem_inits _ _).mpr starts)).1, closed, ?_⟩
    rintro front rest rfl
    refine (fronts front ((List.mem_inits _ _).mpr (List.prefix_append _ _))).2 ?_
    rw [List.drop_left]
    exact ⟨rest, rfl⟩

instance decidableBalanced (text : List Char) : Decidable (Balanced text) :=
  decidable_of_iff _ balanced_iff.symm

/-! ## Arguments in a row -/

theorem Balanced.eq_nil_of_append (balanced : Balanced second) (closed : depth first = 0)
    {more rest rest' : List Char} (longer : second = first ++ more)
    (same : ',' :: ' ' :: rest = more ++ ',' :: ' ' :: rest') : more = [] := by
  match more with
  | [] => rfl
  | [_] => simp at same
  | _ :: _ :: more =>
      -- The comma and the blank after the first text would stand in the second one.
      obtain ⟨rfl, rfl, -⟩ : ',' = _ ∧ ' ' = _ ∧ _ := by simpa using same
      exact absurd closed (balanced.undivided first more longer)

theorem Balanced.eq_of_append_eq (balanced : Balanced first) (balanced' : Balanced second)
    {rest rest' : List Char}
    (same : first ++ ',' :: ' ' :: rest = second ++ ',' :: ' ' :: rest') : first = second := by
  rcases List.append_eq_append_iff.mp same with ⟨more, longer, same⟩ | ⟨more, longer, same⟩
  · have none := balanced'.eq_nil_of_append balanced.depth_eq_zero longer same
    rw [longer, none, List.append_nil]
  · have none := balanced.eq_nil_of_append balanced'.depth_eq_zero longer same
    rw [longer, none, List.append_nil]

theorem toList_intercalate_cons_cons (argument next : String) (others : List String) :
    (String.intercalate ", " (argument :: next :: others)).toList =
      argument.toList ++ ',' :: ' ' :: (String.intercalate ", " (next :: others)).toList := by
  simp [String.intercalate_cons_cons]

theorem Balanced.ne_intercalate {argument other next : String} {others : List String}
    (balanced : Balanced argument.toList) (balanced' : Balanced other.toList) :
    argument ≠ String.intercalate ", " (other :: next :: others) := by
  intro same
  have texts := congrArg String.toList same
  rw [toList_intercalate_cons_cons] at texts
  exact balanced.undivided _ _ texts balanced'.depth_eq_zero

theorem intercalate_inj {arguments' : List String} (applied : arguments ≠ [])
    (applied' : arguments' ≠ []) (balanced : ∀ argument ∈ arguments, Balanced argument.toList)
    (balanced' : ∀ argument ∈ arguments', Balanced argument.toList)
    (same : String.intercalate ", " arguments = String.intercalate ", " arguments') :
    arguments = arguments' := by
  induction arguments generalizing arguments' with
  | nil => exact absurd rfl applied
  | cons argument others ih =>
      obtain ⟨argument', others', rfl⟩ := List.exists_cons_of_ne_nil applied'
      obtain ⟨here, later⟩ := List.forall_mem_cons.mp balanced
      obtain ⟨here', later'⟩ := List.forall_mem_cons.mp balanced'
      cases others with
      | nil =>
          cases others' with
          | nil => simpa using same
          | cons next' others' =>
              rw [String.intercalate_singleton] at same
              exact absurd same (here.ne_intercalate here')
      | cons next others =>
          cases others' with
          | nil =>
              rw [String.intercalate_singleton] at same
              exact absurd same.symm (here'.ne_intercalate here)
          | cons next' others' =>
              have texts := congrArg String.toList same
              rw [toList_intercalate_cons_cons, toList_intercalate_cons_cons] at texts
              have heads := here.eq_of_append_eq here' texts
              rw [heads] at texts
              have tails := List.append_cancel_left texts
              have rest := ih (List.cons_ne_nil _ _) (List.cons_ne_nil _ _) later later'
                (String.toList_inj.mp (by simpa using tails))
              rw [String.toList_inj.mp heads, rest]

/-! ## Names -/

/-- A generic type with arguments that its name keeps apart. -/
structure WellFormed (base : String) (arguments : List String) : Prop where
  plain : '<' ∉ base.toList
  applied : arguments ≠ []
  balanced : ∀ argument ∈ arguments, Balanced argument.toList

theorem toList_specializedName (base : String) (arguments : List String) :
    (specializedName base arguments).toList =
      base.toList ++ '<' :: ((String.intercalate ", " arguments).toList ++ ['>']) := by
  simp [specializedName]

theorem specializedName_ne {name : String} (plain : '<' ∉ name.toList) (base : String)
    (arguments : List String) : specializedName base arguments ≠ name := by
  rintro rfl
  simp [toList_specializedName] at plain

theorem takeWhile_specializedName (plain : '<' ∉ base.toList) (arguments : List String) :
    (specializedName base arguments).toList.takeWhile (· != '<') = base.toList := by
  have kept : ∀ c ∈ base.toList, (c != '<') = true := by
    intro c within
    have differs : c ≠ '<' := fun same => plain (same ▸ within)
    simp [differs]
  rw [toList_specializedName, List.takeWhile_append_of_pos kept]
  simp

theorem WellFormed.specializedName_inj {base' : String} {arguments' : List String}
    (formed : WellFormed base arguments) (formed' : WellFormed base' arguments') :
    specializedName base arguments = specializedName base' arguments' ↔
      base = base' ∧ arguments = arguments' := by
  constructor
  · intro same
    have bases : base = base' := by
      rw [← String.toList_inj, ← takeWhile_specializedName formed.plain arguments, same,
        takeWhile_specializedName formed'.plain]
    subst bases
    have texts := congrArg String.toList same
    rw [toList_specializedName, toList_specializedName] at texts
    have rows := (List.cons.inj (List.append_cancel_left texts)).2
    have rows' := String.toList_inj.mp (List.append_cancel_right rows)
    exact ⟨rfl, intercalate_inj formed.applied formed'.applied formed.balanced formed'.balanced
      rows'⟩
  · rintro ⟨rfl, rfl⟩
    rfl

/-! ## Nodes -/

inductive Clear : List Part → Prop where
  | plain {name : String} : '<' ∉ name.toList → Clear [.name name]
  | generic {base : String} {arguments : List String} :
      WellFormed base arguments → Clear [.name base, .arguments arguments]

variable {heir : String} {entry : Entry} {steps : List (String × Entry)}

theorem Clear.exists_adds (clear : Clear entry.parts) (heir : String) :
    ∃ links, entry.Adds heir .decompose links := by
  obtain ⟨text, parts⟩ := entry
  cases clear with
  | plain _ => exact ⟨_, .plain⟩
  | generic _ => exact ⟨_, .generic⟩

theorem targetsAmong_of_clear (formed : WellFormed base arguments) (plain : '<' ∉ heir.toList)
    (clear : Clear entry.parts) {links : List (String × String)}
    (adds : entry.Adds heir .decompose links) :
    Graph.targetsAmong (specializedName base arguments) links =
      if entry.parts = [.name base, .arguments arguments] then base :: arguments else [] := by
  have foreign : heir ≠ specializedName base arguments :=
    (specializedName_ne plain base arguments).symm
  cases adds with
  | plain => simp [Graph.targetsAmong, foreign]
  | @generic text base' arguments' rest =>
      cases clear with
      | generic formed' =>
          have same : specializedName base' arguments' = specializedName base arguments ↔
              base' = base ∧ arguments' = arguments := formed'.specializedName_inj formed
          by_cases here : base' = base ∧ arguments' = arguments
          · obtain ⟨rfl, rfl⟩ := here
            simp [Graph.targetsAmong, foreign, List.filter_map, Function.comp_def]
          · simp [Graph.targetsAmong, foreign, same, here]

theorem exists_addsEach_of_clear (clear : ∀ made ∈ steps, Clear made.2.parts) :
    ∃ added, AddsEach .decompose steps added := by
  induction steps with
  | nil => exact ⟨[], .nil⟩
  | cons made steps ih =>
      obtain ⟨here, later⟩ := List.forall_mem_cons.mp clear
      obtain ⟨links, adds⟩ := here.exists_adds made.1
      obtain ⟨added, all⟩ := ih later
      exact ⟨links :: added, .cons adds all⟩

def applications (base : String) (arguments : List String) (steps : List (String × Entry)) :
    List (String × Entry) :=
  steps.filter fun made => made.2.parts = [.name base, .arguments arguments]

theorem flatMap_targetsAmong (formed : WellFormed base arguments)
    (clear : ∀ made ∈ steps, '<' ∉ made.1.toList ∧ Clear made.2.parts)
    {added : List (List (String × String))} (adds : AddsEach .decompose steps added) :
    added.flatMap (Graph.targetsAmong (specializedName base arguments)) =
      (applications base arguments steps).flatMap fun _ => base :: arguments := by
  induction adds with
  | nil => rfl
  | @cons made links steps added first _ ih =>
      obtain ⟨⟨plain, here⟩, later⟩ := List.forall_mem_cons.mp clear
      rw [List.flatMap_cons, ih later, targetsAmong_of_clear formed plain here first, applications,
        applications, List.filter_cons]
      split <;> simp_all

theorem extract_of_clear (formed : WellFormed base arguments) {declarations : List Declaration}
    (clear : ∀ made ∈ entriesOf declarations, '<' ∉ made.1.toList ∧ Clear made.2.parts) :
    ∃ graph, extract .decompose declarations = .ok graph ∧
      graph.targets (specializedName base arguments) =
        (applications base arguments (entriesOf declarations)).flatMap
          fun _ => base :: arguments := by
  obtain ⟨added, adds⟩ := exists_addsEach_of_clear fun made listed => (clear made listed).2
  obtain ⟨graph, extracted, -, targets⟩ := extract_of_adds adds
  exact ⟨graph, extracted, (targets _).trans (flatMap_targetsAmong formed clear adds)⟩

/-- The name of a generic type whose arguments are balanced is no other such type's name and no
plain name.  Hence the node of the type has its base and its arguments for targets, as often as
the type is inherited from, and nothing that another type brings in. -/
theorem specializedName_unambiguous (formed : WellFormed base arguments) :
    (∀ base' arguments', WellFormed base' arguments' →
      (specializedName base arguments = specializedName base' arguments' ↔
        base = base' ∧ arguments = arguments')) ∧
    (∀ base' arguments' name, '<' ∉ name.toList → specializedName base' arguments' ≠ name) ∧
    ∀ declarations,
      (∀ made ∈ entriesOf declarations, '<' ∉ made.1.toList ∧ Clear made.2.parts) →
      ∃ graph, extract .decompose declarations = .ok graph ∧
        graph.targets (specializedName base arguments) =
          (applications base arguments (entriesOf declarations)).flatMap
            fun _ => base :: arguments :=
  ⟨fun _ _ formed' => formed.specializedName_inj formed',
    fun base' arguments' _ plain => specializedName_ne plain base' arguments',
    fun _ clear => extract_of_clear formed clear⟩

/-- Two types that differ in where a comma ends an argument, inherited by one class. -/
theorem specializedName_unambiguous_of_commas :
    let first := ["(Key, Int) -> [Int]", "Pair<A, B>,"]
    let second := ["(Key, Int) -> [Int]", "Pair<A, B>", ""]
    WellFormed "Map" first ∧ WellFormed "Map" second ∧
      specializedName "Map" first ≠ specializedName "Map" second ∧
      specializedName "Map" first ≠ "Map" ∧
      ∃ graph,
        extract .decompose
          [⟨"Cache", .class, 1, [.generic "Map" first, .named "Map", .generic "Map" second]⟩] =
            .ok graph ∧
        graph.targets (specializedName "Map" first) = "Map" :: first := by
  intro first second
  have formed : WellFormed "Map" first := ⟨by decide, by decide, by decide⟩
  have formed' : WellFormed "Map" second := ⟨by decide, by decide, by decide⟩
  obtain ⟨apart, apart_plain, extracted⟩ := specializedName_unambiguous formed
  have clear : ∀ made ∈ entriesOf
      [⟨"Cache", .class, 1, [.generic "Map" first, .named "Map", .generic "Map" second]⟩],
      '<' ∉ made.1.toList ∧ Clear made.2.parts := by
    have plain : '<' ∉ "Cache".toList ∧ '<' ∉ "Map".toList := by decide
    simp only [entriesOf, List.flatMap_cons, List.flatMap_nil, List.append_nil, List.map_cons,
      List.map_nil, List.forall_mem_cons]
    exact ⟨⟨plain.1, .generic formed⟩, ⟨plain.1, .plain plain.2⟩, ⟨plain.1, .generic formed'⟩,
      List.forall_mem_nil _⟩
  obtain ⟨graph, result, targets⟩ := extracted _ clear
  refine ⟨formed, formed', ?_, apart_plain _ _ _ (by decide), graph, result, targets.trans ?_⟩
  · rw [ne_eq, apart _ _ formed']
    decide
  · decide

/-- A comma before a blank outside of brackets is not told from one between arguments. -/
example : specializedName "Map" ["Key, Value"] = specializedName "Map" ["Key", "Value"] := by
  decide

end Lineage.Specialization
