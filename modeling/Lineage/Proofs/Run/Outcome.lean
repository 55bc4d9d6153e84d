import Lineage.Proofs.Pool.Delivery
import Lineage.Proofs.Results
import Lineage.Proofs.Text.Order
import Mathlib.Data.List.Induction

/-!
# How a run ends

A run ends in one of three ways.  If a worker was lost, it says so.  If it is strict and the
last result of some name is malformed, it names the least such name.  Otherwise it hands the
merged graph over, once.  Which of these happens depends on the last result of every name and
on nothing else that was collected.
-/

open Std

namespace Lineage

variable {α : Type} {name : α → String}

/-! ## The last result of a name -/

def Delivery.final? (name : α → String) (delivery : Delivery α FileResult) (key : String) :
    Option FileResult :=
  (delivery.collected.reverse.find? fun pair => name pair.1 == key).map Prod.snd

theorem Results.getElem?_ofList (entries : List (String × FileResult)) (key : String) :
    (ofList entries)[key]? = (entries.reverse.find? (·.1 == key)).map Prod.snd := by
  induction entries using List.reverseRecOn with
  | nil => exact ExtTreeMap.getElem?_empty
  | append_singleton entries entry ih =>
      have added : ofList (entries ++ [entry]) = (ofList entries).insert entry.1 entry.2 := by
        simp [ofList]
      rw [added, ExtTreeMap.getElem?_insert, ih]
      by_cases same : entry.1 = key <;> simp [same]

theorem Delivery.getElem?_results {delivery : Delivery α FileResult} {results : Results}
    (h : delivery.results? name = .ok results) (key : String) :
    results[key]? = delivery.final? name key := by
  unfold Delivery.results? at h
  split at h
  · cases h
  · cases h
    rw [Results.getElem?_ofList, Delivery.final?, ← List.map_reverse, List.find?_map]
    rw [Option.map_map]
    rfl

/-! ## The least malformed name -/

structure LeastMalformed (final : String → Option FileResult) (file : String)
    (cause : ExtractError) : Prop where
  final_eq : final file = some (.error cause)
  malformed : cause.isMalformed
  least : ∀ other otherCause, final other = some (.error otherCause) →
    otherCause.isMalformed → Text.bytes file ≤ Text.bytes other

namespace LeastMalformed

variable {final : String → Option FileResult} {file other : String} {cause otherCause : ExtractError}

theorem unique (h : LeastMalformed final file cause)
    (h' : LeastMalformed final other otherCause) : file = other ∧ cause = otherCause := by
  have le := (Text.bytes_le_iff _ _).mp (h.least _ _ h'.final_eq h'.malformed)
  have ge := (Text.bytes_le_iff _ _).mp (h'.least _ _ h.final_eq h.malformed)
  have same : file = other := String.le_antisymm le ge
  subst same
  have causes := h.final_eq.symm.trans h'.final_eq
  simp only [Option.some.injEq, Except.error.injEq] at causes
  exact ⟨rfl, causes⟩

end LeastMalformed

theorem Results.malformed?_eq_none_iff {results : Results} :
    results.malformed? = none ↔
      ∀ (file : String) cause, results[file]? = some (.error cause) →
        cause.isMalformed = false := by
  rw [malformed?, List.findSome?_eq_none_iff]
  constructor
  · intro none_listed file cause present
    have skipped := none_listed _ (ExtTreeMap.mem_toList_iff_getElem?_eq_some.mpr present)
    simpa using skipped
  · rintro sound ⟨file, result⟩ listed
    cases result with
    | ok _ => rfl
    | error cause =>
        have harmless := sound file cause (ExtTreeMap.mem_toList_iff_getElem?_eq_some.mp listed)
        simp [harmless]

theorem Results.leastMalformed_of_malformed? {results : Results} {file : String}
    {cause : ExtractError} (h : results.malformed? = some (file, cause)) :
    LeastMalformed (results[·]?) file cause := by
  rw [malformed?, List.findSome?_eq_some_iff] at h
  obtain ⟨before, ⟨key, result⟩, after, listed, found, skipped⟩ := h
  have ordered := Text.pairwise_toList results
  rw [listed, List.pairwise_append, List.pairwise_cons] at ordered
  obtain ⟨-, ⟨later, -⟩, -⟩ := ordered
  cases result with
  | ok _ => cases found
  | error reason =>
      simp only [Option.ite_none_right_eq_some, Option.some.injEq, Prod.mk.injEq] at found
      obtain ⟨malformed, rfl, rfl⟩ := found
      refine ⟨?_, malformed, ?_⟩
      · rw [← ExtTreeMap.mem_toList_iff_getElem?_eq_some, listed]
        simp
      · intro other otherCause present otherMalformed
        rw [Text.bytes_le_iff]
        rw [← ExtTreeMap.mem_toList_iff_getElem?_eq_some, listed, List.mem_append,
          List.mem_cons] at present
        rcases present with early | same | late
        · have skippedOther := skipped _ early
          simp [otherMalformed] at skippedOther
        · cases same
          exact String.le_refl _
        · exact Std.le_of_lt (later _ late)

theorem Results.malformed?_eq_some_iff {results : Results} {file : String}
    {cause : ExtractError} :
    results.malformed? = some (file, cause) ↔ LeastMalformed (results[·]?) file cause := by
  constructor
  · exact leastMalformed_of_malformed?
  · intro least
    cases found : results.malformed? with
    | none =>
        have harmless := malformed?_eq_none_iff.mp found file cause least.final_eq
        rw [least.malformed] at harmless
        cases harmless
    | some pair =>
        obtain ⟨rfl, rfl⟩ := least.unique (leastMalformed_of_malformed? found)
        rfl

/-! ## Endings -/

variable {m : Type → Type} [Monad m] {ρ : Type}

/-- How a run ends whose last results are `final` and which lost a worker or did not. -/
inductive Ends (strict : Bool) (lost : Option Lost) (final : String → Option FileResult)
    (finish : Graph → m ρ) : m (Except RunError ρ) → Prop where
  | workerLost {loss} : lost = some loss →
      Ends strict lost final finish (pure (.error (.workerLost loss)))
  | malformed {file cause} : lost = none → strict = true → LeastMalformed final file cause →
      Ends strict lost final finish (pure (.error (.malformed file cause)))
  | finished {results : Results} : lost = none → (∀ name : String, results[name]? = final name) →
      (strict = true → ∀ file cause, final file = some (.error cause) →
        cause.isMalformed = false) →
      Ends strict lost final finish (Except.ok <$> finish results.merged)

namespace Settings

variable {settings : Settings} {delivery : Delivery α FileResult} {finish : Graph → m ρ}
variable {outcome : m (Except RunError ρ)} {results : Results}

theorem conclude?_eq_merged (harmless : settings.strict = true → results.malformed? = none) :
    settings.conclude? results = .ok results.merged := by
  unfold conclude?
  split
  · rename_i strict found
    rw [harmless strict] at found
    cases found
  · rfl

theorem conclude?_eq_malformed {file : String} {cause : ExtractError}
    (strict : settings.strict = true) (found : results.malformed? = some (file, cause)) :
    settings.conclude? results = .error (.malformed file cause) := by
  simp only [conclude?, strict, found]

theorem handOver_of_lost {loss : Lost} (lost : delivery.lost = some loss) :
    handOver finish (delivery.results? name >>= settings.conclude?) =
      pure (.error (.workerLost loss)) := by
  simp only [Delivery.results?, lost]
  rfl

theorem exists_results (settings : Settings) (name : α → String) (finish : Graph → m ρ)
    (complete : delivery.lost = none) :
    ∃ results : Results, (∀ key : String, results[key]? = delivery.final? name key) ∧
      handOver finish (delivery.results? name >>= settings.conclude?) =
        handOver finish (settings.conclude? results) := by
  have collected : delivery.results? name =
      .ok (.ofList (delivery.collected.map fun pair => (name pair.1, pair.2))) := by
    simp only [Delivery.results?, complete]
  refine ⟨_, Delivery.getElem?_results collected, ?_⟩
  rw [collected]
  rfl

theorem ends_iff :
    Ends settings.strict delivery.lost (delivery.final? name) finish outcome ↔
      outcome = handOver finish (delivery.results? name >>= settings.conclude?) := by
  cases lost : delivery.lost with
  | some loss =>
      rw [handOver_of_lost lost]
      constructor
      · rintro (same | _ | _)
        · cases same
          rfl
        all_goals contradiction
      · rintro rfl
        exact .workerLost rfl
  | none =>
      obtain ⟨results, final, handed⟩ := exists_results settings name finish lost
      have finals : delivery.final? name = (results[·]?) := funext fun key => (final key).symm
      rw [handed, finals]
      constructor
      · rintro (_ | ⟨_, strict, least⟩ | ⟨_, same, harmless⟩)
        · contradiction
        · rw [conclude?_eq_malformed strict (Results.malformed?_eq_some_iff.mpr least)]
          rfl
        · cases ExtTreeMap.ext_getElem? same
          rw [conclude?_eq_merged fun strict =>
            Results.malformed?_eq_none_iff.mpr (harmless strict)]
          rfl
      · rintro rfl
        by_cases harmless : settings.strict = true → results.malformed? = none
        · rw [conclude?_eq_merged harmless]
          exact .finished rfl (fun _ => rfl) fun strict =>
            Results.malformed?_eq_none_iff.mp (harmless strict)
        · obtain ⟨strict, found⟩ := Classical.not_imp.mp harmless
          obtain ⟨⟨file, cause⟩, found⟩ := Option.ne_none_iff_exists'.mp found
          rw [conclude?_eq_malformed strict found]
          exact .malformed rfl strict (Results.malformed?_eq_some_iff.mp found)

theorem mayRun_iff {result : α → Option FileResult} {files : List α} :
    settings.MayRun name result files finish outcome ↔
      ∃ delivery, settings.dispatch.Delivers result files delivery ∧
        Ends settings.strict delivery.lost (delivery.final? name) finish outcome := by
  constructor
  · rintro ⟨_, ⟨delivery, delivers, rfl⟩, rfl⟩
    exact ⟨delivery, delivers, ends_iff.mpr rfl⟩
  · rintro ⟨delivery, delivers, ends⟩
    exact ⟨_, ⟨delivery, delivers, rfl⟩, (ends_iff.mp ends).symm⟩

theorem mayRun_run {result : α → Option FileResult} {files : List α}
    (accepted : settings.dispatch.Accepted)
    (alive : settings.dispatch = .sequential → ∀ file ∈ files, (result file).isSome) :
    settings.MayRun name result files finish (settings.run name result files finish) := by
  obtain ⟨delivery, delivered⟩ := Dispatch.exists_deliver accepted alive
  refine ⟨_, ⟨delivery, Dispatch.delivers_of_deliver delivered, rfl⟩, ?_⟩
  rw [run, graph?, collect?, delivered]

/-! ## Strict and lenient runs -/

theorem ends_lenient_of_ends_strict {lost : Option Lost} {final : String → Option FileResult}
    (h : Ends true lost final finish outcome) :
    (∃ file cause, LeastMalformed final file cause ∧
      outcome = pure (.error (.malformed file cause))) ∨ Ends false lost final finish outcome := by
  cases h with
  | workerLost lost => exact .inr (.workerLost lost)
  | malformed _ _ least => exact .inl ⟨_, _, least, rfl⟩
  | finished complete same _ => exact .inr (.finished complete same nofun)

end Settings

/-! ## One file after the other -/

theorem find?_outcomes {result : α → Option FileResult} {files : List α}
    (alive : ∀ file ∈ files, (result file).isSome) (key : String) :
    ((Pool.outcomes result files).find? fun pair => name pair.1 == key).map Prod.snd =
      (files.find? (name · == key)).bind result := by
  induction files with
  | nil => rfl
  | cons file files ih =>
      obtain ⟨value, done⟩ := Option.isSome_iff_exists.mp (alive file (.head _))
      have rest := ih fun other listed => alive other (.tail _ listed)
      rw [Pool.outcomes_cons_of_some done]
      by_cases here : name file = key
      · simp [here, done]
      · simpa [here] using rest

theorem Delivery.final?_of_sequential {result : α → Option FileResult} {files : List α}
    {delivery : Delivery α FileResult}
    (h : Dispatch.Delivers result files .sequential delivery) (key : String) :
    delivery.final? name key = (files.reverse.find? (name · == key)).bind result := by
  cases h with
  | @sequential collected all =>
      obtain ⟨alive, same⟩ := Dispatch.mapM_eq_some_iff.mp all
      subst same
      have turned : (Pool.outcomes result files).reverse = Pool.outcomes result files.reverse := by
        simp [Pool.outcomes]
      rw [Delivery.final?, turned, find?_outcomes fun file listed => alive file (by simpa using listed)]

namespace Settings

/-- A run may end exactly as the last results of its files say, whatever dispatch delivers them
and in whatever order.  It reports a loss if and only if a worker died.  Otherwise a strict run
stops at the least name whose last result is malformed, and any other run finishes once, on the
graph merged from the last results.  Where a strict run finishes, so does the run that is not
strict, in the same way. -/
theorem mayRun_iff_ends {m : Type → Type} [Monad m] {ρ : Type} (settings : Settings)
    (strategy : Strategy) (name : α → String)
    (parsed : α → Option (Except ParseError (List Declaration))) (files : List α)
    (finish : Graph → m ρ) :
    let result := fun file => (parsed file).map (extractFrom strategy)
    (∀ outcome, settings.MayRun name result files finish outcome ↔
      ∃ delivery, settings.dispatch.Delivers result files delivery ∧
        Ends settings.strict delivery.lost (delivery.final? name) finish outcome) ∧
    (settings.dispatch.Accepted →
      (settings.dispatch = .sequential → ∀ file ∈ files, (parsed file).isSome) →
      settings.MayRun name result files finish (settings.run name result files finish)) ∧
    (∀ delivery, settings.dispatch.Delivers result files delivery →
      (delivery.lost = none ↔ ∀ file ∈ files, (parsed file).isSome) ∧
      (∀ lost, delivery.lost = some lost →
        lost = ⟨files.length, files.countP fun file => (parsed file).isSome⟩) ∧
      (settings.dispatch = .sequential → ∀ key,
        delivery.final? name key = (files.reverse.find? (name · == key)).bind result)) ∧
    ∀ lost final outcome, Ends true lost final finish outcome →
      (∃ file cause, LeastMalformed final file cause ∧
        outcome = pure (.error (.malformed file cause))) ∨ Ends false lost final finish outcome := by
  intro result
  have alive_iff : ∀ file, (result file).isSome = (parsed file).isSome := fun _ => by
    simp [result]
  refine ⟨fun _ => mayRun_iff, ?_, ?_, fun _ _ _ => ends_lenient_of_ends_strict⟩
  · intro accepted alive
    refine mayRun_run accepted fun sequential file listed => ?_
    rw [alive_iff]
    exact alive sequential file listed
  · intro delivery delivers
    simp only [← alive_iff]
    refine ⟨delivers.lost_eq_none_iff, fun _ => delivers.eq_of_lost_eq_some, ?_⟩
    intro sequential
    rw [sequential] at delivers
    exact Delivery.final?_of_sequential delivers

/-- A strict run over a malformed file, a file that cannot be read, and a good file that takes
the name of the first one. -/
theorem mayRun_ends_of_overwritten :
    let parsed : String × Nat → Option (Except ParseError (List Declaration)) := fun file =>
      if file.2 = 0 then some (.ok [⟨"B", .class, 1, [⟨"", []⟩]⟩])
      else if file.2 = 1 then some (.error .noTree)
      else some (.ok [⟨"A", .class, 1, [.named "Base"]⟩])
    let result := fun file => (parsed file).map (extractFrom .decompose)
    let files := [("a", 0), ("b", 1), ("a", 2)]
    let settings : Settings := ⟨.sequential, true⟩
    let finish : Graph → StateM (List Graph) Nat := fun graph calls =>
      (graph.edgeCount, graph :: calls)
    settings.dispatch.Accepted ∧
    (settings.dispatch = .sequential → ∀ file ∈ files, (parsed file).isSome) ∧
    ∃ delivery, settings.dispatch.Delivers result files delivery ∧
      Ends settings.strict delivery.lost (delivery.final? Prod.fst) finish
        (settings.run Prod.fst result files finish) := by
  intro parsed result files settings finish
  have alive : ∀ file ∈ files, (parsed file).isSome := by decide
  obtain ⟨ends, runs, _⟩ :=
    mayRun_iff_ends settings .decompose Prod.fst parsed files finish
  exact ⟨trivial, fun _ => alive, (ends _).mp (runs trivial fun _ => alive)⟩

end Settings
end Lineage
