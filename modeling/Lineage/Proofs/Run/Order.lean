import Lineage.Proofs.Pool.Delivery
import Lineage.Proofs.Results
import Lineage.Scan

/-!
# Runs do not depend on order

As long as no worker dies, the results of a run are those of its files and nothing else: it
does not matter whether there is a pool, how many workers it has, in which order its parts act,
or in which order the files are listed.
-/

namespace Lineage.Settings

open Pool

variable {α : Type} {name : α → String} {files : List α} {settings : Settings}

/-- In every order of events the files give these results and the run ends in this way, and
there is such an order. -/
structure Yields (settings : Settings) (name : α → String) (result : α → Option FileResult)
    (files : List α) (results : Results) (conclusion : Except RunError Graph) : Prop where
  collects : ∀ outcome, settings.Collects name result files outcome ↔ outcome = .ok results
  runs : ∀ {m : Type → Type} [Monad m] {ρ : Type} (finish : Graph → m ρ) outcome,
    settings.MayRun name result files finish outcome ↔ outcome = handOver finish conclusion

theorem collects_collect? {result : α → Option FileResult} (accepted : settings.dispatch.Accepted)
    (alive : ∀ file ∈ files, (result file).isSome) :
    settings.Collects name result files (settings.collect? name result files) := by
  obtain ⟨delivery, delivered⟩ := Dispatch.exists_deliver accepted fun _ => alive
  exact ⟨delivery, Dispatch.delivers_of_deliver delivered, by simp [collect?, delivered]⟩

/-! ## Files whose workers live -/

section Living

variable {contribution : α → FileResult}

theorem outcomes_some (contribution : α → FileResult) (files : List α) :
    outcomes (fun file => some (contribution file)) files =
      files.map fun file => (file, contribution file) := by
  simp [outcomes]

theorem eq_ok_of_collects (distinct : (files.map name).Nodup) {outcome : Except RunError Results}
    (h : settings.Collects name (fun file => some (contribution file)) files outcome) :
    outcome = .ok (.ofList (files.map fun file => (name file, contribution file))) := by
  obtain ⟨delivery, delivers, rfl⟩ := h
  have complete : delivery.lost = none := delivers.lost_eq_none_iff.mpr (by simp)
  have collected := delivers.collected_perm
  rw [outcomes_some] at collected
  have entries := collected.map fun pair => (name pair.1, pair.2)
  rw [List.map_map] at entries
  have distinctEntries :
      ((delivery.collected.map fun pair => (name pair.1, pair.2)).map Prod.fst).Nodup := by
    rw [(entries.map Prod.fst).nodup_iff, List.map_map]
    exact distinct
  simp only [Delivery.results?, complete]
  rw [Results.ofList_perm entries distinctEntries]
  rfl

theorem collects_ok (accepted : settings.dispatch.Accepted) (distinct : (files.map name).Nodup)
    (contribution : α → FileResult) :
    settings.Collects name (fun file => some (contribution file)) files
      (.ok (.ofList (files.map fun file => (name file, contribution file)))) := by
  have collects : settings.Collects name (fun file => some (contribution file)) files _ :=
    collects_collect? accepted (by simp)
  rwa [eq_ok_of_collects distinct collects] at collects

theorem yields_of_accepted (accepted : settings.dispatch.Accepted)
    (distinct : (files.map name).Nodup) (contribution : α → FileResult) :
    let results := Results.ofList (files.map fun file => (name file, contribution file))
    settings.Yields name (fun file => some (contribution file)) files results
      (settings.conclude? results) where
  collects outcome := by
    constructor
    · exact eq_ok_of_collects distinct
    · rintro rfl
      exact collects_ok accepted distinct contribution
  runs finish outcome := by
    constructor
    · rintro ⟨collected, collects, rfl⟩
      rw [eq_ok_of_collects distinct collects]
      rfl
    · rintro rfl
      exact ⟨_, collects_ok accepted distinct contribution, rfl⟩

end Living

theorem conclude?_eq (settings : Settings) (results : Results) :
    settings.conclude? results = .ok results.merged ∨
      ∃ file cause, settings.conclude? results = .error (.malformed file cause) := by
  unfold conclude?
  split
  · exact .inr ⟨_, _, rfl⟩
  · exact .inl rfl

/-- The same files under distinct names, listed in two orders and dispatched in two ways, give
the same results and the same end, whatever the order of events in either run: both finish on
the same merged graph, or both stop at the same malformed file for the same cause. -/
theorem yields_of_perm (strategy : Strategy)
    (parser : String → Except ParseError (List Declaration)) (strict : Bool)
    {first second : List SourceFile} (perm : first.Perm second)
    (distinct : (first.map SourceFile.name).Nodup) {one other : Dispatch}
    (oneAccepted : one.Accepted) (otherAccepted : other.Accepted) :
    let result := fun file : SourceFile => some (extractFrom strategy (parser file.path))
    ∃ results conclusion,
      Yields ⟨one, strict⟩ SourceFile.name result first results conclusion ∧
      Yields ⟨other, strict⟩ SourceFile.name result second results conclusion ∧
      (conclusion = .ok results.merged ∨
        ∃ file cause, conclusion = .error (.malformed file cause)) := by
  let contribution := fun file : SourceFile => extractFrom strategy (parser file.path)
  let entry := fun file : SourceFile => (file.name, contribution file)
  have distinctSecond : (second.map SourceFile.name).Nodup := (perm.map _).nodup_iff.mp distinct
  have distinctEntries : ((first.map entry).map Prod.fst).Nodup := by
    rw [List.map_map]
    exact distinct
  have same : Results.ofList (first.map entry) = Results.ofList (second.map entry) :=
    Results.ofList_perm (perm.map entry) distinctEntries
  refine ⟨.ofList (first.map entry), conclude? ⟨one, strict⟩ (.ofList (first.map entry)), ?_⟩
  refine ⟨yields_of_accepted oneAccepted distinct contribution, ?_, conclude?_eq _ _⟩
  rw [same]
  have accepted : (Settings.mk other strict).dispatch.Accepted := otherAccepted
  exact yields_of_accepted accepted distinctSecond contribution

/-- A strict run over a good and a malformed file: one after the other, and by a pool of no
workers in the other order. -/
theorem yields_of_swapped :
    let parser : String → Except ParseError (List Declaration) := fun path =>
      if path = "/src/A" then .ok [⟨"A", .class, 1, [.named "Base"]⟩]
      else .ok [⟨"B", .class, 1, [.named "Base", ⟨"", []⟩]⟩]
    let result := fun file : SourceFile => some (extractFrom .decompose (parser file.path))
    let good := SourceFile.mk "/src/A" "A"
    let bad := SourceFile.mk "/src/B" "B"
    [good, bad].Perm [bad, good] ∧ ([good, bad].map SourceFile.name).Nodup ∧
    Dispatch.sequential.Accepted ∧ (Dispatch.concurrent 0).Accepted ∧
    ∃ results conclusion,
      Yields ⟨.sequential, true⟩ SourceFile.name result [good, bad] results conclusion ∧
      Yields ⟨.concurrent 0, true⟩ SourceFile.name result [bad, good] results conclusion ∧
      (conclusion = .ok results.merged ∨
        ∃ file cause, conclusion = .error (.malformed file cause)) := by
  intro parser result good bad
  have perm : [good, bad].Perm [bad, good] := .swap bad good []
  have distinct : ([good, bad].map SourceFile.name).Nodup := by decide
  have accepted : (Dispatch.concurrent 0).Accepted := by decide
  exact ⟨perm, distinct, trivial, accepted,
    yields_of_perm .decompose parser true perm distinct trivial accepted⟩

end Lineage.Settings
