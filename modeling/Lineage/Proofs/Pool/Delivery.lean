import Lineage.Proofs.Pool.Progress

/-!
# What a dispatch delivers

Whatever the order of events, a dispatch collects every result of a living worker once, and it
reports a loss exactly when some worker died.  The one schedule that `Dispatch.deliver` follows
is such an order.
-/

namespace Lineage

open Pool

variable {α β : Type} {work : α → Option β} {files : List α}

/-! ## Verdicts -/

theorem Pool.verdict_eq_ok_iff :
    verdict work files = .ok () ↔ ∀ file ∈ files, (work file).isSome := by
  rw [← length_outcomes_eq_iff]
  simp [verdict]

theorem Pool.verdict_eq_error_iff {lost : Lost} :
    verdict work files = .error lost ↔
      (¬∀ file ∈ files, (work file).isSome) ∧
        lost = ⟨files.length, files.countP fun file => (work file).isSome⟩ := by
  rw [← length_outcomes_eq_iff, ← length_outcomes]
  by_cases all : (outcomes work files).length = files.length
  · simp [verdict, all]
  · simp [verdict, all, eq_comm]

namespace Dispatch

variable {dispatch : Dispatch} {delivery : Delivery α β}

/-! ## One file after the other -/

theorem mapM_eq_some_iff {collected : List (α × β)} :
    files.mapM (fun file => (work file).map (file, ·)) = some collected ↔
      (∀ file ∈ files, (work file).isSome) ∧ collected = outcomes work files := by
  induction files generalizing collected with
  | nil => exact ⟨fun h => ⟨by simp, by simpa using h.symm⟩, fun h => by simp [h.2]⟩
  | cons file files ih =>
      cases done : work file with
      | none => simp [List.mapM_cons, done]
      | some result =>
          simp only [List.mapM_cons, done, Option.map_some, outcomes_cons_of_some done]
          constructor
          · intro h
            cases rest : files.mapM fun file => (work file).map (file, ·) with
            | none => simp [rest] at h
            | some others =>
                obtain ⟨alive, same⟩ := ih.mp rest
                simp [rest] at h
                exact ⟨by simpa [done] using alive, by rw [← h, same]⟩
          · rintro ⟨alive, rfl⟩
            have rest := ih.mpr ⟨fun other listed => alive other (.tail _ listed), rfl⟩
            simp [rest]

/-! ## Every order of events -/

namespace Delivers

theorem accepted (h : Delivers work files dispatch delivery) : dispatch.Accepted := by
  cases h with
  | sequential => trivial
  | succeed accepted | lose accepted => exact accepted

theorem collected_perm (h : Delivers work files dispatch delivery) :
    delivery.collected.Perm (outcomes work files) := by
  cases h with
  | sequential all => exact (mapM_eq_some_iff.mp all).2 ▸ .refl _
  | succeed _ run returned | lose _ run returned =>
      exact (List.reverse_perm _).trans (returned_of_runs run returned).1

theorem verdict_eq (h : Delivers work files dispatch delivery) :
    verdict work files = delivery.lost.elim (.ok ()) .error := by
  cases h with
  | sequential all => exact verdict_eq_ok_iff.mpr (mapM_eq_some_iff.mp all).1
  | succeed _ run returned | lose _ run returned => exact (returned_of_runs run returned).2.symm

theorem lost_eq_none_iff (h : Delivers work files dispatch delivery) :
    delivery.lost = none ↔ ∀ file ∈ files, (work file).isSome := by
  rw [← verdict_eq_ok_iff, h.verdict_eq]
  cases delivery.lost <;> simp

theorem eq_of_lost_eq_some (h : Delivers work files dispatch delivery) {lost : Lost}
    (short : delivery.lost = some lost) :
    lost = ⟨files.length, files.countP fun file => (work file).isSome⟩ := by
  have verdict := h.verdict_eq
  rw [short] at verdict
  exact (verdict_eq_error_iff.mp verdict).2

end Delivers

/-! ## The one schedule -/

theorem delivers_of_deliver (h : dispatch.deliver work files = .ok delivery) :
    Delivers work files dispatch delivery := by
  cases dispatch with
  | sequential =>
      simp only [deliver] at h
      split at h
      · rename_i all
        cases h
        exact .sequential all
      · cases h
  | concurrent workers =>
      simp only [deliver] at h
      split at h
      · cases h
      rename_i refused
      have accepted : max workers 1 ≤ maxPermits := Nat.le_of_not_lt refused
      obtain ⟨steps, run⟩ := runs_finish work files.length (start workers files)
      have returned := (sound_start work workers files).returned_finish
      rw [returned] at h
      cases said : verdict work files with
      | ok =>
          rw [said] at h returned
          cases h
          exact .succeed accepted run returned
      | error lost =>
          rw [said] at h returned
          cases h
          exact .lose accepted run returned

theorem exists_deliver (accepted : dispatch.Accepted)
    (alive : dispatch = .sequential → ∀ file ∈ files, (work file).isSome) :
    ∃ delivery, dispatch.deliver work files = .ok delivery := by
  cases dispatch with
  | sequential =>
      have all := mapM_eq_some_iff.mpr ⟨alive rfl, rfl⟩
      exact ⟨⟨outcomes work files, none⟩, by simp only [deliver, all]⟩
  | concurrent workers =>
      have starts : ¬maxPermits < max workers 1 := Nat.not_lt.mpr accepted
      simp only [deliver, if_neg starts]
      split <;> exact ⟨_, rfl⟩

/-- Whenever a pool returns, in whatever order its parts acted, it has collected the result of
every file whose worker lived, once for each place of the file in the list, and nothing else.
It reports no loss exactly when no worker died, and otherwise says how many results there
should have been and how many there are. -/
theorem collected_once_of_delivers (work : α → Option β) (workers : Nat) (files : List α)
    {delivery : Delivery α β} (h : Delivers work files (.concurrent workers) delivery) :
    delivery.collected.Perm (files.filterMap fun file => (work file).map (file, ·)) ∧
    (delivery.lost = none ↔ ∀ file ∈ files, (work file).isSome) ∧
    ∀ lost, delivery.lost = some lost →
      lost = ⟨files.length, files.countP fun file => (work file).isSome⟩ :=
  ⟨h.collected_perm, h.lost_eq_none_iff, fun _ short => h.eq_of_lost_eq_some short⟩

/-- Three files, one of them listed twice, in a pool of no workers that loses the third: the
first worker sends only after the next one has started. -/
theorem collected_once_of_dead_worker :
    let work : String → Option Nat := fun file => if file = "gone" then none else some 2
    let files := ["ok", "ok", "gone"]
    let delivery : Delivery String Nat := ⟨[("ok", 2), ("ok", 2)], some ⟨3, 2⟩⟩
    Delivers work files (.concurrent 0) delivery ∧
    delivery.collected.Perm (files.filterMap fun file => (work file).map (file, ·)) ∧
    (delivery.lost = none ↔ ∀ file ∈ files, (work file).isSome) ∧
    ∀ lost, delivery.lost = some lost →
      lost = ⟨files.length, files.countP fun file => (work file).isSome⟩ := by
  intro work files delivery
  have run : Runs work 3 (start 0 files) 18
      ⟨[], none, [], [], 0, [], [("ok", 2), ("ok", 2)], 1, 0, false,
        some (.error ⟨3, 2⟩)⟩ :=
    .next (.take rfl rfl rfl (by decide)) <|
    .next (.spawn rfl) <|
    .next (.complete [] [] rfl rfl) <|
    .next (.take rfl rfl rfl (by decide)) <|
    .next (.spawn rfl) <|
    .next (.send [] [] rfl) <|
    .next (.receive [] [] rfl (by decide) rfl) <|
    .next (.complete [] [] rfl rfl) <|
    .next (.send [] [] rfl) <|
    .next (.take rfl rfl rfl (by decide)) <|
    .next (.spawn rfl) <|
    .next (.die [] [] rfl rfl) <|
    .next (.stop rfl rfl rfl) <|
    .next (.receive [] [] rfl (by decide) rfl) <|
    .next (.leave (by decide)) <|
    .next (.leave (by decide)) <|
    .next (.leave (by decide)) <|
    .next (.lose rfl (by decide) rfl rfl) <| .refl _
  have delivers : Delivers work files (.concurrent 0) delivery :=
    @Delivers.lose _ _ work files 0 18 _ ⟨3, 2⟩ (by decide) run rfl
  exact ⟨delivers, collected_once_of_delivers work 0 files delivers⟩

end Dispatch
end Lineage
