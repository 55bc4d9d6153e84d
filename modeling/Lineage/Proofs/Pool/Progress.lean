import Lineage.Pool
import Mathlib.Data.List.Basic
import Mathlib.Data.List.Perm.Basic

/-!
# Pools make progress

Along every run of a pool three things stay as they were: the permits that are free or held,
the senders that somebody has, and the results that are collected, on their way or still to
be worked for.  From these it follows that a pool which has not returned can always take a
step.  Each step leaves less to do, so that a pool of `n` files returns within `6 * n + 2`
steps, whatever the order of events.
-/

namespace Lineage.Pool

variable {α β : Type} {work : α → Option β} {expected workers : Nat} {files : List α}
variable {pool next : Pool α β}

/-! ## Outcomes -/

def outcomes (work : α → Option β) (files : List α) : List (α × β) :=
  files.filterMap fun file => (work file).map (file, ·)

@[simp] theorem outcomes_nil : outcomes work [] = [] := rfl

theorem outcomes_cons_of_some {file : α} {result : β} (h : work file = some result)
    (files : List α) : outcomes work (file :: files) = (file, result) :: outcomes work files := by
  simp [outcomes, h]

theorem outcomes_cons_of_none {file : α} (h : work file = none) (files : List α) :
    outcomes work (file :: files) = outcomes work files := by
  simp [outcomes, h]

@[simp] theorem outcomes_append (first second : List α) :
    outcomes work (first ++ second) = outcomes work first ++ outcomes work second := by
  simp [outcomes]

theorem outcomes_perm {first second : List α} (h : first.Perm second) :
    (outcomes work first).Perm (outcomes work second) :=
  h.filterMap _

theorem length_outcomes (work : α → Option β) (files : List α) :
    (outcomes work files).length = files.countP fun file => (work file).isSome := by
  simp [outcomes, List.length_filterMap_eq_countP]

theorem length_outcomes_le (work : α → Option β) (files : List α) :
    (outcomes work files).length ≤ files.length :=
  List.length_filterMap_le _ _

theorem length_outcomes_eq_iff :
    (outcomes work files).length = files.length ↔ ∀ file ∈ files, (work file).isSome := by
  rw [length_outcomes, List.countP_eq_length]

def verdict (work : α → Option β) (files : List α) : Except Lost Unit :=
  if (outcomes work files).length = files.length then .ok ()
  else .error ⟨files.length, (outcomes work files).length⟩

/-! ## What a step keeps -/

def allPermits (pool : Pool α β) : Nat :=
  pool.permits + pool.running.length + pool.held.toList.length

theorem allPermits_of_step (h : Step work expected pool next) :
    next.allPermits = pool.allPermits := by
  cases h <;> simp_all [allPermits] <;> omega

def holders (pool : Pool α β) : Nat :=
  pool.producing.toNat + pool.running.length + pool.sending.length + pool.leaving

theorem senders_of_step (h : Step work expected pool next)
    (all : pool.senders = pool.holders) : next.senders = next.holders := by
  cases h <;> simp_all [holders] <;> omega

/-- A producer that stopped has started a worker for every file. -/
def Stopped (pool : Pool α β) : Prop :=
  pool.producing = false → pool.held = none ∧ pool.waiting = []

theorem stopped_of_step (h : Step work expected pool next) (stopped : pool.Stopped) :
    next.Stopped := by
  cases h <;> simp_all [Stopped]

/-- Every result that a pool has or may still get. -/
def due (work : α → Option β) (pool : Pool α β) : List (α × β) :=
  pool.received ++ (pool.channel ++ (pool.sending ++
    outcomes work (pool.running ++ (pool.held.toList ++ pool.waiting))))

private theorem perm_move {γ : Type} (before after front back : List γ) (item : γ) :
    (item :: front ++ ((before ++ after) ++ back)).Perm
      (front ++ ((before ++ item :: after) ++ back)) := by
  have moved : (before ++ item :: after).Perm (item :: (before ++ after)) :=
    List.perm_middle
  have inner : (front ++ ((before ++ item :: after) ++ back)).Perm
      (front ++ (item :: (before ++ after) ++ back)) :=
    (moved.append_right back).append_left front
  exact List.perm_middle.symm.trans inner.symm

theorem due_perm_of_step (h : Step work expected pool next) :
    (next.due work).Perm (pool.due work) := by
  cases h with
  | take _ free queued _ => simp [due, free, queued]
  | @spawn file holds =>
      have moved : (file :: pool.running ++ pool.waiting).Perm
          (pool.running ++ file :: pool.waiting) :=
        List.perm_middle.symm
      simpa [due, holds] using
        (((outcomes_perm moved).append_left _).append_left _).append_left pool.received
  | @complete file result before after started done =>
      have parted : outcomes work pool.running =
          outcomes work before ++ (file, result) :: outcomes work after := by
        rw [started, outcomes_append, outcomes_cons_of_some done]
      simp only [due, outcomes_append, parted]
      exact ((perm_move _ _ _ _ _).append_left _).append_left _
  | die before after started dead =>
      have parted : outcomes work pool.running = outcomes work (before ++ after) := by
        rw [started, outcomes_append, outcomes_cons_of_none dead, outcomes_append]
      simp [due, parted]
  | send before after ready =>
      simp only [due, ready]
      exact (perm_move _ _ _ _ _).append_left _
  | receive before after _ _ sent =>
      simp only [due, sent]
      exact perm_move _ _ _ _ _
  | stop | leave | succeed | lose => exact .refl _

theorem received_of_step (h : Step work expected pool next) {outcome : Except Lost Unit}
    (returned : pool.returned = some outcome) :
    next.received = pool.received ∧ next.returned = some outcome := by
  cases h <;> simp_all

/-! ## What every reachable pool satisfies -/

/-- The invariant of a pool for `files`.  A receiver that has returned has all results. -/
structure Sound (work : α → Option β) (workers : Nat) (files : List α) (pool : Pool α β) :
    Prop where
  permits : pool.allPermits = max workers 1
  senders : pool.senders = pool.holders
  stopped : pool.Stopped
  due : (pool.due work).Perm (outcomes work files)
  returned : ∀ outcome, pool.returned = some outcome →
    pool.received.Perm (outcomes work files) ∧ outcome = verdict work files

theorem sound_start (work : α → Option β) (workers : Nat) (files : List α) :
    Sound work workers files (start workers files) where
  permits := by simp [allPermits, start]
  senders := by simp [holders, start]
  stopped := by simp [Stopped, start]
  due := by simp [Pool.due, start]
  returned := by simp [start]

namespace Sound

theorem length_received_le (sound : Sound work workers files pool) :
    pool.received.length ≤ files.length := by
  have all := sound.due.length_eq
  have few := length_outcomes_le work files
  simp only [Pool.due, List.length_append] at all
  omega

theorem received_perm_of_length_eq (sound : Sound work workers files pool)
    (all : pool.received.length = files.length) :
    pool.received.Perm (outcomes work files) := by
  have few := length_outcomes_le work files
  have among : pool.received.Sublist (pool.due work) := List.sublist_append_left _ _
  -- Nothing else is due: it would make more results than there are files.
  have same : pool.received = pool.due work :=
    among.eq_of_length_le (by rw [sound.due.length_eq]; omega)
  exact same ▸ sound.due

theorem received_perm_of_closed (sound : Sound work workers files pool)
    (drained : pool.channel = []) (closed : pool.senders = 0) :
    pool.received.Perm (outcomes work files) := by
  have nobody : pool.holders = 0 := sound.senders ▸ closed
  simp only [holders, Nat.add_eq_zero_iff, List.length_eq_zero_iff, Bool.toNat_eq_zero] at nobody
  obtain ⟨⟨⟨stopped, idle⟩, settled⟩, _⟩ := nobody
  obtain ⟨free, started⟩ := sound.stopped stopped
  have due := sound.due
  simpa [Pool.due, drained, settled, idle, free, started] using due

theorem of_step (sound : Sound work workers files pool)
    (h : Step work files.length pool next) : Sound work workers files next where
  permits := (allPermits_of_step h).trans sound.permits
  senders := senders_of_step h sound.senders
  stopped := stopped_of_step h sound.stopped
  due := (due_perm_of_step h).trans sound.due
  returned := by
    intro outcome now
    cases before : pool.returned with
    | some earlier =>
        obtain ⟨received, returned⟩ := received_of_step h before
        rw [now, Option.some.injEq] at returned
        rw [received, returned]
        exact sound.returned earlier before
    | none =>
        cases h with
        | succeed _ all =>
            have received := sound.received_perm_of_length_eq all
            simp only [Option.some.injEq] at now
            exact ⟨received, by simp [← now, verdict, ← received.length_eq, all]⟩
        | lose _ few drained closed =>
            have received := sound.received_perm_of_closed drained closed
            simp only [Option.some.injEq] at now
            exact ⟨received, by simp [← now, verdict, ← received.length_eq, Nat.ne_of_lt few]⟩
        | take | spawn | stop | complete | die | send | leave | receive => simp_all

theorem of_runs {steps : Nat} {last : Pool α β} (sound : Sound work workers files pool)
    (run : Runs work files.length pool steps last) : Sound work workers files last := by
  induction run with
  | refl => exact sound
  | next step _ ih => exact ih (sound.of_step step)

theorem exists_next? (sound : Sound work workers files pool) (unreturned : pool.returned = none) :
    ∃ next, pool.next? work files.length = some next := by
  unfold next?
  simp only [unreturned]
  split
  · exact ⟨_, rfl⟩
  rename_i missing
  rw [if_pos (Nat.lt_of_le_of_ne sound.length_received_le missing)]
  split
  case h_3 file _ _ _ _ => cases work file <;> exact ⟨_, rfl⟩
  case h_5 idle free _ _ =>
      -- No worker is left, so that nobody but the producer could have a permit.
      have permits := sound.permits
      simp only [allPermits, idle, free, List.length_nil, Option.toList_none] at permits
      rw [if_pos (by omega)]
      exact ⟨_, rfl⟩
  case h_7 settled idle _ stopped =>
      -- Whoever still has a sender is about to leave.
      have senders := sound.senders
      simp only [holders, settled, idle, stopped, List.length_nil, Bool.toNat_false] at senders
      split
      · exact ⟨_, rfl⟩
      · rw [if_pos (by omega)]
        exact ⟨_, rfl⟩
  all_goals exact ⟨_, rfl⟩

end Sound

/-! ## Runs -/

theorem remaining_add_le_of_runs {steps : Nat} {last : Pool α β}
    (run : Runs work expected pool steps last) : last.remaining + steps ≤ pool.remaining := by
  induction run with
  | refl => simp
  | next step _ ih =>
      have less := remaining_lt_of_step step
      omega

theorem remaining_start (workers : Nat) (files : List α) :
    (start workers files : Pool α β).remaining = 6 * files.length + 2 := by
  simp [remaining, start]

theorem returned_of_runs {steps : Nat} {outcome : Except Lost Unit}
    (run : Runs work files.length (start workers files) steps pool)
    (returned : pool.returned = some outcome) :
    pool.received.Perm (outcomes work files) ∧ outcome = verdict work files :=
  ((sound_start work workers files).of_runs run).returned outcome returned

theorem runs_finish (work : α → Option β) (expected : Nat) (pool : Pool α β) :
    ∃ steps, Runs work expected pool steps (pool.finish work expected) := by
  fun_induction finish with
  | case1 pool => exact ⟨0, .refl pool⟩
  | case2 pool next step ih =>
      obtain ⟨steps, rest⟩ := ih
      exact ⟨steps + 1, .next (step_of_next? step) rest⟩

theorem next?_finish (work : α → Option β) (expected : Nat) (pool : Pool α β) :
    (pool.finish work expected).next? work expected = none := by
  fun_induction finish with
  | case1 pool stuck => exact stuck
  | case2 _ _ _ ih => exact ih

theorem Sound.returned_finish (sound : Sound work workers files pool) :
    (pool.finish work files.length).returned = some (verdict work files) := by
  obtain ⟨_, run⟩ := runs_finish work files.length pool
  have last := sound.of_runs run
  cases unreturned : (pool.finish work files.length).returned with
  | none =>
      obtain ⟨next, step⟩ := last.exists_next? unreturned
      rw [next?_finish] at step
      cases step
  | some outcome => rw [(last.returned outcome unreturned).2]

/-- A pool never gets stuck and never runs for ever.  Whatever order its parts have acted in,
it has returned or can take a step, no permit has been lost or made up, every step leaves less
to do, the steps so far are bounded by the number of files, and some way to return is open. -/
theorem returned_or_step_of_run (work : α → Option β) (workers : Nat) (files : List α)
    {steps : Nat} {pool : Pool α β}
    (run : Runs work files.length (start workers files) steps pool) :
    (pool.returned.isSome ∨ ∃ next, Step work files.length pool next) ∧
    pool.permits + pool.running.length + pool.held.toList.length = max workers 1 ∧
    (∀ next, Step work files.length pool next → next.remaining < pool.remaining) ∧
    steps ≤ 6 * files.length + 2 ∧
    ∃ more last, Runs work files.length pool more last ∧ last.returned.isSome := by
  have sound := (sound_start work workers files).of_runs run
  refine ⟨?_, sound.permits, fun _ => remaining_lt_of_step, ?_, ?_⟩
  · cases unreturned : pool.returned with
    | some _ => exact .inl rfl
    | none =>
        obtain ⟨next, step⟩ := sound.exists_next? unreturned
        exact .inr ⟨next, step_of_next? step⟩
  · have bound := remaining_add_le_of_runs run
    rw [remaining_start] at bound
    omega
  · obtain ⟨more, rest⟩ := runs_finish work files.length pool
    exact ⟨more, _, rest, by rw [sound.returned_finish]; rfl⟩

/-- A pool of no workers whose only worker has died and still holds its sender. -/
theorem returned_or_step_of_dead_worker :
    let work : String → Option Nat := fun _ => none
    let pool : Pool String Nat :=
      ⟨[], none, [], [], 1, [], [], 1, 2, true, none⟩
    Runs work 1 (start 0 ["gone"]) 3 pool ∧
    (pool.returned.isSome ∨ ∃ next, Step work 1 pool next) ∧
    pool.permits + pool.running.length + pool.held.toList.length = max 0 1 ∧
    (∀ next, Step work 1 pool next → next.remaining < pool.remaining) ∧
    3 ≤ 6 * 1 + 2 ∧
    ∃ more last, Runs work 1 pool more last ∧ last.returned.isSome := by
  intro work pool
  have run : Runs work 1 (start 0 ["gone"]) 3 pool :=
    .next (.take rfl rfl rfl (by decide))
      (.next (.spawn rfl) (.next (.die [] [] rfl rfl) (.refl _)))
  exact ⟨run, returned_or_step_of_run work 0 ["gone"] run⟩

end Lineage.Pool
