import Lineage.Command.Arguments
import Lineage.Proofs.Except

/-!
# Asking for a pool

Arguments that do not ask for a pool are read in the same way after a request for one, and come
to the same request but for the pool.  Reading is a sequence of steps on a draft, and each step
does the same to a draft with a pool, as long as it does not itself ask for one.
-/

namespace Lineage.Command

variable {workers : Option Nat} {draft next : Draft} {ε : Type}

def Draft.pooled (workers : Option Nat) (draft : Draft) : Draft :=
  { draft with threaded := true, workers := workers.or draft.workers }

/-- A draft that does not ask for a pool, nor for workers where a number is given. -/
structure Draft.Plain (workers : Option Nat) (draft : Draft) : Prop where
  sequential : draft.threaded = false
  unnumbered : workers = none ∨
    draft.workers = none ∧ ∀ value, draft.pending ≠ some (.workers, value)

/-- A step that does the same to a draft with a pool. -/
def Carries (workers : Option Nat) (step : Draft → Except ε Draft) : Prop :=
  ∀ draft next, step draft = .ok next → next.Plain workers →
    draft.Plain workers ∧ step (draft.pooled workers) = .ok (next.pooled workers)

namespace Carries

theorem ok : Carries workers (.ok : Draft → Except ε Draft) := by
  intro draft next h plain
  cases h
  exact ⟨plain, rfl⟩

theorem error (cause : ε) : Carries workers fun _ => .error cause := by
  intro draft next h
  cases h

theorem bind {first second : Draft → Except ε Draft} (one : Carries workers first)
    (other : Carries workers second) : Carries workers fun draft => first draft >>= second := by
  intro draft next h plain
  obtain ⟨middle, done, last⟩ := bind_eq_ok_iff.mp h
  obtain ⟨plainMiddle, after⟩ := other middle next last plain
  obtain ⟨plainDraft, before⟩ := one draft middle done plainMiddle
  exact ⟨plainDraft, bind_eq_ok_iff.mpr ⟨_, before, after⟩⟩

theorem mapError {step : Draft → Except ε Draft} {δ : Type} (map : ε → δ)
    (carries : Carries workers step) : Carries workers fun draft => (step draft).mapError map := by
  intro draft next h plain
  obtain ⟨plainDraft, pooled⟩ := carries draft next (mapError_eq_ok_iff.mp h) plain
  exact ⟨plainDraft, mapError_eq_ok_iff.mpr pooled⟩

end Carries

/-! ## Steps -/

namespace Draft

theorem carries_store (setting : Setting) (value : String) :
    Carries workers fun draft => draft.store setting value := by
  intro draft next h plain
  simp only [store] at h
  split at h
  · cases h
  rename_i fresh
  cases setting with
  | path | output | format | strategy =>
      simp only at h
      split at h
      all_goals cases h
      exact ⟨⟨plain.sequential, plain.unnumbered⟩, by simp_all [store, has, pooled]⟩
  | workers =>
      simp only at h
      split at h
      all_goals cases h
      obtain ⟨sequential, rfl | ⟨same, -⟩⟩ := plain
      · exact ⟨⟨sequential, .inl rfl⟩, by simp_all [store, has, pooled]⟩
      · cases same

theorem isSome_workers_of_store {value : String} (h : draft.store .workers value = .ok next) :
    next.workers.isSome := by
  simp only [store] at h
  split at h
  · cases h
  · split at h
    all_goals cases h
    rfl

theorem carries_settle : Carries workers settle := by
  intro draft next h plain
  cases waiting : draft.pending with
  | none =>
      simp only [settle, waiting] at h
      cases h
      exact ⟨plain, by simp [settle, pooled, waiting]⟩
  | some pair =>
      obtain ⟨setting, _ | value⟩ := pair
      · simp [settle, waiting] at h
      · simp only [settle, waiting] at h
        obtain ⟨plain', same⟩ := carries_store setting value _ _ h plain
        have unnumbered : workers = none ∨ draft.workers = none ∧
            ∀ value, draft.pending ≠ some (.workers, value) := by
          rcases plain'.unnumbered with none_given | ⟨unset, -⟩
          · exact .inl none_given
          rcases plain.unnumbered with none_given | ⟨still, -⟩
          · exact .inl none_given
          refine .inr ⟨unset, fun other same => ?_⟩
          rw [waiting] at same
          cases same
          simpa [still] using isSome_workers_of_store h
        refine ⟨⟨plain'.sequential, unnumbered⟩, ?_⟩
        simp only [settle, pooled, waiting]
        exact same

theorem pending_of_store {setting : Setting} {value : String}
    (h : draft.store setting value = .ok next) : next.pending = draft.pending := by
  simp only [store] at h
  split at h
  · cases h
  cases setting
  all_goals
    simp only at h
    split at h
    all_goals cases h
    rfl

theorem pending_of_settle (h : draft.settle = .ok next) : next.pending = none := by
  unfold settle at h
  split at h
  · rename_i none_waits
    cases h
    exact none_waits
  · cases h
  · exact pending_of_store h

/-- Steps that begin by settling what waits need only look at drafts in which nothing does. -/
theorem carries_settled {step : Draft → Except Stop Draft}
    (settled : ∀ draft next, draft.pending = none → step draft = .ok next → next.Plain workers →
      draft.Plain workers ∧ step (draft.pooled workers) = .ok (next.pooled workers)) :
    Carries workers fun draft => draft.settle.mapError .usage >>= step := by
  intro draft next h plain
  obtain ⟨middle, done, last⟩ := bind_eq_ok_iff.mp h
  have quiet := pending_of_settle (mapError_eq_ok_iff.mp done)
  obtain ⟨plainMiddle, after⟩ := settled middle next quiet last plain
  obtain ⟨plainDraft, before⟩ := carries_settle.mapError Stop.usage draft middle done plainMiddle
  exact ⟨plainDraft, bind_eq_ok_iff.mpr ⟨_, before, after⟩⟩

theorem carries_raise (flag : Flag) : Carries workers fun draft => draft.raise flag := by
  refine carries_settled fun draft next _ h plain => ?_
  cases flag with
  | threaded =>
      simp only at h
      split at h
      all_goals cases h
      cases plain.sequential
  | strict | noSkip =>
      simp only at h
      split at h
      all_goals cases h
      exact ⟨⟨plain.sequential, plain.unnumbered⟩, by simp_all [pooled, pure, Except.pure]⟩
  | help | version => cases h

theorem carries_name (setting : Setting) (value : Option String) :
    Carries workers fun draft => draft.name setting value := by
  refine carries_settled fun draft next settled h plain => ?_
  cases value with
  | some value => exact (carries_store setting value).mapError Stop.usage draft next h plain
  | none =>
      cases h
      refine ⟨⟨plain.sequential, ?_⟩, rfl⟩
      exact plain.unnumbered.imp_right fun free => ⟨free.1, by simp [settled]⟩

theorem carries_place (path : String) : Carries workers fun draft => draft.place path := by
  intro draft next h plain
  simp only [place] at h
  split at h
  · cases h
  rename_i unplaced
  have same : (draft.pooled workers).placed = draft.placed := rfl
  simp only [place, same, if_neg unplaced]
  refine carries_settled (fun draft next settled h plain => ?_) draft next h plain
  cases h
  refine ⟨⟨plain.sequential, ?_⟩, rfl⟩
  exact plain.unnumbered.imp_right fun free => ⟨free.1, by simp [settled]⟩

theorem carries_readWord (word : String) : Carries workers fun draft => draft.readWord word := by
  intro draft next h plain
  simp only [readWord] at h
  split at h
  · rename_i setting waiting
    cases h
    refine ⟨⟨plain.sequential, plain.unnumbered.imp_right fun free => ⟨free.1, ?_⟩⟩, ?_⟩
    · intro value same
      cases waiting.symm.trans same
      exact free.2 _ rfl
    · simp [readWord, pooled, waiting]
  · rename_i others
    have placed := carries_place word draft next h plain
    refine ⟨placed.1, ?_⟩
    simp only [readWord]
    split
    · rename_i setting waiting
      exact absurd waiting (others setting)
    · exact placed.2

theorem carries_readLong (argument : List Char) :
    Carries workers fun draft => draft.readLong argument := by
  simp only [readLong]
  generalize Key.ofLong? _ = key
  rcases key with _ | flag | setting
  · exact .error _
  · generalize List.dropWhile _ _ = value
    cases value with
    | nil => exact carries_raise flag
    | cons c rest => exact .error _
  · exact carries_name setting _

theorem carries_readShort (argument : List Char) :
    Carries workers fun draft => draft.readShort argument := by
  induction argument with
  | nil => exact .ok
  | cons c rest ih =>
      simp only [readShort]
      generalize Key.ofShort? c = key
      rcases key with _ | flag | setting
      · exact .error _
      · exact .bind (carries_raise flag) ih
      · simp only
        split
        all_goals exact carries_name setting _

/-- How an argument is read does not depend on what has been read before. -/
theorem readArgument_cases (argument : String) :
    (∀ draft : Draft, draft.readArgument argument = draft.readWord argument) ∨
      (∃ long, ∀ draft : Draft, draft.readArgument argument = draft.readLong long) ∨
      ∃ short, ∀ draft : Draft, draft.readArgument argument = draft.readShort short := by
  unfold readArgument
  generalize argument.toList = text
  rcases text with _ | ⟨c, rest⟩
  · exact .inl fun _ => rfl
  by_cases dash : c = '-'
  · subst dash
    rcases rest with _ | ⟨d, rest⟩
    · exact .inl fun _ => rfl
    by_cases second : d = '-'
    · subst second
      exact .inr (.inl ⟨rest, fun _ => rfl⟩)
    · exact .inr (.inr ⟨d :: rest, fun _ => by simp [second]⟩)
  · exact .inl fun _ => by simp [dash]

theorem carries_readArgument (argument : String) :
    Carries workers fun draft => draft.readArgument argument := by
  rcases readArgument_cases argument with word | ⟨long, dashes⟩ | ⟨short, dash⟩
  · simpa only [word] using carries_readWord argument
  · simpa only [dashes] using carries_readLong long
  · simpa only [dash] using carries_readShort short

theorem carries_foldlM_place (paths : List String) :
    Carries workers fun draft => paths.foldlM place draft := by
  induction paths with
  | nil => exact .ok
  | cons path paths ih =>
      simp only [List.foldlM_cons]
      exact .bind (carries_place path) ih

theorem carries_readAll (arguments : List String) :
    Carries workers fun draft => draft.readAll arguments := by
  induction arguments with
  | nil => exact .ok
  | cons argument arguments ih =>
      by_cases last : argument = "--"
      · subst last
        exact carries_foldlM_place arguments
      · have step : (fun draft : Draft => draft.readAll (argument :: arguments)) =
            fun draft => draft.readArgument argument >>= fun draft => draft.readAll arguments := by
          funext draft
          simp [readAll]
        rw [step]
        exact .bind (carries_readArgument argument) ih

end Draft

/-! ## Requests -/

def Request.pooled (workers : Option Nat) (request : Request) : Request :=
  { request with threaded := true, workers := workers.or request.workers }

variable {request : Request} {arguments : List String}

theorem Draft.request_pooled (h : draft.request = .ok request)
    (sequential : request.threaded = false)
    (unnumbered : workers = none ∨ request.workers = none) :
    draft.Plain workers ∧ (draft.pooled workers).request = .ok (request.pooled workers) := by
  obtain ⟨settled, done, last⟩ := bind_eq_ok_iff.mp h
  rw [mapError_eq_ok_iff] at done
  cases placed : settled.path with
  | none => simp [placed, throw, throwThe, MonadExceptOf.throw] at last
  | some path =>
      simp only [placed] at last
      cases last
      have plainSettled : settled.Plain workers :=
        ⟨sequential, unnumbered.imp_right fun unset => ⟨unset, by simp [pending_of_settle done]⟩⟩
      obtain ⟨plain, pooled⟩ := carries_settle draft settled done plainSettled
      refine ⟨plain, bind_eq_ok_iff.mpr ⟨_, mapError_eq_ok_iff.mpr pooled, ?_⟩⟩
      have same : (settled.pooled workers).path = some path := placed
      simp only [same]
      rfl

theorem Draft.readAll_pooled (accepted : Request.ofArguments? arguments = .ok request)
    (sequential : request.threaded = false)
    (unnumbered : workers = none ∨ request.workers = none) :
    (do let draft ← (Draft.pooled workers {}).readAll arguments; draft.request) =
      .ok (request.pooled workers) := by
  obtain ⟨draft, read, requested⟩ := bind_eq_ok_iff.mp accepted
  obtain ⟨plain, pooled⟩ := draft.request_pooled requested sequential unnumbered
  obtain ⟨-, readPooled⟩ := carries_readAll arguments {} draft read plain
  exact bind_eq_ok_iff.mpr ⟨_, readPooled, pooled⟩

theorem Request.ofArguments?_threaded (accepted : Request.ofArguments? arguments = .ok request)
    (sequential : request.threaded = false) :
    Request.ofArguments? ("--threaded" :: arguments) = .ok (request.pooled none) := by
  have first : Draft.readArgument {} "--threaded" = .ok (Draft.pooled none {}) := rfl
  have start : Draft.readAll {} ("--threaded" :: arguments) =
      (Draft.pooled none {}).readAll arguments := by
    simp [Draft.readAll, first, bind, Except.bind]
  rw [ofArguments?, start]
  exact Draft.readAll_pooled accepted sequential (.inl rfl)

theorem Draft.readArgument_number {text : String} {count : Nat}
    (number : readNumber? text = .ok count) (draft : Draft) :
    draft.readArgument text = draft.readWord text := by
  unfold readNumber? at number
  unfold readArgument
  split
  · rename_i spelled
    simp [spelled, readDigits?] at number
  · rfl
  · rename_i spelled
    simp [spelled, readDigits?] at number
  · rfl

theorem Request.ofArguments?_workers {text : String} {count : Nat}
    (accepted : Request.ofArguments? arguments = .ok request)
    (sequential : request.threaded = false) (unnumbered : request.workers = none)
    (number : readNumber? text = .ok count) :
    Request.ofArguments? ("--workers" :: text :: "--threaded" :: arguments) =
      .ok (request.pooled (some count)) := by
  -- The rule for the arguments after a double dash is ruled out by this fact.
  have word : text = "--" → False := by
    rintro rfl
    cases number
  have waiting : Draft.readArgument {} "--workers" = .ok { pending := some (.workers, none) } := rfl
  have given : Draft.readArgument { pending := some (.workers, none) } text =
      .ok { pending := some (.workers, some text) } := by
    rw [Draft.readArgument_number number]
    rfl
  have stored : Draft.settle { pending := some (.workers, some text) } =
      .ok { workers := some count } := by
    simp [Draft.settle, Draft.store, Draft.has, number]
  have raised : Draft.readArgument { pending := some (.workers, some text) } "--threaded" =
      .ok (Draft.pooled (some count) {}) := by
    calc Draft.readArgument { pending := some (.workers, some text) } "--threaded"
        = Draft.raise { pending := some (.workers, some text) } .threaded := rfl
      _ = .ok (Draft.pooled (some count) {}) := by
        rw [Draft.raise, stored]
        rfl
  have start : Draft.readAll {} ("--workers" :: text :: "--threaded" :: arguments) =
      (Draft.pooled (some count) {}).readAll arguments := by
    simp [Draft.readAll, waiting, given, raised, bind, Except.bind]
  rw [ofArguments?, start]
  exact Draft.readAll_pooled accepted sequential (.inr unnumbered)

/-- Before arguments that do not ask for a pool a request for one is accepted, also one that comes
with a number of workers unless they give one. -/
structure ReadsPools (read : List String → Except Stop Request) : Prop where
  threaded {arguments : List String} {request : Request} : read arguments = .ok request →
    request.threaded = false → read ("--threaded" :: arguments) = .ok (request.pooled none)
  workers {arguments : List String} {request : Request} {text : String} {count : Nat} :
    read arguments = .ok request → request.threaded = false → request.workers = none →
    readNumber? text = .ok count →
    read ("--workers" :: text :: "--threaded" :: arguments) = .ok (request.pooled (some count))

theorem readsPools_ofArguments? : ReadsPools Request.ofArguments? where
  threaded := Request.ofArguments?_threaded
  workers := Request.ofArguments?_workers

end Lineage.Command
