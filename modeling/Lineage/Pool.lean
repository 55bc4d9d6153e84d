/-!
# Worker pools

Files are worked on one after the other, or by a pool. A producer takes a permit for each file
and starts a worker with it; a worker gives the permit back and sends its result to the
receiver; the receiver counts results until all have arrived or nobody is left to send one.

`Pool.Step` lets the parts of a pool act in any order. `Pool.next?` is one schedule among
them, and `Pool.finish` follows it to the end.
-/

namespace Lineage

/-! ## States -/

structure Lost where
  expected : Nat
  received : Nat
  deriving DecidableEq, Repr

/--
A pool that works on files of type `α` with results of type `β`. A file waits until the
producer takes a permit and holds it for the file, runs in a worker that has the permit, and has
its result sent, put into the channel, and received, the latest first. `leaving` counts the
workers that have nothing left to give up but their sender. `permits` are those that nobody has,
`senders` those that somebody has: one the producer, and one every worker. `producing` is false
once the producer has stopped, and `returned` is what the receiver returned.

Files that are told apart are different values of `α`: where a file is listed twice and the two
may fare differently, `α` is a file with its position.
-/
structure Pool (α β : Type) where
  waiting : List α
  held : Option α
  running : List α
  sending : List (α × β)
  leaving : Nat
  channel : List (α × β)
  received : List (α × β)
  permits : Nat
  senders : Nat
  producing : Bool
  returned : Option (Except Lost Unit)

namespace Pool

variable {α β : Type}

def start (workers : Nat) (files : List α) : Pool α β where
  waiting := files
  held := none
  running := []
  sending := []
  leaving := 0
  channel := []
  received := []
  permits := max workers 1
  senders := 1
  producing := true
  returned := none

/-! ## Steps -/

/-- The steps of a pool for `expected` files. The work on a file gives a result, or `none` if
its worker dies; a worker that dies gives up its permit, and then its sender, as any other. -/
inductive Step (work : α → Option β) (expected : Nat) : Pool α β → Pool α β → Prop where
  | take {pool file rest} :
      pool.producing = true → pool.held = none → pool.waiting = file :: rest →
      0 < pool.permits →
      Step work expected pool
        { pool with waiting := rest, held := some file, permits := pool.permits - 1 }
  | spawn {pool file} : pool.held = some file →
      Step work expected pool
        { pool with
          held := none
          running := file :: pool.running
          senders := pool.senders + 1 }
  | stop {pool} : pool.producing = true → pool.held = none → pool.waiting = [] →
      Step work expected pool { pool with producing := false, senders := pool.senders - 1 }
  | complete {pool file result} (before after : List α) :
      pool.running = before ++ file :: after → work file = some result →
      Step work expected pool
        { pool with
          running := before ++ after
          sending := (file, result) :: pool.sending
          permits := pool.permits + 1 }
  | die {pool file} (before after : List α) :
      pool.running = before ++ file :: after → work file = none →
      Step work expected pool
        { pool with
          running := before ++ after
          leaving := pool.leaving + 1
          permits := pool.permits + 1 }
  | send {pool message} (before after : List (α × β)) :
      pool.sending = before ++ message :: after →
      Step work expected pool
        { pool with
          sending := before ++ after
          leaving := pool.leaving + 1
          channel := message :: pool.channel }
  | leave {pool} : 0 < pool.leaving →
      Step work expected pool
        { pool with leaving := pool.leaving - 1, senders := pool.senders - 1 }
  | receive {pool message} (before after : List (α × β)) :
      pool.returned = none → pool.received.length < expected →
      pool.channel = before ++ message :: after →
      Step work expected pool
        { pool with channel := before ++ after, received := message :: pool.received }
  | succeed {pool} : pool.returned = none → pool.received.length = expected →
      Step work expected pool { pool with returned := some (.ok ()) }
  | lose {pool} :
      pool.returned = none → pool.received.length < expected → pool.channel = [] →
      pool.senders = 0 →
      Step work expected pool
        { pool with returned := some (.error ⟨expected, pool.received.length⟩) }

/-- `Runs work expected first steps last`: some order of `steps` steps leads from `first` to
`last`. -/
inductive Runs (work : α → Option β) (expected : Nat) : Pool α β → Nat → Pool α β → Prop where
  | refl (pool) : Runs work expected pool 0 pool
  | next {first middle last steps} :
      Step work expected first middle → Runs work expected middle steps last →
      Runs work expected first (steps + 1) last

/-- What is left to do: six steps for a file that waits, one fewer for each step it took,
one for the producer to stop and one for the receiver to return. A worker that sends splits
into a result on its way and a sender to give up. -/
def remaining (pool : Pool α β) : Nat :=
  6 * pool.waiting.length + 5 * pool.held.toList.length + 4 * pool.running.length +
    3 * pool.sending.length + pool.leaving + pool.channel.length + pool.producing.toNat +
    pool.returned.isNone.toNat

/-! ## One schedule -/

/-- A step that the schedule takes: the receiver first, then whoever is closest to it. Gives
`none` once the receiver has returned. -/
def next? (work : α → Option β) (expected : Nat) (pool : Pool α β) : Option (Pool α β) :=
  match pool.returned with
  | some _ => none
  | none =>
    if pool.received.length = expected then some { pool with returned := some (.ok ()) }
    else if pool.received.length < expected then
      match pool.channel, pool.sending, pool.running, pool.held, pool.producing,
          pool.waiting with
      | message :: rest, _, _, _, _, _ =>
          some { pool with channel := rest, received := message :: pool.received }
      | [], message :: rest, _, _, _, _ =>
          some { pool with
            sending := rest, leaving := pool.leaving + 1, channel := [message] }
      | [], [], file :: rest, _, _, _ =>
          match work file with
          | some result =>
              some { pool with
                running := rest, sending := [(file, result)], permits := pool.permits + 1 }
          | none =>
              some { pool with
                running := rest, leaving := pool.leaving + 1, permits := pool.permits + 1 }
      | [], [], [], some file, _, _ =>
          some { pool with held := none, running := [file], senders := pool.senders + 1 }
      | [], [], [], none, true, file :: rest =>
          if 0 < pool.permits then
            some { pool with
              waiting := rest, held := some file, permits := pool.permits - 1 }
          else none
      | [], [], [], none, true, [] =>
          some { pool with producing := false, senders := pool.senders - 1 }
      | [], [], [], none, false, _ =>
          if 0 < pool.leaving then
            some { pool with leaving := pool.leaving - 1, senders := pool.senders - 1 }
          else if pool.senders = 0 then
            some { pool with returned := some (.error ⟨expected, pool.received.length⟩) }
          else none
    else none

theorem step_of_next? {work : α → Option β} {expected : Nat} {pool next : Pool α β}
    (h : pool.next? work expected = some next) : Step work expected pool next := by
  unfold next? at h
  split at h
  · cases h
  rename_i open_
  split at h
  · rename_i all
    cases h
    exact .succeed open_ all
  split at h
  case isFalse => cases h
  rename_i few
  split at h
  case h_1 message rest queued =>
      cases h
      exact .receive [] rest open_ few queued
  case h_2 message rest drained queued =>
      cases h
      have step : Step work expected pool _ := .send [] rest queued
      simpa [drained] using step
  case h_3 file rest _ settled queued =>
      split at h
      · rename_i result done
        cases h
        have step : Step work expected pool _ := .complete [] rest queued done
        simpa [settled] using step
      · rename_i dead
        cases h
        exact .die [] rest queued dead
  case h_4 file _ _ idle holds =>
      cases h
      have step : Step work expected pool _ := .spawn holds
      simpa [idle] using step
  case h_5 file rest _ _ _ free produces queued =>
      split at h
      · rename_i permit
        cases h
        exact .take produces free queued permit
      · cases h
  case h_6 _ _ _ free produces drained =>
      cases h
      exact .stop produces free drained
  case h_7 drained _ _ _ _ =>
      split at h
      · rename_i staying
        cases h
        exact .leave staying
      split at h
      · rename_i closed
        cases h
        exact .lose open_ few drained closed
      · cases h

theorem remaining_lt_of_step {work : α → Option β} {expected : Nat} {pool next : Pool α β}
    (h : Step work expected pool next) : next.remaining < pool.remaining := by
  cases h <;> simp_all [remaining] <;> omega

def finish (work : α → Option β) (expected : Nat) (pool : Pool α β) : Pool α β :=
  match _step : pool.next? work expected with
  | none => pool
  | some next => finish work expected next
termination_by pool.remaining
decreasing_by exact remaining_lt_of_step (step_of_next? _step)

end Pool

/-! ## Dispatching -/

inductive Dispatch where
  | sequential
  | concurrent (workers : Nat)
  deriving DecidableEq, Repr

instance : Inhabited Dispatch := ⟨.sequential⟩

inductive Crash where
  | work
  /-- A pool was asked for more permits than it can count. -/
  | permits
  deriving DecidableEq, Repr

def maxPermits : Nat := (UInt64.size - 1) / 8

def Crash.message : Crash → String
  | .work => "worker died"
  | .permits =>
      s!"a semaphore may not have more than MAX_PERMITS permits ({maxPermits})"

def Crash.report (site : String) (crash : Crash) : String :=
  "thread 'main' panicked at " ++ site ++ ":\n" ++ crash.message ++
    "\nnote: run with `RUST_BACKTRACE=1` environment variable to display a backtrace\n"

structure Delivery (α β : Type) where
  collected : List (α × β)
  lost : Option Lost
  deriving DecidableEq, Repr

namespace Dispatch

variable {α β : Type}

def Accepted : Dispatch → Prop
  | .sequential => True
  | .concurrent workers => max workers 1 ≤ maxPermits

instance : DecidablePred Accepted
  | .sequential => inferInstanceAs (Decidable True)
  | .concurrent workers => inferInstanceAs (Decidable (max workers 1 ≤ maxPermits))

/-- What working on every file may deliver. The parts of a pool act in any order until the
receiver returns. -/
inductive Delivers (work : α → Option β) (files : List α) :
    Dispatch → Delivery α β → Prop where
  | sequential {collected} :
      files.mapM (fun file => (work file).map (file, ·)) = some collected →
      Delivers work files .sequential ⟨collected, none⟩
  | succeed {workers steps pool} :
      max workers 1 ≤ maxPermits →
      Pool.Runs work files.length (.start workers files) steps pool →
      pool.returned = some (.ok ()) →
      Delivers work files (.concurrent workers) ⟨pool.received.reverse, none⟩
  | lose {workers steps pool lost} :
      max workers 1 ≤ maxPermits →
      Pool.Runs work files.length (.start workers files) steps pool →
      pool.returned = some (.error lost) →
      Delivers work files (.concurrent workers) ⟨pool.received.reverse, some lost⟩

/-- Works on every file. One after the other, a death of the work is the program's own. A pool
follows the one schedule. -/
def deliver (dispatch : Dispatch) (work : α → Option β) (files : List α) :
    Except Crash (Delivery α β) :=
  match dispatch with
  | .sequential =>
      match files.mapM fun file => (work file).map (file, ·) with
      | some collected => .ok ⟨collected, none⟩
      | none => .error .work
  | .concurrent workers =>
      if maxPermits < max workers 1 then .error .permits
      else
        let pool := (Pool.start workers files).finish work files.length
        match pool.returned with
        | some (.error lost) => .ok ⟨pool.received.reverse, some lost⟩
        | _ => .ok ⟨pool.received.reverse, none⟩

end Dispatch
end Lineage
