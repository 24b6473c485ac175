import ToriPy.Base.Transition

/-!
# Capacity of the in-memory transport

`InMemoryTransport._enqueue` takes a permit of a semaphore for each item it puts into the queue, and
whoever takes an item out gives a permit back. A call can time out, be cancelled or lose against a
shutdown, before and after the semaphore has given its `acquire_task` a permit. `capacity_accounted`
says that the permits in the semaphore, those of the queued items and those of the calls in progress
are always all there are.
-/

namespace ToriPy.Cqrs

open List

/-- The task of `Semaphore.acquire`: it waits, the semaphore has given it a permit but it has not run
since, or it has ended. -/
inductive AcquireTask where
  | pending
  | granted
  | done
deriving DecidableEq

/-- Where a call of `_enqueue` waits. -/
inductive Enqueue where
  /-- In `asyncio.wait`. -/
  | wait (task : AcquireTask)
  /-- For the lifecycle lock, with a permit. -/
  | lock
  /-- In `asyncio.gather`, after the task was cancelled if it had not ended. -/
  | gather (task : AcquireTask)
  | ended
deriving DecidableEq

inductive TransportState where
  | new
  | starting
  | running
  | stopping
  | stopped
deriving DecidableEq

structure Transport where
  maxQueueSize : Nat
  state : TransportState := .new
  stopEvent : Bool := false
  /-- The permits in the semaphore. -/
  capacity : Nat := maxQueueSize
  /-- The number of items in the queue. -/
  queue : Nat := 0
  calls : List Enqueue := []

inductive CallAction where
  /-- The semaphore gives a permit to the task. -/
  | grant
  /-- The task runs. -/
  | acquire
  | timeout
  | cancel
  /-- What the call waits for is there. -/
  | resume

inductive Action where
  | enter (state : TransportState)
  | stop
  | enqueue
  | call (i : Nat) (a : CallAction)
  /-- The worker takes an item. -/
  | get
  | drainPending

namespace Transport

def release (t : Transport) : Transport := { t with capacity := t.capacity + 1 }

/-- The `finally` block of `_enqueue` with the values of its local variables. -/
def leave (t : Transport) (capacityAcquired capacityAccounted queued : Bool) (task : AcquireTask) :
    Transport × Enqueue :=
  if capacityAcquired then (t.release, .gather task)
  else if !capacityAccounted && !queued && task = .done then (t.release, .gather task)
  else (t, .gather task)

def resume (t : Transport) : Enqueue → Option (Transport × Enqueue)
  | .wait .done => some (t, .lock)
  | .wait task => if t.stopEvent then some (t.leave false false false task) else none
  | .lock =>
    if t.state ≠ .running then some (t.release.leave false true false .done)
    else if t.queue < t.maxQueueSize then
      some ({ t with queue := t.queue + 1 }.leave false true true .done)
    else
      -- `put_nowait` raises `QueueFull`
      some (t.release.leave false true false .done)
  | .gather .done => some (t, .ended)
  | _ => none

def onCall (t : Transport) (c : Enqueue) : CallAction → Option (Transport × Enqueue)
  | .grant =>
    if c = .wait .pending ∧ 0 < t.capacity then
      some ({ t with capacity := t.capacity - 1 }, .wait .granted)
    else none
  | .acquire =>
    match c with
    | .wait .granted => some (t, .wait .done)
    -- a cancelled `Semaphore.acquire` gives back what it was given
    | .gather .granted => some (t.release, .gather .done)
    | .gather .pending => some (t, .gather .done)
    | _ => none
  | .timeout =>
    match c with
    | .wait .done => none
    | .wait task => some (t.leave false false false task)
    | _ => none
  | .cancel =>
    match c with
    | .wait task => some (t.leave false false false task)
    | .lock => some (t.leave true true false .done)
    | .gather task => some (t, .gather task)
    | .ended => none
  | .resume => t.resume c

def step (t : Transport) : Action → Option Transport
  | .enter state => some { t with state := state }
  | .stop => some { t with stopEvent := true }
  | .enqueue =>
    if t.state = .running then some { t with calls := t.calls ++ [.wait .pending] } else none
  | .call i a => do
    let c ← t.calls[i]?
    let (t', c') ← t.onCall c a
    return { t' with calls := t'.calls.set i c' }
  | .get => if 0 < t.queue then some { t with queue := t.queue - 1 }.release else none
  | .drainPending => some { t with capacity := t.capacity + t.queue, queue := 0 }

end Transport

/-- Whether a call has a permit, itself or through its task. -/
def Enqueue.holds : Enqueue → Bool
  | .wait task => task ≠ .pending
  | .lock => true
  | .gather task => task = .granted
  | .ended => false

namespace Transport

variable {t t' : Transport} {c c' : Enqueue}

/-- The permits in the semaphore, of the items and of a call. -/
def total (t : Transport) (c : Enqueue) : Nat := t.capacity + t.queue + if c.holds then 1 else 0

/-- The calls and the size stay, and a call hands its permit on or keeps it. -/
structure Keeps (t : Transport) (c : Enqueue) (r : Transport × Enqueue) : Prop where
  total : r.1.total r.2 = t.total c
  calls : r.1.calls = t.calls
  maxQueueSize : r.1.maxQueueSize = t.maxQueueSize

lemma leave_keeps (task : AcquireTask) : t.Keeps (.wait task) (t.leave false false false task) := by
  cases task with
  | pending | granted => exact ⟨rfl, rfl, rfl⟩
  | done => exact ⟨Nat.succ_add _ _, rfl, rfl⟩

lemma resume_keeps {r} (h : t.resume c = some r) : t.Keeps c r := by
  unfold resume at h
  split at h
  · cases h
    exact ⟨rfl, rfl, rfl⟩
  · split_ifs at h
    cases h
    exact leave_keeps _
  · split_ifs at h <;> cases h
    · exact ⟨Nat.succ_add _ _, rfl, rfl⟩
    · exact ⟨rfl, rfl, rfl⟩
    · exact ⟨Nat.succ_add _ _, rfl, rfl⟩
  · cases h
    exact ⟨rfl, rfl, rfl⟩
  · cases h

lemma onCall_keeps {a r} (h : t.onCall c a = some r) : t.Keeps c r := by
  cases a with
  | grant =>
    simp only [onCall, Option.ite_none_right_eq_some] at h
    obtain ⟨⟨rfl, pos⟩, h⟩ := h
    cases h
    refine ⟨?_, rfl, rfl⟩
    show t.capacity - 1 + t.queue + 1 = t.capacity + t.queue
    omega
  | acquire =>
    simp only [onCall] at h
    split at h <;> cases h
    · exact ⟨rfl, rfl, rfl⟩
    · exact ⟨Nat.succ_add _ _, rfl, rfl⟩
    · exact ⟨rfl, rfl, rfl⟩
  | timeout =>
    simp only [onCall] at h
    split at h <;> cases h
    exact leave_keeps _
  | cancel =>
    simp only [onCall] at h
    split at h <;> cases h
    · exact leave_keeps _
    · exact ⟨Nat.succ_add _ _, rfl, rfl⟩
    · exact ⟨rfl, rfl, rfl⟩
  | resume => exact resume_keeps h

/-- No permit is lost and none is made. -/
structure Accounted (size : Nat) (t : Transport) : Prop where
  permits : t.capacity + t.queue + t.calls.countP (·.holds) = size
  maxQueueSize : t.maxQueueSize = size

lemma Accounted.step {size a} (accounted : t.Accounted size) (h : t.step a = some t') :
    t'.Accounted size := by
  obtain ⟨permits, size⟩ := accounted
  cases a with
  | enter | stop | drainPending =>
    cases h
    exact ⟨permits, size⟩
  | enqueue =>
    simp only [Transport.step, Option.ite_none_right_eq_some] at h
    obtain ⟨-, h⟩ := h
    cases h
    refine ⟨?_, size⟩
    rw [countP_append]
    exact permits
  | get =>
    simp only [Transport.step, Option.ite_none_right_eq_some] at h
    obtain ⟨pos, h⟩ := h
    cases h
    refine ⟨?_, size⟩
    simp only [release]
    omega
  | call i a =>
    simp only [Transport.step, Option.bind_eq_bind, Option.bind_eq_some_iff] at h
    obtain ⟨c, found, ⟨t', c'⟩, went, h⟩ := h
    cases h
    obtain ⟨total, calls, same⟩ := onCall_keeps went
    obtain ⟨lt, rfl⟩ := List.getElem?_eq_some_iff.mp found
    have before := (getElem_cons_eraseIdx_perm lt).countP_eq (·.holds)
    have after := (set_perm_cons_eraseIdx lt c').countP_eq (·.holds)
    simp only [Transport.total, countP_cons] at total before after
    refine ⟨?_, same.trans size⟩
    dsimp only at calls ⊢
    rw [calls]
    omega

end Transport

/-- In every state that calls, the worker and shutdowns reach in any interleaving, the permits in the
semaphore, of the queued items and of the calls in progress are as many as the queue has places. So
`put_nowait` finds a place, and no permit is missing when all calls have ended. -/
theorem capacity_accounted (maxQueueSize : Nat) (t : Transport)
    (r : Reachable Transport.step { maxQueueSize := maxQueueSize } t) :
    t.capacity + t.queue + t.calls.countP (·.holds) = maxQueueSize ∧
      (.lock ∈ t.calls → t.queue < t.maxQueueSize) ∧
      ((∀ c ∈ t.calls, c = .ended) → t.capacity + t.queue = maxQueueSize) := by
  obtain ⟨permits, size⟩ := Reach.invariant (I := Transport.Accounted maxQueueSize) r ⟨rfl, rfl⟩
    fun accounted _ st => accounted.step st
  refine ⟨permits, fun locked => ?_, fun ended => ?_⟩
  · have held : 0 < t.calls.countP (·.holds) := countP_pos_iff.mpr ⟨_, locked, rfl⟩
    omega
  · have none : t.calls.countP (·.holds) = 0 := by
      rw [countP_eq_zero]
      intro c mem
      rw [ended c mem]
      decide
    rwa [none] at permits

/-- The semaphore gives the only permit to a call that is cancelled then, and after that to another
one, whose item is taken. -/
def cancelledRun : List Action :=
  [.enter .running, .enqueue, .enqueue, .call 0 .grant, .call 0 .cancel, .call 0 .acquire,
    .call 0 .resume, .call 1 .grant, .call 1 .acquire, .call 1 .resume, .call 1 .resume,
    .call 1 .resume, .get]

theorem capacity_accounted_cancelled : ∃ t,
    exec Transport.step { maxQueueSize := 1 } cancelledRun = some t ∧ t.calls = [.ended, .ended] ∧
      t.capacity + t.queue = 1 := by
  have run : (exec Transport.step { maxQueueSize := 1 } cancelledRun).map (·.calls) =
    some [.ended, .ended] := by decide +kernel
  obtain ⟨t, reached, calls⟩ := Option.map_eq_some_iff.mp run
  refine ⟨t, reached, calls, (capacity_accounted 1 t (Reach.of_exec .refl reached)).2.2 ?_⟩
  rw [calls]
  decide

end ToriPy.Cqrs
