import ToriPy.Base.Turns
import ToriPy.Microservices.Capacity

/-!
# Rotation

The loop of a queue takes its consumers in turn: `_next_consumer` returns the one at the cursor and
advances the cursor, modulo the number of consumers that are eligible. While these do not change, the
rounds of the loop are a rotation, and no other method moves the cursor.

But the loop asks for the consumer before it looks for a message. A round that finds the queue empty,
or drops an expired message, advances the cursor too. The loop always makes such a round before it
waits, so that of two consumers the same one gets every message when messages come one at a time.
-/

namespace ToriPy.Microservices.Broker

open List

/-- The replica that a round of the loop of a queue delivers to. -/
def receiver (broker : Broker) (queue : Queue) (now : Instant) : Option String :=
  match broker.nextConsumer queue, queue.messages with
  | some (replicaId, _), queued :: _ =>
    if ∃ time ∈ queued.publication.expiresAt, time ≤ now then none else some replicaId
  | _, _ => none

/-- The consumers of a queue that are eligible, by their replica identifiers. -/
def eligibleNames (broker : Broker) (queueId : QueueId) : List String :=
  ((broker.queues[queueId]?).map fun queue => (broker.eligible queue).map Prod.fst).getD []

/-- The round of the loop of a queue that an action is. -/
def round (queueId : QueueId) (broker : Broker) : Action → List (Option String)
  | .iterate id now =>
    if id = queueId then (broker.queues[id]?).toList.map (broker.receiver · now) else []
  | _ => []

/-- The rounds of the loop of a queue in a run, each with the replica that got a message. -/
def rounds (limits : BrokerLimits) (queueId : QueueId) : Broker → List Action → List (Option String)
  | _, [] => []
  | broker, action :: actions =>
    match step limits broker action with
    | none => []
    | some broker' => broker.round queueId action ++ rounds limits queueId broker' actions

/-- The run is possible, and the consumers of the queue that are eligible stay the same. -/
def steady (limits : BrokerLimits) (queueId : QueueId) (names : List String) :
    Broker → List Action → Bool
  | broker, [] => broker.eligibleNames queueId = names
  | broker, action :: actions =>
    broker.eligibleNames queueId = names && match step limits broker action with
    | none => false
    | some broker' => steady limits queueId names broker' actions

/-! ### The cursor -/

def SameCursor (queue queue' : Queue) : Prop := queue'.cursor = queue.cursor

lemma frame_sameCursor : Frame SameCursor where
  same := fun _ _ cursor => cursor
  trans := fun first second => Eq.trans second first

section
variable {limits : BrokerLimits} {broker broker' : Broker} {id : ServerId}

lemma iterate_modify (broker : Broker) (queueId : QueueId) (queue : Queue) (now : Instant) :
    ∃ f : Queue → Queue, (broker.iterate queueId queue now).queues =
      broker.queues.modify queueId f ∧ ∀ old, (f old).cursor = broker.nextCursor queue := by
  unfold iterate
  split
  · exact ⟨_, rfl, fun _ => rfl⟩
  · exact ⟨_, rfl, fun _ => rfl⟩
  · split
    · exact ⟨_, rfl, fun _ => rfl⟩
    · exact ⟨_, rfl, fun _ => rfl⟩

variable {queueId : QueueId} {queue : Queue}

lemma cursor_step {action} (other : ∀ now, action ≠ .iterate queueId now)
    (hqueue : broker.queues[queueId]? = some queue) (h : step limits broker action = some broker') :
    ∃ queue', broker'.queues[queueId]? = some queue' ∧ queue'.cursor = queue.cursor := by
  by_cases round : ∃ id now, action = .iterate id now
  · obtain ⟨id, now, rfl⟩ := round
    have ne : id ≠ queueId := fun same => other now (same ▸ rfl)
    cases step_moves h with
    | raised => exact ⟨queue, hqueue, rfl⟩
    | iterate =>
      obtain ⟨f, queues, -⟩ := broker.iterate_modify id _ now
      refine ⟨queue, ?_, rfl⟩
      rw [queues, modify_other ne]
      exact hqueue
  · have evolves : Evolves SameCursor broker broker' :=
      evolves_step frame_sameCursor (fun _ _ => rfl) (fun _ _ => rfl) (fun _ _ _ _ => rfl)
        (fun id now same => round ⟨id, now, same⟩) h
    have lt : queueId < broker'.queues.length :=
      Nat.lt_of_lt_of_le (List.getElem?_eq_some_iff.mp hqueue).1 evolves.grows
    refine ⟨broker'.queues[queueId], getElem?_eq_getElem lt, ?_⟩
    rcases evolves.queue (getElem?_eq_getElem lt) with ⟨_, hold, same⟩ | ⟨absent, -⟩
    · cases hqueue.symm.trans hold
      exact same
    · rw [hqueue] at absent
      cases absent

/-! ### The rounds -/

lemma receiver_some {now replicaId} (h : broker.receiver queue now = some replicaId) :
    ((broker.eligible queue).map Prod.fst)[queue.cursor % (broker.eligible queue).length]? =
      some replicaId := by
  unfold receiver at h
  split at h
  · rename_i name consumer queued rest next messages
    split at h
    · cases h
    · cases h
      rw [getElem?_map]
      exact congrArg (Option.map Prod.fst) next
  · cases h

lemma nodup_eligibleNames (broker : Broker) (queueId : QueueId) :
    (broker.eligibleNames queueId).Nodup := by
  unfold eligibleNames
  cases broker.queues[queueId]? with
  | none => exact nodup_nil
  | some queue =>
    have sorted := Json.increasing_sortMembers
      (queue.consumers.entries.map fun entry => (entry.1, entry.2))
    have nodup : (Json.sortMembers
        (queue.consumers.entries.map fun entry => (entry.1, entry.2))).map Prod.fst |>.Nodup :=
      sorted.imp fun lt => ne_of_lt lt
    exact nodup.sublist (filter_sublist.map Prod.fst)

lemma rotates_rounds {names actions} (h : steady limits queueId names broker actions = true)
    (hqueue : broker.queues[queueId]? = some queue) :
    Rotates names queue.cursor (rounds limits queueId broker actions) := by
  induction actions generalizing broker queue with
  | nil => exact .nil
  | cons action actions ih =>
    rw [steady, Bool.and_eq_true, decide_eq_true_eq] at h
    obtain ⟨eligible, later⟩ := h
    rw [eligibleNames, hqueue] at eligible
    change (broker.eligible queue).map Prod.fst = names at eligible
    have length : names.length = (broker.eligible queue).length := by
      rw [← eligible, length_map]
    rw [rounds]
    split at later
    · cases later
    rename_i broker' st
    by_cases own : ∃ now, action = .iterate queueId now
    · obtain ⟨now, rfl⟩ := own
      have here : broker.round queueId (.iterate queueId now) = [broker.receiver queue now] := by
        rw [round, if_pos rfl, hqueue]
        rfl
      rw [here, singleton_append]
      apply Rotates.cons
      · intro replicaId served
        rw [← eligible, length_map]
        exact receiver_some served
      · -- The cursor advances whether or not the round delivered.
        obtain ⟨_, hiterated, st⟩ := bind_some.mp st
        cases hqueue.symm.trans hiterated
        split at st
        · cases st
          obtain ⟨f, queues, cursor⟩ := broker.iterate_modify queueId queue now
          have after : (broker.iterate queueId queue now).queues[queueId]? = some (f queue) := by
            rw [queues]
            exact modify_new hqueue
          have rotates := ih later after
          rw [cursor, nextCursor] at rotates
          split at rotates
          · rename_i nobody
            rw [nobody] at eligible
            subst eligible
            intro k x hx
            have := rotates k x hx
            simp at this
          · rw [length]
            exact rotates
        · cases st
    · have other : ∀ now, action ≠ .iterate queueId now := fun now same => own ⟨now, same⟩
      have none : broker.round queueId action = [] := by
        cases action with
        | iterate id now =>
          rw [round, if_neg]
          rintro rfl
          exact other now rfl
        | _ => rfl
      obtain ⟨_, hqueue', cursor⟩ := cursor_step other hqueue st
      rw [none, nil_append, ← cursor]
      exact ih later hqueue'

lemma eligibleNames_of_steady {names actions}
    (h : steady limits queueId names broker actions = true) :
    broker.eligibleNames queueId = names := by
  cases actions with
  | nil => simpa [steady] using h
  | cons =>
    rw [steady, Bool.and_eq_true, decide_eq_true_eq] at h
    exact h.1

/-- While `n` consumers stay eligible, any `n` deliveries in a row go to different consumers just if
their rounds, counted over all rounds of the loop, differ modulo `n`. -/
theorem fair_rounds_iff {queueId : QueueId} {names : List String} {actions : List Action}
    (h : steady limits queueId names broker actions = true) :
    Fair names.length (rounds limits queueId broker actions).reduceOption ↔
      Fair names.length ((turns 0 (rounds limits queueId broker actions)).map
        (· % names.length)) := by
  have eligible : broker.eligibleNames queueId = names := eligibleNames_of_steady h
  cases hqueue : broker.queues[queueId]? with
  | some =>
    refine (rotates_rounds h hqueue).fair_iff ?_
    rw [← eligible]
    exact nodup_eligibleNames broker queueId
  | none =>
    have nobody : names = [] := by
      rw [← eligible, eligibleNames, hqueue]
      rfl
    subst nobody
    exact iff_of_true (fair_zero _) (fair_zero _)

def pairRun : List Action :=
  [.create ordersService "a" 10, .create ordersService "b" 10, .prepare 0 [] [], .prepare 1 [] [],
    .start 0 [rpcQueueName ordersService], .start 1 [rpcQueueName ordersService]]

def burst : List Action :=
  [.publish sampleCall 0, .publish sampleCall 0, .publish sampleCall 0, .iterate 0 0,
    .iterate 0 0, .iterate 0 0]

/-- Two requests come one at a time, and the loop waits in between. -/
def trickle : List Action :=
  [.publish sampleCall 0, .iterate 0 0, .iterate 0 0, .publish sampleCall 0, .iterate 0 0]

theorem fair_burst : ∃ broker, exec (step {}) {} pairRun = some broker ∧
    steady {} 0 ["a", "b"] broker burst = true ∧
    (Fair 2 (rounds {} 0 broker burst).reduceOption ↔
      Fair 2 ((turns 0 (rounds {} 0 broker burst)).map (· % 2))) := by
  have evaluated : (exec (step {}) {} pairRun).map
      (fun broker => steady {} 0 ["a", "b"] broker burst) = some true := by decide +kernel
  obtain ⟨broker, run, h⟩ := Option.map_eq_some_iff.mp evaluated
  exact ⟨broker, run, h, fair_rounds_iff h⟩

/-- Both requests go to the first server. -/
theorem trickle_not_fair : ∃ broker, exec (step {}) {} pairRun = some broker ∧
    steady {} 0 ["a", "b"] broker trickle = true ∧
    (rounds {} 0 broker trickle).reduceOption = ["a", "a"] ∧
    ¬ Fair 2 (rounds {} 0 broker trickle).reduceOption := by
  have evaluated : (exec (step {}) {} pairRun).map
      (fun broker => (steady {} 0 ["a", "b"] broker trickle,
        (rounds {} 0 broker trickle).reduceOption)) = some (true, ["a", "a"]) := by decide +kernel
  obtain ⟨broker, run, h⟩ := Option.map_eq_some_iff.mp evaluated
  obtain ⟨steady, served⟩ := Prod.mk.inj h
  refine ⟨broker, run, steady, served, ?_⟩
  rw [served]
  intro fair
  exact absurd (fair 0) (by decide)

end

end ToriPy.Microservices.Broker
