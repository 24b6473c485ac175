import ToriPy.Microservices.Conservation
import ToriPy.Microservices.Frames

/-!
# Capacity

The two limits of the broker: how many messages wait in a queue, and how often a message is
delivered. `publish` and `settle` check them. The `stop_server` at the end of a `close` does not: it
gives every unsettled delivery of the server back to its queue with one attempt more. So the limits
hold in every run in which each such call finds room for the deliveries and none of them was made
for the last time.
-/

namespace ToriPy.Microservices

open List

/-- A queue within the limits. -/
structure Queue.Within (limits : BrokerLimits) (queue : Queue) : Prop where
  messages : queue.messages.length ≤ limits.maxQueueMessages
  attempts : ∀ queued ∈ queue.messages, queued.attempt ≤ limits.maxDeliveryAttempts
  deliveries : ∀ record ∈ queue.deliveries, record.queued.attempt ≤ limits.maxDeliveryAttempts ∧
    record.encoded.attempt ≤ limits.maxDeliveryAttempts

/-- The deliveries of a server can go back to the queue. -/
structure Queue.Fits (limits : BrokerLimits) (id : ServerId) (queue : Queue) : Prop where
  room : queue.messages.length + queue.deliveries.countP (·.server = id) ≤ limits.maxQueueMessages
  attempts : ∀ record ∈ queue.deliveries, record.server = id →
    record.queued.attempt < limits.maxDeliveryAttempts

instance (limits : BrokerLimits) (id : ServerId) (queue : Queue) :
    Decidable (queue.Fits limits id) :=
  decidable_of_iff (queue.messages.length + queue.deliveries.countP (·.server = id) ≤
      limits.maxQueueMessages ∧ ∀ record ∈ queue.deliveries, record.server = id →
        record.queued.attempt < limits.maxDeliveryAttempts)
    ⟨fun h => ⟨h.1, h.2⟩, fun h => ⟨h.room, h.attempts⟩⟩

namespace Broker

/-- Every queue has the property, and no route leads to a queue twice. -/
structure AllQueues (P : Queue → Prop) (broker : Broker) : Prop where
  queues : ∀ queue ∈ broker.queues, P queue
  routes : broker.routes.Distinct

/-- A property that sees the messages and the deliveries only, and that an empty queue has. -/
structure Local (P : Queue → Prop) : Prop where
  same : ∀ {queue queue' : Queue}, P queue → queue'.messages = queue.messages →
    queue'.deliveries = queue.deliveries → P queue'
  empty : ∀ name, P { name := name }

section
variable {P : Queue → Prop} {broker broker' : Broker}

lemma Local.frame (isLocal : Local P) : Frame fun queue queue' => P queue → P queue' where
  same := fun messages deliveries _ h => isLocal.same h messages deliveries
  trans := fun first second h => second (first h)

lemma AllQueues.evolves (all : broker.AllQueues P) (isLocal : Local P)
    (h : Evolves (fun queue queue' => P queue → P queue') broker broker') :
    broker'.AllQueues P := by
  refine ⟨fun queue' mem => ?_, h.routes.distinct all.routes⟩
  obtain ⟨_, hqueue⟩ := mem_iff_getElem?.mp mem
  rcases h.queue hqueue with ⟨queue, hold, kept⟩ | ⟨-, name, kept⟩
  · exact kept (all.queues queue (mem_of_getElem? hold))
  · exact kept (isLocal.empty name)

lemma AllQueues.modify {id : QueueId} {f : Queue → Queue} (all : broker.AllQueues P)
    (isLocal : Local P) (queues : broker'.queues = broker.queues.modify id f)
    (routes : broker'.routes = broker.routes)
    (h : ∀ queue, broker.queues[id]? = some queue → P queue → P (f queue)) : broker'.AllQueues P :=
  all.evolves isLocal (.modify isLocal.frame queues (routes ▸ .refl) h)

lemma AllQueues.unchanged (all : broker.AllQueues P) (queues : broker'.queues = broker.queues)
    (routes : broker'.routes = broker.routes) : broker'.AllQueues P := by
  refine ⟨?_, ?_⟩
  · rw [queues]
    exact all.queues
  · rw [routes]
    exact all.routes

end

/-! ### Within the limits -/

section
variable {limits : BrokerLimits} {broker : Broker} {id : ServerId} {queue : Queue}

lemma local_within : Local (Queue.Within limits) where
  same := by
    intro queue queue' h messages deliveries
    refine ⟨?_, ?_, ?_⟩
    · rw [messages]
      exact h.messages
    · rw [messages]
      exact h.attempts
    · rw [deliveries]
      exact h.deliveries
  empty := fun _ => ⟨Nat.zero_le _, fun _ mem => absurd mem not_mem_nil,
    fun _ mem => absurd mem not_mem_nil⟩

lemma local_fits : Local (Queue.Fits limits id) where
  same := by
    intro queue queue' h messages deliveries
    refine ⟨?_, ?_⟩
    · rw [messages, deliveries]
      exact h.room
    · rw [deliveries]
      exact h.attempts
  empty := fun _ => ⟨Nat.zero_le _, fun _ mem => absurd mem not_mem_nil⟩

/-- The property of the queues while a server is stopped. -/
def Ready (limits : BrokerLimits) (id : ServerId) (queue : Queue) : Prop :=
  queue.Within limits ∧ queue.Fits limits id

lemma local_ready : Local (Ready limits id) where
  same := fun h messages deliveries =>
    ⟨local_within.same h.1 messages deliveries, local_fits.same h.2 messages deliveries⟩
  empty := fun name => ⟨local_within.empty name, local_fits.empty name⟩

lemma ready_requeue (h : Ready limits id queue) : Ready limits id (requeue id queue) := by
  obtain ⟨within, fits⟩ := h
  have length : (requeue id queue).messages.length =
      queue.deliveries.countP (·.server = id) + queue.messages.length := by
    simp [requeue, countP_eq_length_filter]
  have none : (requeue id queue).deliveries.countP (·.server = id) = 0 := by
    rw [countP_eq_zero]
    intro record mem
    simpa using (mem_filter.mp mem).2
  have room := fits.room
  refine ⟨⟨?_, ?_, ?_⟩, ?_, ?_⟩
  · rw [length]
    omega
  · intro queued mem
    rcases mem_append.mp mem with mem | mem
    · obtain ⟨record, hrecord, rfl⟩ := mem_map.mp (mem_reverse.mp mem)
      obtain ⟨hrecord, own⟩ := mem_filter.mp hrecord
      exact fits.attempts record hrecord (by simpa using own)
    · exact within.attempts queued mem
  · intro record mem
    exact within.deliveries record (mem_filter.mp mem).1
  · rw [length, none]
    omega
  · intro record mem own
    have other := (mem_filter.mp mem).2
    simp [own] at other

lemma within_tail {queued rest} (h : queue.Within limits)
    (messages : queue.messages = queued :: rest) :
    Queue.Within limits { queue with messages := rest } ∧
      queued.attempt ≤ limits.maxDeliveryAttempts := by
  have length := h.messages
  rw [messages, length_cons] at length
  have attempts := h.attempts
  rw [messages] at attempts
  refine ⟨⟨?_, ?_, h.deliveries⟩, attempts queued mem_cons_self⟩
  · exact Nat.le_of_succ_le length
  · exact fun other mem => attempts other (mem_cons_of_mem _ mem)

lemma within_iterate {queueId} (now : Instant) (all : broker.AllQueues (Queue.Within limits))
    (hqueue : broker.queues[queueId]? = some queue) :
    (broker.iterate queueId queue now).AllQueues (Queue.Within limits) := by
  unfold iterate
  split
  · exact all.modify local_within rfl rfl fun _ _ h => local_within.same h rfl rfl
  · exact all.modify local_within rfl rfl fun _ _ h => local_within.same h rfl rfl
  rename_i replicaId consumer queued rest next messages
  split
  · refine all.modify local_within rfl rfl fun other hother within => ?_
    cases hqueue.symm.trans hother
    exact local_within.same (within_tail within messages).1 rfl rfl
  · refine all.modify local_within rfl rfl fun other hother within => ?_
    cases hqueue.symm.trans hother
    obtain ⟨tail, head⟩ := within_tail within messages
    refine ⟨tail.messages, tail.attempts, fun record mem => ?_⟩
    rcases mem_snoc.mp mem with mem | rfl
    · exact within.deliveries record mem
    · exact ⟨head, head⟩

variable {server : Server} {outcome : SettlementRecommendation}

lemma within_settle {broker' delivery} (all : broker.AllQueues (Queue.Within limits))
    (h : broker.settle limits id server delivery outcome = .ok broker') :
    broker'.AllQueues (Queue.Within limits) := by
  obtain ⟨_, _, queue, record, -, -, hqueue, -, rfl⟩ := settle_ok h
  refine AllQueues.evolves ?_ local_within (evolves_wakeQueues local_within.frame server.queueNames)
  refine all.modify local_within rfl rfl fun other hother within => ?_
  cases hqueue.symm.trans hother
  have kept : ∀ r ∈ queue.deliveries.eraseP (·.delivery = record.delivery),
      r.queued.attempt ≤ limits.maxDeliveryAttempts ∧
        r.encoded.attempt ≤ limits.maxDeliveryAttempts :=
    fun r mem => within.deliveries r (mem_of_mem_eraseP mem)
  split
  · -- The message goes back, which was checked.
    rename_i back
    simp only [goesBack, Bool.and_eq_true, decide_eq_true_eq] at back
    obtain ⟨⟨-, attempt⟩, room⟩ := back
    refine ⟨?_, ?_, kept⟩
    · rw [release, length_append]
      exact room
    · intro queued mem
      rcases mem_snoc.mp mem with mem | rfl
      · exact within.attempts queued mem
      · exact attempt
  · refine ⟨?_, ?_, kept⟩
    · rw [release, append_nil]
      exact within.messages
    · rw [release, append_nil]
      exact within.attempts

lemma within_dispatched (all : broker.AllQueues (Queue.Within limits)) (delivery : DeliveryId)
    (encoded : EncodedDelivery) (result : DispatchResult) :
    (broker.dispatched limits id server delivery encoded result).AllQueues
      (Queue.Within limits) := by
  have settled : ∀ changed : Broker, changed.AllQueues (Queue.Within limits) → ∀ f,
      (changed.modifyServer id f).AllQueues (Queue.Within limits) := by
    intro changed all f
    exact all.unchanged rfl rfl
  unfold dispatched
  dsimp only
  apply settled
  split
  · exact all
  · split
    · rename_i changed h
      exact within_settle all h
    · exact all

/-! ### Publication -/

/-- A queue of the broker has room for one more message. -/
def HasRoom (limits : BrokerLimits) (broker : Broker) (name : String) : Prop :=
  ∀ {queueId : QueueId} {queue : Queue}, broker.find name = some queueId →
    broker.queues[queueId]? = some queue → queue.messages.length < limits.maxQueueMessages

lemma checkCapacity_ok {names} (h : checkCapacity limits broker names = .ok ()) :
    ∀ name ∈ names, HasRoom limits broker name := by
  induction names with
  | nil => exact fun _ mem => absurd mem not_mem_nil
  | cons first names ih =>
    rw [checkCapacity] at h
    split at h
    · cases h
    rename_i queue found
    obtain ⟨room, h⟩ := then_ok.mp h
    intro name mem
    rcases mem_cons.mp mem with rfl | mem
    · intro queueId other hid hother
      rw [hid, Option.bind_some, hother] at found
      cases found
      exact require_ok.mp room
    · exact ih h name mem

lemma find_modify {broker' : Broker} {queueId : QueueId} {f : Queue → Queue}
    (changed : broker'.queues = broker.queues.modify queueId f)
    (same : ∀ queue, (f queue).listed = queue.listed ∧ (f queue).name = queue.name)
    (name : String) : broker'.find name = broker.find name := by
  have seen : broker'.queues.map (fun queue => (queue.listed, queue.name)) =
      broker.queues.map fun queue => (queue.listed, queue.name) := by
    rw [changed]
    apply map_modify_same
    intro queue
    rw [(same queue).1, (same queue).2]
  have view : ∀ broker : Broker, broker.find name =
      (broker.queues.map fun queue => (queue.listed, queue.name)).findIdx?
        fun entry => entry.1 && entry.2 = name := by
    intro broker
    rw [findIdx?_map]
    rfl
  rw [view, view, seen]

lemma within_publish {broker' : Broker} {publication now}
    (all : broker.AllQueues (Queue.Within limits))
    (h : (broker.publish limits publication now).map Prod.fst = .ok broker') :
    broker'.AllQueues (Queue.Within limits) := by
  obtain ⟨room, rfl⟩ := publish_ok h
  have nodup := Routes.nodup_select all.routes publication.routingKey publication.native
  have rooms := checkCapacity_ok room
  clear room h
  -- The room was checked before the first copy, and no other copy goes to the same queue.
  generalize broker.routes.select publication.routingKey publication.native = names at *
  induction names generalizing broker with
  | nil => exact all
  | cons name names ih =>
    obtain ⟨notin, nodup⟩ := nodup_cons.mp nodup
    rw [foldl_cons]
    cases here : broker.find name with
    | none =>
      have same : enqueue publication broker name = broker := by rw [enqueue, here]
      rw [same]
      exact ih all nodup fun other mem => rooms other (mem_cons_of_mem _ mem)
    | some queueId =>
      have appended : enqueue publication broker name =
          { broker.modifyQueue queueId fun queue =>
              { queue with
                messages := queue.messages ++ [⟨broker.copies, publication, 1, false⟩]
                wake := true } with
            copies := broker.copies + 1 } := by rw [enqueue, here]
      rw [appended]
      apply ih
      · refine all.modify local_within rfl rfl fun queue hqueue within => ⟨?_, ?_, within.deliveries⟩
        · have := rooms name mem_cons_self here hqueue
          rw [length_append]
          exact this
        · intro queued mem
          rcases mem_snoc.mp mem with mem | rfl
          · exact within.attempts queued mem
          · exact limits.positive.2
      · exact nodup
      intro other mem otherId queue hother hqueue
      have found : broker.find other = some otherId := by
        refine Eq.trans ?_ hother
        symm
        apply find_modify
        · rfl
        · exact fun _ => ⟨rfl, rfl⟩
      obtain ⟨_, hlisted, -, rfl⟩ := find_some here
      rcases modify_cases hqueue with ⟨-, hold⟩ | ⟨rfl, _, hold, -⟩
      · exact rooms other (mem_cons_of_mem _ mem) found hold
      · obtain ⟨_, hsame, -, rfl⟩ := find_some found
        cases hlisted.symm.trans hsame
        exact absurd mem notin

/-! ### Closing -/

/-- A `close` requeues the deliveries of the server in its first step. -/
def closesAtOnce (server : Server) : Bool := server.status = .prepared || server.tasks.isEmpty

/-- A `close` that requeues deliveries finds room for them, and none was made for the last time. -/
def Fitting (limits : BrokerLimits) (broker : Broker) : Action → Prop
  | .close id => ∀ server ∈ broker.servers[id]?, closesAtOnce server →
      ∀ queue ∈ broker.queues, queue.Fits limits id
  | .resume index => ∀ c ∈ broker.closing[index]?,
      ∀ queue ∈ broker.queues, queue.Fits limits c.server
  | _ => True

instance : (action : Action) → Decidable (broker.Fitting limits action)
  | .close id => inferInstanceAs (Decidable (∀ server ∈ broker.servers[id]?,
      closesAtOnce server → ∀ queue ∈ broker.queues, queue.Fits limits id))
  | .resume index => inferInstanceAs (Decidable (∀ c ∈ broker.closing[index]?,
      ∀ queue ∈ broker.queues, queue.Fits limits c.server))
  | .create .. | .prepare .. | .start .. | .publish .. | .iterate .. | .settle .. | .dispatched ..
  | .stopIntake .. => isTrue trivial

lemma tasks_stopQueues (replicaId : String) (queues : List QueueId)
    (hserver : broker.servers[id]? = some server) :
    ∃ server', (stopQueues id replicaId false broker queues).1.servers[id]? = some server' ∧
      server'.tasks = server.tasks := by
  induction queues generalizing broker server with
  | nil => exact ⟨server, hserver, rfl⟩
  | cons queueId rest ih =>
    have visited : (broker.stopQueue id replicaId false queueId).servers[id]? =
        some (dropRecords [] server) := modify_new hserver
    rw [stopQueues]
    split
    · obtain ⟨server', hserver', tasks⟩ := ih visited
      exact ⟨server', hserver', tasks⟩
    rename_i queue _
    simp only [removesQueue, Bool.false_and, Bool.false_eq_true, ↓reduceIte]
    rw [← servers_dropOwner _ id queue.name] at visited
    obtain ⟨server', hserver', tasks⟩ := ih visited
    exact ⟨server', hserver', tasks⟩

lemma within_close (all : broker.AllQueues (Queue.Within limits))
    (hserver : broker.servers[id]? = some server)
    (fits : closesAtOnce server → ∀ queue ∈ broker.queues, queue.Fits limits id) :
    (broker.close id server).AllQueues (Queue.Within limits) := by
  have ready : closesAtOnce server → broker.AllQueues (Ready limits id) := fun now =>
    ⟨fun queue mem => ⟨all.queues queue mem, fits now queue mem⟩, all.routes⟩
  have within : ∀ {broker : Broker}, broker.AllQueues (Ready limits id) →
      broker.AllQueues (Queue.Within limits) := fun h => ⟨fun q mem => (h.queues q mem).1, h.routes⟩
  -- A `close` that waits for the tasks of its server does not requeue yet.
  have drained : ∀ {stopped : Broker} {server' : Server}, stopped.servers[id]? = some server' →
      server'.tasks = server.tasks → stopped.AllQueues (Queue.Within limits) →
      (closesAtOnce server → stopped.AllQueues (Ready limits id)) →
        (stopped.drain id server.replicaId).AllQueues (Queue.Within limits) := by
    intro stopped server' hserver' tasks all ready
    cases none : server.tasks.isEmpty with
    | true =>
      have now : closesAtOnce server = true := by rw [closesAtOnce, none, Bool.or_true]
      exact within ((ready now).evolves local_ready
        (evolves_drain local_ready.frame (fun _ => ready_requeue) server.replicaId))
    | false =>
      have waits : ((stopped.servers[id]?).any fun server => !server.tasks.isEmpty) = true := by
        rw [hserver', Option.any_some, tasks, none]
        rfl
      rw [drain, if_pos waits]
      exact all.unchanged rfl rfl
  unfold close
  split
  · exact all
  · rename_i running
    split
    · rename_i stopped h
      have stoppedReady := fun now =>
        (ready now).evolves local_ready (evolves_stopIntake local_ready.frame h)
      have stoppedWithin := all.evolves local_within (evolves_stopIntake local_within.frame h)
      rw [stopIntake, running] at h
      cases h
      have quiescing : (broker.setStatus id .quiescing).servers[id]? =
          some { server with status := .quiescing } := modify_new hserver
      obtain ⟨_, hserver', tasks⟩ := tasks_stopQueues server.replicaId
        (broker.setStatus id .quiescing).listedQueues quiescing
      exact drained hserver' tasks stoppedWithin stoppedReady
    · exact all
  · rename_i prepared
    have now : closesAtOnce server = true := by simp [closesAtOnce, prepared]
    exact within ((ready now).evolves local_ready
      (evolves_firstStop local_ready.frame (fun _ => ready_requeue) server.replicaId _))
  · exact drained hserver rfl all ready

lemma within_resume {stage} (replicaId : String) (all : broker.AllQueues (Queue.Within limits))
    (fits : ∀ queue ∈ broker.queues, queue.Fits limits id) :
    (broker.resume id replicaId stage).AllQueues (Queue.Within limits) := by
  have ready : broker.AllQueues (Ready limits id) :=
    ⟨fun queue mem => ⟨all.queues queue mem, fits queue mem⟩, all.routes⟩
  have resumed := ready.evolves local_ready
    (evolves_resume local_ready.frame (fun _ => ready_requeue) replicaId stage)
  exact ⟨fun queue mem => (resumed.queues queue mem).1, resumed.routes⟩

/-! ### Runs -/

lemma within_step {broker' action} (all : broker.AllQueues (Queue.Within limits))
    (fitting : broker.Fitting limits action) (h : step limits broker action = some broker') :
    broker'.AllQueues (Queue.Within limits) := by
  cases step_moves h with
  | raised => exact all
  | create => exact all.unchanged rfl rfl
  | prepare _ made => exact all.evolves local_within (evolves_prepare local_within.frame made)
  | start => exact all.evolves local_within (evolves_start local_within.frame _ _ _)
  | publish made => exact within_publish all made
  | iterate found => exact within_iterate _ all found
  | settle _ made => exact within_settle all made
  | dispatched => exact within_dispatched all _ _ _
  | stopIntake _ made => exact all.evolves local_within (evolves_stopIntake local_within.frame made)
  | close found => exact within_close all found (fitting _ found)
  | resume closes => exact within_resume _ (all.unchanged rfl rfl) (fitting _ closes)

/-- A delivery that is to be redelivered goes back to its queue within the limits, and to the dead
letters otherwise. -/
def Redelivered (limits : BrokerLimits) (broker broker' : Broker) (delivery : DeliveryId) : Prop :=
  ∃ (queueId : QueueId) (queue queue' : Queue) (record : DeliveryRecord),
    broker.queues[queueId]? = some queue ∧ broker'.queues[queueId]? = some queue' ∧
    record ∈ queue.deliveries ∧ record.delivery = delivery ∧
    if record.queued.attempt < limits.maxDeliveryAttempts ∧
        queue.messages.length < limits.maxQueueMessages then
      queue'.messages = queue.messages ++ [record.queued.retried] ∧
        broker'.deadLetters = broker.deadLetters
    else
      queue'.messages = queue.messages ∧ broker'.deadLetters =
        appendBounded limits.maxQueueMessages broker.deadLetters record.encoded

/-- The limits hold, and a message that may not be redelivered is dead-lettered. -/
structure Bounded (limits : BrokerLimits) (broker : Broker) : Prop where
  waiting : ∀ queue ∈ broker.queues, queue.messages.length ≤ limits.maxQueueMessages
  attempts : ∀ queue ∈ broker.queues, ∀ record ∈ queue.deliveries,
    record.encoded.attempt ≤ limits.maxDeliveryAttempts
  redelivery : ∀ {id : ServerId} {server : Server} {delivery : DeliveryId}
    {outcome : SettlementRecommendation} {broker' : Broker}, redelivers outcome = true →
    broker.settle limits id server delivery outcome = .ok broker' →
      Redelivered limits broker broker' delivery

lemma redelivered_settle {broker' delivery} (again : redelivers outcome = true)
    (h : broker.settle limits id server delivery outcome = .ok broker') :
    Redelivered limits broker broker' delivery := by
  obtain ⟨_, queueId, queue, record, -, -, hqueue, found, rfl⟩ := settle_ok h
  have mem := mem_of_find?_eq_some found
  have same : record.delivery = delivery := by simpa using find?_some found
  have back : goesBack limits queue record outcome =
      decide (record.queued.attempt < limits.maxDeliveryAttempts ∧
        queue.messages.length < limits.maxQueueMessages) := by
    rw [goesBack, again, Bool.true_and, Bool.decide_and]
  have present : ∃ queue', (broker.settleRecord limits id server queueId queue record
      outcome).queues[queueId]? = some queue' ∧ queue'.messages =
        queue.messages ++ if goesBack limits queue record outcome then [record.queued.retried]
          else [] := by
    unfold settleRecord
    dsimp only
    generalize (if goesBack limits queue record outcome = true then [record.queued.retried]
      else []) = returned
    rw [wakeQueues, getElem?_map]
    change ∃ queue', ((broker.queues.modify queueId _)[queueId]?).map _ = some queue' ∧ _
    rw [modify_new hqueue, Option.map_some]
    refine ⟨_, rfl, ?_⟩
    split <;> rfl
  obtain ⟨queue', hqueue', messages⟩ := present
  refine ⟨queueId, queue, queue', record, hqueue, hqueue', mem, same, ?_⟩
  have dead : (broker.settleRecord limits id server queueId queue record outcome).deadLetters =
      if goesBack limits queue record outcome then broker.deadLetters
      else appendBounded limits.maxQueueMessages broker.deadLetters record.encoded := by
    change (if (redelivers outcome && !goesBack limits queue record outcome) = true then _
      else _) = _
    rw [again, Bool.true_and]
    cases goesBack limits queue record outcome <;> rfl
  rw [messages, dead, back]
  split
  · rename_i within
    simp [within]
  · rename_i beyond
    simp [beyond]

/-- The broker keeps its limits in every run whose requeueing calls fit. -/
theorem bounded (run : Reach (step limits) (Fitting limits) {} broker) : broker.Bounded limits := by
  have all : broker.AllQueues (Queue.Within limits) := by
    refine run.invariant ⟨?_, ?_⟩ within_step
    · exact fun _ mem => absurd mem not_mem_nil
    · exact fun _ mem => absurd mem not_mem_nil
  refine ⟨?_, ?_, redelivered_settle⟩
  · exact fun queue mem => (all.queues queue mem).messages
  · exact fun queue mem record hrecord => ((all.queues queue mem).deliveries record hrecord).2

def sampleCall : Publication where
  messageId := 1
  routingKey := ordersService.label ++ ".place"
  body := []

/-- A server closes while a request is out and another one waits. Another server takes its place. -/
def handoverRun : List Action :=
  [.create ordersService "a" 1, .create ordersService "b" 1, .prepare 0 [] [],
    .start 0 [rpcQueueName ordersService], .publish sampleCall 0, .iterate 0 0,
    .publish sampleCall 0, .close 0, .resume 0, .prepare 1 [] [],
    .start 1 [rpcQueueName ordersService], .iterate 0 0]

theorem bounded_handoverRun : ∃ broker,
    execBy (step {}) (fun broker action => decide (broker.Fitting {} action)) {} handoverRun =
      some broker ∧ broker.copies = 2 ∧ broker.Bounded {} := by
  have evaluated : (execBy (step {}) (fun broker action => decide (broker.Fitting {} action)) {}
      handoverRun).map (·.copies) = some 2 := by decide +kernel
  obtain ⟨broker, run, copies⟩ := Option.map_eq_some_iff.mp evaluated
  refine ⟨broker, run, copies, bounded ?_⟩
  exact .of_execBy (fun _ _ h => of_decide_eq_true h) .refl run

/-- One waiting message and one delivery of a message. -/
def tightLimits : BrokerLimits := { maxQueueMessages := 1, maxDeliveryAttempts := 1 }

/-- The `close` puts a second message into the queue, and the message is delivered again. -/
theorem handoverRun_not_bounded :
    (∃ broker, exec (step tightLimits) {} (handoverRun.take 9) = some broker ∧
      ∃ queue ∈ broker.queues, tightLimits.maxQueueMessages < queue.messages.length) ∧
    ∃ broker, exec (step tightLimits) {} handoverRun = some broker ∧
      ∃ queue ∈ broker.queues, ∃ record ∈ queue.deliveries,
        tightLimits.maxDeliveryAttempts < record.encoded.attempt := by
  have full : (exec (step tightLimits) {} (handoverRun.take 9)).map
      (fun broker => broker.queues.map (·.messages.length)) = some [2] := by decide +kernel
  have again : (exec (step tightLimits) {} handoverRun).map
      (fun broker => broker.queues.map fun queue =>
        queue.deliveries.map (·.encoded.attempt)) = some [[2]] := by decide +kernel
  refine ⟨?_, ?_⟩
  · obtain ⟨broker, run, lengths⟩ := Option.map_eq_some_iff.mp full
    obtain ⟨queue, queues, length⟩ := map_eq_singleton_iff.mp lengths
    refine ⟨broker, run, queue, queues ▸ mem_singleton_self queue, ?_⟩
    rw [length]
    decide
  · obtain ⟨broker, run, attempts⟩ := Option.map_eq_some_iff.mp again
    obtain ⟨queue, queues, deliveries⟩ := map_eq_singleton_iff.mp attempts
    obtain ⟨record, records, attempt⟩ := map_eq_singleton_iff.mp deliveries
    refine ⟨broker, run, queue, queues ▸ mem_singleton_self queue, record,
      records ▸ mem_singleton_self record, ?_⟩
    rw [attempt]
    decide

/-! ### The order of what comes back -/

/-- Nothing of a server comes back to a queue any more. -/
def Settled (id : ServerId) (queue queue' : Queue) : Prop :=
  queue.deliveries.filter (·.server = id) = [] →
    queue'.messages = queue.messages ∧ queue'.deliveries = queue.deliveries

end

end Broker

end ToriPy.Microservices
