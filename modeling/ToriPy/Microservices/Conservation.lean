import ToriPy.Microservices.Closing
import ToriPy.Microservices.Copies

/-!
# Conservation

Every copy that the broker accepted is in one place, a delivery is settled once, and the counters
agree with the records, in every run whose steps are `Permitted`. The copies are accounted for in
any run (`accounted_step`); that the records are in listed queues and that the counters are right
rests on the sound books (`sound_step`).

The condition is needed. `_remove_queue` takes a queue out of `_queues`, waits for its loop, and then
forgets its name. When a server is prepared for the name in between, its new queue loses its owners,
so that the next `close` of any server removes the queue with the deliveries that are out.
-/

namespace ToriPy.Microservices

open List

/-- The queue that a suspended `close` is removing. -/
def Closing.removes (closing : Closing) : Option String :=
  match closing.stage with
  | .draining => none
  | .removing name _ _ => some name

namespace Broker

/-- A server is not prepared for a queue that is being removed, and not started while it closes. -/
def Permitted (broker : Broker) : Action → Prop
  | .prepare id _ subscriptions => ∀ server ∈ broker.servers[id]?, ∀ c ∈ broker.closing,
      ∀ name ∈ c.removes, name ≠ rpcQueueName server.service ∧
        ∀ subscription ∈ subscriptions, name ≠ eventQueueName subscription
  | .start id _ => ∀ c ∈ broker.closing, c.server ≠ id
  | _ => True

instance (broker : Broker) (action : Action) : Decidable (broker.Permitted action) := by
  cases action <;> dsimp only [Permitted] <;> infer_instance

/-! ### Runs -/

variable {broker : Broker}

lemma sound_step {limits broker' action} (sound : broker.Sound [])
    (permitted : broker.Permitted action)
    (h : step limits broker action = some broker') : broker'.Sound [] := by
  cases step_moves h with
  | raised => exact sound
  | create => exact sound_create sound _ rfl
  | @prepare _ server _ subscriptions _ hserver made =>
    have free : ∀ c ∈ broker.closing, ∀ {removed} {rest : List QueueId} {last},
        c.stage = .removing removed rest last → removed ≠ rpcQueueName server.service ∧
          ∀ subscription ∈ subscriptions, removed ≠ eventQueueName subscription := by
      intro c mem removed rest last stage
      apply permitted server hserver c mem removed
      rw [Closing.removes, stage]
      rfl
    refine sound_prepare sound hserver ?_ ?_ made
    · exact fun c mem _ _ _ stage => (free c mem stage).1
    · exact fun subscription hs c mem _ _ _ stage => (free c mem stage).2 subscription hs
  | start found perm => exact sound_start sound found permitted perm
  | publish made => exact sound_publish sound made
  | iterate found => exact sound_iterate _ sound found
  | settle found made => exact sound_settle sound found made
  | dispatched found => exact sound_dispatched sound found _ _ _
  | stopIntake found made => exact (sound_stopIntake sound found made).1
  | close found => exact sound_close sound found
  | resume closes found => exact sound_resume sound closes found

/-! ### Places -/

def present (broker : Broker) : List Queue := broker.queues.filter (·.listed)

def removed (broker : Broker) : List Queue := broker.queues.filter (!·.listed)

def waiting (broker : Broker) : List CopyId :=
  broker.present.flatMap fun queue => queue.messages.map (·.copy)

def delivered (broker : Broker) : List CopyId :=
  broker.present.flatMap fun queue => queue.deliveries.map (·.queued.copy)

/-- The copies that were acknowledged, rejected, dead-lettered or dropped as expired. -/
def gone (broker : Broker) : List CopyId := broker.fates.map Prod.fst

/-- The copies that were discarded with their queue. -/
def discarded (broker : Broker) : List CopyId :=
  broker.removed.flatMap fun queue => queue.messages.map (·.copy)

def unsettled (broker : Broker) (id : ServerId) : List DeliveryRecord :=
  broker.present.flatMap fun queue => queue.deliveries.filter (·.server = id)

/-- Each copy is in one place, deliveries are settled once, and the counters agree. -/
structure Conserved (limits : BrokerLimits) (broker : Broker) : Prop where
  places : (broker.waiting ++ broker.delivered ++ broker.gone ++ broker.discarded).Perm
    (List.range broker.copies)
  removed : ∀ queue ∈ broker.removed, queue.deliveries = [] ∧ Ephemeral queue.name
  settled : broker.settlements.Nodup
  duplicate : ∀ {id : ServerId} {server : Server}, broker.servers[id]? = some server →
    ∀ delivery ∈ broker.settlements, ∀ outcome,
      broker.settle limits id server delivery outcome =
          .error (.duplicateSettlement "delivery was already settled") ∧
        step limits broker (.settle id delivery outcome) = some broker
  inFlight : ∀ {id : ServerId} {server : Server}, broker.servers[id]? = some server →
    server.inFlight = (broker.unsettled id).length ∧ 0 ≤ server.inFlight ∧
      server.inFlight ≤ server.prefetch
  consumers : ∀ queue ∈ broker.present, ∀ {replicaId : String} {consumer : Consumer},
    queue.consumers.lookup replicaId = some consumer →
      consumer.inFlight = queue.deliveries.countP (·.server = consumer.server)

lemma removed_empty (sound : broker.Sound []) {queue} (mem : queue ∈ broker.removed) :
    queue.deliveries = [] ∧ Ephemeral queue.name := by
  obtain ⟨mem, unlisted⟩ := mem_filter.mp mem
  have gone : queue.listed = false := by simpa using unlisted
  obtain ⟨_, hqueue⟩ := mem_iff_getElem?.mp mem
  refine ⟨?_, sound.discarded (books_queue hqueue) gone⟩
  apply eq_nil_iff_forall_not_mem.mpr
  intro record hrecord
  obtain ⟨listed, -⟩ := sound.balanced.record (books_queue hqueue) hrecord
  exact Bool.false_ne_true (gone.symm.trans listed)

lemma perm_queues (broker : Broker) : broker.queues.Perm (broker.present ++ broker.removed) :=
  (filter_append_perm Queue.listed broker.queues).symm

lemma conserved_places (accounted : broker.Accounted) (sound : broker.Sound []) :
    (broker.waiting ++ broker.delivered ++ broker.gone ++ broker.discarded).Perm
      (List.range broker.copies) := by
  have parts : ∀ queues : List Queue, (queues.flatMap Queue.copies).Perm
      (queues.flatMap (fun queue => queue.messages.map (·.copy)) ++
        queues.flatMap fun queue => queue.deliveries.map (·.queued.copy)) :=
    fun queues => (flatMap_append_perm queues _ _).symm
  have none : (broker.removed.flatMap fun queue => queue.deliveries.map (·.queued.copy)) = [] := by
    rw [flatMap_eq_nil_iff]
    intro queue mem
    rw [(removed_empty sound mem).1]
    rfl
  have queues : (broker.queues.flatMap Queue.copies).Perm
      (broker.waiting ++ broker.delivered ++ broker.discarded) := by
    refine ((perm_queues broker).flatMap_right _).trans ?_
    rw [flatMap_append]
    refine (parts _).append ((parts _).trans ?_)
    rw [none, append_nil]
    exact .refl _
  refine List.Perm.trans ?_ accounted
  refine List.Perm.trans ?_ (queues.symm.append_right _)
  simp only [append_assoc]
  exact (perm_append_comm.append_left _).append_left _

lemma length_unsettled (sound : broker.Sound []) (id : ServerId) :
    (broker.unsettled id).length = broker.books.records.countP (·.server = id) := by
  have records : broker.books.records.Perm (broker.present.flatMap (·.deliveries)) := by
    have none : (broker.removed.flatMap fun queue => queue.deliveries) = [] := by
      rw [flatMap_eq_nil_iff]
      exact fun queue mem => (removed_empty sound mem).1
    change ((broker.queues.map Queue.book).flatMap (·.deliveries)).Perm _
    rw [flatMap_map]
    refine ((perm_queues broker).flatMap_right _).trans ?_
    rw [flatMap_append]
    change (_ ++ broker.removed.flatMap fun queue => queue.deliveries).Perm _
    rw [none, append_nil]
    exact .refl _
  rw [records.countP_eq, countP_eq_length_filter, filter_flatMap]
  rfl

/-- The broker conserves copies, deliveries and counters in every permitted run. -/
theorem conserved {limits : BrokerLimits} {broker : Broker}
    (run : Reach (step limits) Permitted {} broker) : broker.Conserved limits := by
  have accounted : broker.Accounted := run.invariant (.refl _) fun h _ st => accounted_step h st
  have sound : broker.Sound [] := run.invariant Books.sound_empty sound_step
  have balanced := sound.balanced
  refine ⟨conserved_places accounted sound, fun _ => removed_empty sound, balanced.settled.1,
    ?_, ?_, ?_⟩
  · intro id server hserver delivery mem outcome
    -- A settled delivery has no record, so that no server remembers it.
    have forgotten : server.deliveryQueues.lookup delivery = none := by
      cases h : server.deliveryQueues.lookup delivery with
      | none => rfl
      | some =>
        obtain ⟨record, hrecord, -, same⟩ := balanced.remembered (books_server hserver) h
        exact absurd same ((balanced.settled.2 delivery mem).2 record hrecord)
    have raises : broker.settle limits id server delivery outcome =
        .error (.duplicateSettlement "delivery was already settled") := by
      rw [settle, forgotten]
    refine ⟨raises, ?_⟩
    rw [step, hserver]
    change some (broker.orElse (broker.settle limits id server delivery outcome)) = _
    rw [raises]
    rfl
  · intro id server hserver
    obtain ⟨count, bound⟩ := balanced.inFlight (books_server hserver)
    change server.inFlight = _ at count
    rw [← length_unsettled sound id] at count
    refine ⟨count, ?_, bound⟩
    rw [count]
    exact Int.natCast_nonneg _
  · intro queue mem replicaId consumer hconsumer
    obtain ⟨_, hqueue⟩ := mem_iff_getElem?.mp (mem_filter.mp mem).1
    exact (balanced.consumer (books_queue hqueue) hconsumer).2.1

/-- An unreliable broadcast subscription to an event of the service. -/
def sampleBroadcast : EventSubscription where
  identity := placedEvent
  mode := .broadcast
  subscription := "audit"
  destination := some ordersService
  instanceId := some "i1"
  reliable := false
  subscription_alias := by decide
  instanceId_alias := by decide
  reliable_of_mode := by decide
  destination_of_mode := by decide
  instanceId_of_mode := by decide

def sampleEvent : Publication where
  messageId := 1
  routingKey := sampleBroadcast.identity.routingKey
  body := []
  native := some (.route sampleBroadcast.identity.exchangeName sampleBroadcast.identity.routingKey)

def sampleQueues : List String := [rpcQueueName ordersService, eventQueueName sampleBroadcast]

/-- A server starts, an event is delivered, settled twice, and the server closes. -/
def sampleRun : List Action :=
  [.create ordersService "a" 1, .prepare 0 [] [sampleBroadcast], .start 0 sampleQueues,
    .publish sampleEvent 0, .iterate 1 0, .settle 0 0 .ack, .settle 0 0 .ack, .close 0]

theorem conserved_sampleRun : ∃ broker,
    execBy (step {}) (fun broker action => decide (broker.Permitted action)) {} sampleRun =
      some broker ∧ broker.copies = 1 ∧ broker.Conserved {} := by
  have evaluated : (execBy (step {}) (fun broker action => decide (broker.Permitted action)) {}
      sampleRun).map (·.copies) = some 1 := by decide +kernel
  obtain ⟨broker, run, copies⟩ := Option.map_eq_some_iff.mp evaluated
  refine ⟨broker, run, copies, conserved ?_⟩
  exact .of_execBy (fun _ _ h => of_decide_eq_true h) .refl run

/-- Three servers of one replica set. The first closes and is suspended in the removal of the queue.
The second is prepared for the queue and gets the event; then the removal goes on and forgets the
name. The second stops its intake, the third is prepared for the queue and closes, which removes the
queue with the delivery that is out. -/
def lostRun : List Action :=
  [.create ordersService "a" 1, .create ordersService "b" 1, .create ordersService "c" 1,
    .prepare 0 [] [sampleBroadcast], .start 0 sampleQueues, .close 0,
    .prepare 1 [] [sampleBroadcast], .start 1 sampleQueues, .publish sampleEvent 0, .resume 0,
    .iterate 2 0, .stopIntake 1, .prepare 2 [] [sampleBroadcast], .close 2]

/-- The second server counts a delivery that is in no queue of the broker. -/
theorem lostRun_not_conserved : ∃ broker,
    exec (step {}) {} lostRun = some broker ∧ ¬ broker.Conserved {} := by
  have evaluated : (exec (step {}) {} lostRun).map
      (fun broker => (broker.servers[1]?.map (·.inFlight), (broker.unsettled 1).length)) =
        some (some 1, 0) := by decide +kernel
  obtain ⟨broker, run, counted⟩ := Option.map_eq_some_iff.mp evaluated
  refine ⟨broker, run, fun conserved => ?_⟩
  obtain ⟨counter, none⟩ := Prod.mk.inj counted
  obtain ⟨_, hserver, one⟩ := Option.map_eq_some_iff.mp counter
  have same := (conserved.inFlight hserver).1
  rw [one, none] at same
  cases same

/-- In every run, permitted or not, each copy is once in a queue or among the fates. -/
theorem accounted_of_reachable (run : Reachable (step limits) {} broker) : broker.Accounted :=
  run.invariant (.refl _) fun accounted _ stepped => accounted_step accounted stepped

theorem accounted_lostRun : ∃ broker,
    exec (step {}) {} lostRun = some broker ∧ broker.Accounted := by
  have runs : (exec (step {}) {} lostRun).isSome = true := by decide +kernel
  obtain ⟨broker, run⟩ := Option.isSome_iff_exists.mp runs
  exact ⟨broker, run, accounted_of_reachable (.of_exec .refl run)⟩

end Broker

end ToriPy.Microservices
