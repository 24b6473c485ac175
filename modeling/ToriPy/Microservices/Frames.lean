import ToriPy.Base.Table
import ToriPy.Microservices.Broker

/-!
# Frames

What the methods of the broker leave alone. `Evolves R` says that every queue came from the queue with
its identity by changes that meet `R`, or from an empty one. A relation that does not see consumers,
names and events (`Frame`) is kept by registering and starting servers and by stopping them without
requeueing, by the rest of a `close` if it is kept by requeueing, and by all steps but the round of a
queue if it is also kept by appending messages and by settling deliveries (`evolves_step`).

The routes come along: they change by registrations and by forgetting queues only (`Leads`), and no
route leads to a queue twice.
-/

namespace ToriPy.Microservices

open List

def EventSubscription.route (subscription : EventSubscription) : String × String :=
  (subscription.identity.exchangeName, subscription.identity.routingKey)

/-- The routes that come from others by registering services and subscriptions and by forgetting
queues. -/
inductive Routes.Leads (routes : Routes) : Routes → Prop where
  | refl : Leads routes routes
  | addRpc {routes' : Routes} (service : ServiceIdentity) :
    Leads routes routes' →
    Leads routes (routes'.addRpc service.label (Broker.rpcQueueName service))
  | addEvent {routes' : Routes} (subscription : EventSubscription) :
    Leads routes routes' →
    Leads routes (routes'.addEvent subscription.route (eventQueueName subscription))
  | forget {routes' : Routes} (name : String) :
    Leads routes routes' →
    Leads routes (routes'.forget name)

variable {routes : Routes}

lemma Routes.Leads.trans {routes' routes''} (first : routes.Leads routes')
    (second : routes'.Leads routes'') : routes.Leads routes'' := by
  induction second with
  | refl => exact first
  | addRpc service _ ih => exact .addRpc service ih
  | addEvent subscription _ ih => exact .addEvent subscription ih
  | forget name _ ih => exact .forget name ih

def Routes.Distinct (routes : Routes) : Prop := ∀ entry ∈ routes.eventRoutes, entry.2.Nodup

lemma Routes.distinct_addEvent (distinct : routes.Distinct) (route : String × String)
    (name : String) : (routes.addEvent route name).Distinct := by
  intro entry mem
  unfold addEvent at mem
  dsimp only at mem
  split at mem
  · obtain ⟨old, hold, rfl⟩ := mem_map.mp mem
    split
    · exact (distinct old hold).insert
    · exact distinct old hold
  · rcases mem_snoc.mp mem with mem | rfl
    · exact distinct entry mem
    · exact nodup_singleton name

lemma Routes.distinct_forget (distinct : routes.Distinct) (name : String) :
    (routes.forget name).Distinct := by
  intro entry mem
  obtain ⟨old, hold, rfl⟩ := mem_map.mp (mem_filter.mp mem).1
  exact (distinct old hold).erase name

lemma Routes.Leads.distinct {routes'} (leads : routes.Leads routes')
    (distinct : routes.Distinct) : routes'.Distinct := by
  induction leads with
  | refl => exact distinct
  | addRpc service _ ih => exact ih
  | addEvent subscription _ ih => exact distinct_addEvent ih _ _
  | forget name _ ih => exact distinct_forget ih name

lemma Routes.nodup_select (distinct : routes.Distinct) (routingKey : String)
    (native : Option Native) : (routes.select routingKey native).Nodup := by
  unfold select
  split
  · rename_i exchange key
    cases h : routes.eventRoutes.lookup (exchange, key) with
    | none => exact nodup_nil
    | some names =>
      obtain ⟨_, _, split, -⟩ := lookup_eq_some_iff.mp h
      have mem : ((exchange, key), names) ∈ routes.eventRoutes := by
        rw [split]
        exact mem_append_right _ mem_cons_self
      exact distinct _ mem
  · split
    · exact nodup_singleton _
    · exact nodup_nil

namespace Broker

/-- Every queue came from the queue with its identity, or from an empty one. -/
structure Evolves (R : Queue → Queue → Prop) (broker broker' : Broker) : Prop where
  queue : ∀ {id : QueueId} {queue' : Queue}, broker'.queues[id]? = some queue' →
    (∃ queue, broker.queues[id]? = some queue ∧ R queue queue') ∨
      broker.queues[id]? = none ∧ ∃ name, R { name := name } queue'
  grows : broker.queues.length ≤ broker'.queues.length
  routes : broker.routes.Leads broker'.routes

/-- A relation that sees the messages, the deliveries and the cursor of a queue only. -/
structure Frame (R : Queue → Queue → Prop) : Prop where
  same : ∀ {queue queue' : Queue}, queue'.messages = queue.messages →
    queue'.deliveries = queue.deliveries → queue'.cursor = queue.cursor → R queue queue'
  trans : ∀ {queue queue' queue'' : Queue}, R queue queue' → R queue' queue'' → R queue queue''

section
variable {R : Queue → Queue → Prop} {broker broker' broker'' : Broker}

section
variable (frame : Frame R)
include frame

lemma Evolves.trans (h : Evolves R broker broker')
    (h' : Evolves R broker' broker'') : Evolves R broker broker'' := by
  refine ⟨fun {id queue''} hqueue => ?_, h.grows.trans h'.grows,
    h.routes.trans h'.routes⟩
  rcases h'.queue hqueue with ⟨_, hqueue', changed⟩ | ⟨absent, name, changed⟩
  · rcases h.queue hqueue' with ⟨queue, hold, before⟩ | ⟨absent, name, before⟩
    · exact .inl ⟨queue, hold, frame.trans before changed⟩
    · exact .inr ⟨absent, name, frame.trans before changed⟩
  · refine .inr ⟨?_, name, changed⟩
    rw [List.getElem?_eq_none_iff] at absent ⊢
    exact h.grows.trans absent

lemma Evolves.modify {id : QueueId} {f : Queue → Queue}
    (queues : broker'.queues = broker.queues.modify id f)
    (routes : broker.routes.Leads broker'.routes)
    (h : ∀ queue, broker.queues[id]? = some queue → R queue (f queue)) :
    Evolves R broker broker' := by
  refine ⟨fun {other queue'} hqueue => ?_, ?_, routes⟩
  · rw [queues] at hqueue
    rcases modify_cases hqueue with ⟨-, hold⟩ | ⟨rfl, old, hold, rfl⟩
    · exact .inl ⟨queue', hold, frame.same rfl rfl rfl⟩
    · exact .inl ⟨old, hold, h old hold⟩
  · rw [queues, length_modify]

lemma Evolves.unchanged (queues : broker'.queues = broker.queues)
    (routes : broker.routes.Leads broker'.routes) : Evolves R broker broker' := by
  refine ⟨fun {id queue'} hqueue => ?_, Nat.le_of_eq (congrArg List.length queues.symm), routes⟩
  rw [queues] at hqueue
  exact .inl ⟨queue', hqueue, frame.same rfl rfl rfl⟩

lemma Evolves.refl : Evolves R broker broker :=
  .unchanged frame rfl .refl

/-! ### Registration -/

lemma evolves_ensureQueue (name : String) : Evolves R broker (broker.ensureQueue name) := by
  unfold ensureQueue
  split
  · exact .refl frame
  refine ⟨fun {id queue'} hqueue => ?_, ?_, .refl⟩
  · rcases concat_cases hqueue with hold | ⟨rfl, rfl⟩
    · exact .inl ⟨queue', hold, frame.same rfl rfl rfl⟩
    · exact .inr ⟨List.getElem?_eq_none_iff.mpr le_rfl, name, frame.same rfl rfl rfl⟩
  · rw [length_append]
    exact Nat.le_add_right _ _

lemma evolves_registerSubscription (id : ServerId) (subscription : EventSubscription) :
    Evolves R broker (registerSubscription id broker subscription) := by
  have ensured : ∀ changed : Broker, changed.queues = broker.queues →
      changed.routes = broker.routes → ∀ f,
        let name := eventQueueName subscription
        let ensured := changed.ensureQueue name
        Evolves R broker ({ ensured with
          routes := ensured.routes.addEvent subscription.route name }.modifyServer id f) := by
    intro changed queues routes f name ensured
    have before : Evolves R broker changed := .unchanged frame queues (routes ▸ .refl)
    refine (before.trans frame (evolves_ensureQueue frame name)).trans frame ?_
    exact .unchanged frame rfl (.addEvent subscription .refl)
  unfold registerSubscription
  dsimp only
  apply ensured
  · split
    · split <;> rfl
    · rfl
  · split
    · split <;> rfl
    · rfl

lemma evolves_prepare {id server rpcMethods subscriptions}
    (h : broker.prepare id server rpcMethods subscriptions = .ok broker') :
    Evolves R broker broker' := by
  have fold : ∀ (subscriptions : List EventSubscription) (broker : Broker),
      Evolves R broker (subscriptions.foldl (registerSubscription id) broker) := by
    intro subscriptions
    induction subscriptions with
    | nil => exact fun _ => .refl frame
    | cons subscription subscriptions ih =>
      intro broker
      exact (evolves_registerSubscription frame id subscription).trans frame (ih _)
  obtain ⟨-, -, rfl⟩ := prepare_ok h
  have service : Evolves R broker (registerService id broker server.service) := by
    refine (evolves_ensureQueue frame (rpcQueueName server.service)).trans frame ?_
    exact .unchanged frame rfl (.addRpc server.service .refl)
  refine (service.trans frame (fold subscriptions _)).trans frame ?_
  exact .unchanged frame rfl .refl

lemma evolves_start (id : ServerId) (server : Server) (names : List String) :
    Evolves R broker (broker.start id server names) := by
  have loop : ∀ (names : List String) (broker : Broker),
      Evolves R broker (startServer id server broker names).1 := by
    intro names
    induction names with
    | nil => exact fun _ => .refl frame
    | cons name names ih =>
      intro broker
      rw [startServer]
      split
      · exact .refl frame
      · rename_i queueId _
        have started : Evolves R broker (broker.modifyQueue queueId (startQueue id server)) :=
          .modify frame rfl .refl fun _ _ => frame.same rfl rfl rfl
        exact started.trans frame (ih _)
  have started := loop names broker
  unfold start
  split
  · exact .refl frame
  split <;> rename_i result
  · rw [result] at started
    exact started
  · rw [result] at started
    exact started.trans frame (.unchanged frame rfl .refl)

lemma evolves_wakeQueues (names : List String) : Evolves R broker (broker.wakeQueues names) := by
  refine ⟨fun {id queue'} hqueue => ?_, Nat.le_of_eq (length_map _).symm,
    .refl⟩
  rw [wakeQueues, getElem?_map] at hqueue
  obtain ⟨queue, hold, rfl⟩ := Option.map_eq_some_iff.mp hqueue
  refine .inl ⟨queue, hold, ?_⟩
  split
  · exact frame.same rfl rfl rfl
  · exact frame.same rfl rfl rfl

/-! ### Stopping -/

lemma evolves_popQueue (name : String) : Evolves R broker (broker.popQueue name) := by
  unfold popQueue
  split
  · exact .refl frame
  · exact .modify frame rfl .refl fun _ _ => frame.same rfl rfl rfl

lemma evolves_forgetQueue (name : String) : Evolves R broker (broker.forgetQueue name) :=
  .unchanged frame rfl (.forget name .refl)

lemma evolves_stopQueue {id again} (requeues : again = true → ∀ queue, R queue (requeue id queue))
    (replicaId : String)
    (queueId : QueueId) : Evolves R broker (broker.stopQueue id replicaId again queueId) := by
  refine .modify frame rfl .refl fun queue _ => ?_
  have erased : R queue { queue with
      consumers := queue.consumers.erase replicaId, wake := true } := frame.same rfl rfl rfl
  dsimp only
  split
  · rename_i now
    exact frame.trans erased (requeues now _)
  · exact erased

/-- What a round of `stop_server` does behind its first half. -/
lemma evolves_visited {id again replicaId queueId rest}
    (later : ∀ broker, Evolves R broker (stopQueues id replicaId again broker rest).1) :
    Evolves R (broker.stopQueue id replicaId again queueId)
      (stopQueues id replicaId again broker (queueId :: rest)).1 := by
  rw [stopQueues]
  split
  · exact later _
  split
  · split
    · exact evolves_popQueue frame _
    · rename_i queue _ _ _
      refine (evolves_popQueue frame queue.name).trans frame ?_
      exact (evolves_forgetQueue frame queue.name).trans frame (later _)
  · refine .trans frame (.unchanged frame ?_ ?_) (later _)
    · unfold dropOwner
      split <;> rfl
    · unfold dropOwner
      split <;> exact .refl

lemma evolves_stopQueues {id again} (requeues : again = true → ∀ queue, R queue (requeue id queue))
    (replicaId : String) (queues : List QueueId) :
    Evolves R broker (stopQueues id replicaId again broker queues).1 := by
  induction queues generalizing broker with
  | nil => exact .refl frame
  | cons queueId rest ih =>
    exact (evolves_stopQueue frame requeues replicaId queueId).trans frame
      (evolves_visited frame fun _ => ih)

lemma evolves_stopIntake {id server}
    (h : broker.stopIntake id server = .ok broker') : Evolves R broker broker' := by
  unfold stopIntake at h
  split at h
  · cases h
    exact .refl frame
  · cases h
    exact .refl frame
  · cases h
    have status : Evolves R broker (broker.setStatus id .quiescing) :=
      .unchanged frame rfl .refl
    refine status.trans frame (evolves_stopQueues frame ?_ server.replicaId _)
    exact fun now => absurd now Bool.false_ne_true
  · cases h

end

section
variable {id : ServerId} (frame : Frame R) (requeues : ∀ queue, R queue (requeue id queue))
include frame requeues

lemma evolves_finalStop (replicaId : String) (queues : List QueueId) :
    Evolves R broker (finalStop id replicaId broker queues) := by
  have stopped : Evolves R broker (stopQueues id replicaId true broker queues).1 :=
    evolves_stopQueues frame (fun _ => requeues) replicaId queues
  unfold finalStop
  split <;> rename_i result
  · rw [result] at stopped
    exact stopped.trans frame (.unchanged frame rfl .refl)
  · rw [result] at stopped
    exact stopped.trans frame (.unchanged frame rfl .refl)

lemma evolves_drain (replicaId : String) : Evolves R broker (broker.drain id replicaId) := by
  unfold drain
  split
  · exact .unchanged frame rfl .refl
  · exact evolves_finalStop frame requeues replicaId _

lemma evolves_firstStop (replicaId : String) (queues : List QueueId) :
    Evolves R broker (firstStop id replicaId broker queues) := by
  have stopped : Evolves R broker (stopQueues id replicaId true broker queues).1 :=
    evolves_stopQueues frame (fun _ => requeues) replicaId queues
  unfold firstStop
  split <;> rename_i result
  · rw [result] at stopped
    exact stopped.trans frame (evolves_drain frame requeues replicaId)
  · rw [result] at stopped
    exact stopped.trans frame (.unchanged frame rfl .refl)

lemma evolves_close (server : Server) : Evolves R broker (broker.close id server) := by
  unfold close
  split
  · exact .refl frame
  · split
    · rename_i stopped h
      exact (evolves_stopIntake frame h).trans frame (evolves_drain frame requeues _)
    · exact .refl frame
  · exact evolves_firstStop frame requeues _ _
  · exact evolves_drain frame requeues _

lemma evolves_resume (replicaId : String) (stage : CloseStage) :
    Evolves R broker (broker.resume id replicaId stage) := by
  unfold resume
  split
  · exact evolves_finalStop frame requeues replicaId _
  · exact (evolves_forgetQueue frame _).trans frame (evolves_finalStop frame requeues replicaId _)
  · exact (evolves_forgetQueue frame _).trans frame (evolves_firstStop frame requeues replicaId _)

end

/-! ### Publication and settlement -/

lemma evolves_publish {limits publication now} (frame : Frame R) (appends : ∀ queue queued,
      R queue { queue with messages := queue.messages ++ [queued], wake := true })
    (h : (broker.publish limits publication now).map Prod.fst = .ok broker') :
    Evolves R broker broker' := by
  obtain ⟨-, rfl⟩ := publish_ok h
  clear h
  generalize broker.routes.select publication.routingKey publication.native = names
  induction names generalizing broker with
  | nil => exact .refl frame
  | cons name names ih =>
    have appended : Evolves R broker (enqueue publication broker name) := by
      unfold enqueue
      split
      · exact .refl frame
      · exact .modify frame rfl .refl fun queue _ => appends queue _
    exact appended.trans frame ih

section
variable {limits : BrokerLimits} {id : ServerId} {server : Server} (frame : Frame R)
  (releases : ∀ replicaId delivery back queue, R queue (release replicaId delivery back queue))
include frame releases

lemma evolves_settle {delivery outcome}
    (h : broker.settle limits id server delivery outcome = .ok broker') :
    Evolves R broker broker' := by
  obtain ⟨_, _, queue, _, -, -, -, -, rfl⟩ := settle_ok h
  refine .trans frame ?_ (evolves_wakeQueues frame server.queueNames)
  exact .modify frame rfl .refl fun queue _ => releases _ _ _ queue

lemma evolves_dispatched (delivery : DeliveryId) (encoded : EncodedDelivery)
    (result : DispatchResult) :
    Evolves R broker (broker.dispatched limits id server delivery encoded result) := by
  have settled : ∀ changed : Broker, Evolves R broker changed → ∀ f,
      Evolves R broker (changed.modifyServer id f) := by
    intro changed h f
    exact h.trans frame (.unchanged frame rfl .refl)
  unfold dispatched
  dsimp only
  apply settled
  split
  · exact .refl frame
  · split
    · rename_i changed h
      exact evolves_settle frame releases h
    · exact .refl frame

end

lemma evolves_step {limits action} (frame : Frame R)
    (requeues : ∀ id queue, R queue (requeue id queue)) (appends : ∀ queue queued,
      R queue { queue with messages := queue.messages ++ [queued], wake := true })
    (releases : ∀ replicaId delivery back queue, R queue (release replicaId delivery back queue))
    (other : ∀ id now, action ≠ .iterate id now) (h : step limits broker action = some broker') :
    Evolves R broker broker' := by
  cases step_moves h with
  | raised => exact .refl frame
  | create => exact .unchanged frame rfl .refl
  | prepare _ made => exact evolves_prepare frame made
  | start => exact evolves_start frame _ _ _
  | publish made => exact evolves_publish frame appends made
  | iterate => exact absurd rfl (other _ _)
  | settle _ made => exact evolves_settle frame releases made
  | dispatched => exact evolves_dispatched frame releases _ _ _
  | stopIntake _ made => exact evolves_stopIntake frame made
  | close => exact evolves_close frame (requeues _) _
  | resume =>
    refine .trans frame (.unchanged frame ?_ ?_) (evolves_resume frame (requeues _) _ _)
    · rfl
    · exact .refl

/-! ### The tables -/

lemma routes_iterate (broker : Broker) (id : QueueId) (queue : Queue) (now : Instant) :
    (broker.iterate id queue now).routes = broker.routes := by
  unfold iterate
  split
  · rfl
  · rfl
  · split <;> rfl

lemma leads_step {limits action}
    (h : step limits broker action = some broker') : broker.routes.Leads broker'.routes := by
  by_cases other : ∀ id now, action ≠ .iterate id now
  · have frame : Frame fun _ _ : Queue => True := ⟨fun _ _ _ => trivial, fun _ _ => trivial⟩
    exact (evolves_step frame (fun _ _ => trivial) (fun _ _ => trivial) (fun _ _ _ _ => trivial)
      other h).routes
  · simp only [not_forall, Classical.not_not] at other
    obtain ⟨_, _, rfl⟩ := other
    cases step_moves h with
    | raised => exact .refl
    | iterate =>
      rw [routes_iterate]
      exact .refl

lemma leads_of_reachable {limits} (run : Reachable (step limits) {} broker) :
    Routes.Leads {} broker.routes :=
  run.invariant (I := fun broker => Routes.Leads {} broker.routes) .refl
    fun leads _ st => leads.trans (leads_step st)

end

end Broker

end ToriPy.Microservices
