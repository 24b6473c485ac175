import ToriPy.Base.Table
import ToriPy.Microservices.Broker

/-!
# Copies

No step of the broker loses or duplicates a copy: in every run the copies that wait in a queue, that
are out for delivery and that left the queues are together the copies that were accepted, each once.
This holds whatever the queues are called and whoever closes, because every method moves a copy from
one place to another within one step.
-/

namespace ToriPy.Microservices

open List

/-- The copies in a queue: those that wait and those that are out for delivery. -/
def Queue.copies (queue : Queue) : List CopyId :=
  queue.messages.map (·.copy) ++ queue.deliveries.map (·.queued.copy)

namespace Broker

/-- The copies in the queues, also in those that were removed, and the copies that left them. -/
def allCopies (broker : Broker) : List CopyId :=
  broker.queues.flatMap Queue.copies ++ broker.fates.map Prod.fst

def Accounted (broker : Broker) : Prop := broker.allCopies.Perm (List.range broker.copies)

/-! ### Changes of one queue -/

variable {queue : Queue}

section
variable {broker : Broker} {id : QueueId} {f : Queue → Queue}

lemma allCopies_modifyQueue
    (same : ∀ queue, broker.queues[id]? = some queue → (f queue).copies.Perm queue.copies) :
    (broker.modifyQueue id f).allCopies.Perm broker.allCopies := by
  apply List.Perm.append_right
  change ((broker.queues.modify id f).flatMap Queue.copies).Perm _
  cases h : broker.queues[id]? with
  | none => rw [modify_none h]
  | some queue =>
    have kept : ((f queue :: broker.queues.eraseIdx id).flatMap Queue.copies).Perm
        ((queue :: broker.queues.eraseIdx id).flatMap Queue.copies) :=
      (same queue h).append_right _
    exact ((perm_modify h).flatMap_right _).trans
      (kept.trans ((perm_eraseIdx h).flatMap_right _).symm)

lemma allCopies_leave {copy} (fate : Fate) (h : broker.queues[id]? = some queue)
    (taken : (copy :: (f queue).copies).Perm queue.copies) :
    { broker.modifyQueue id f with fates := broker.fates ++ [(copy, fate)] }.allCopies.Perm
      broker.allCopies := by
  have before : broker.allCopies.Perm
      (copy :: (f queue).copies ++ ((broker.queues.eraseIdx id).flatMap Queue.copies ++
        broker.fates.map Prod.fst)) := by
    rw [← append_assoc]
    apply List.Perm.append_right
    exact ((perm_eraseIdx h).flatMap_right _).trans (taken.symm.append_right _)
  have after : { broker.modifyQueue id f with
        fates := broker.fates ++ [(copy, fate)] }.allCopies.Perm
      ((f queue).copies ++ ((broker.queues.eraseIdx id).flatMap Queue.copies ++
        (broker.fates.map Prod.fst ++ [copy]))) := by
    rw [← append_assoc]
    change ((broker.queues.modify id f).flatMap Queue.copies ++
      (broker.fates ++ [(copy, fate)]).map Prod.fst).Perm _
    rw [map_append]
    exact ((perm_modify h).flatMap_right _).append_right _
  refine after.trans (List.Perm.trans ?_ before.symm)
  have moved := perm_append_singleton copy ((f queue).copies ++
    ((broker.queues.eraseIdx id).flatMap Queue.copies ++ broker.fates.map Prod.fst))
  simpa only [append_assoc, cons_append] using moved

lemma allCopies_enter {copy} (h : broker.queues[id]? = some queue)
    (added : (f queue).copies.Perm (copy :: queue.copies)) :
    (broker.modifyQueue id f).allCopies.Perm (copy :: broker.allCopies) := by
  rw [allCopies, allCopies, ← cons_append]
  apply List.Perm.append_right
  change ((broker.queues.modify id f).flatMap Queue.copies).Perm _
  have grown : ((f queue :: broker.queues.eraseIdx id).flatMap Queue.copies).Perm
      (copy :: (queue :: broker.queues.eraseIdx id).flatMap Queue.copies) :=
    added.append_right _
  exact ((perm_modify h).flatMap_right _).trans
    (grown.trans (((perm_eraseIdx h).flatMap_right _).symm.cons copy))

end

/-! ### The methods -/

/-- The broker has the same copies, perhaps in other places. -/
def SameCopies (broker broker' : Broker) : Prop :=
  broker'.allCopies.Perm broker.allCopies ∧ broker'.copies = broker.copies

lemma SameCopies.refl (broker : Broker) : SameCopies broker broker := ⟨.refl _, rfl⟩

variable {broker' : Broker} {limits : BrokerLimits} {server : Server}

lemma SameCopies.trans {broker broker''} (h : SameCopies broker broker')
    (h' : SameCopies broker' broker'') : SameCopies broker broker'' :=
  ⟨h'.1.trans h.1, h'.2.trans h.2⟩

lemma SameCopies.accounted {broker} (h : SameCopies broker broker')
    (accounted : broker.Accounted) : broker'.Accounted := by
  rw [Accounted, h.2]
  exact h.1.trans accounted

lemma sameCopies_modifyQueue {broker id f}
    (same : ∀ queue, broker.queues[id]? = some queue → (f queue).copies.Perm queue.copies) :
    SameCopies broker (broker.modifyQueue id f) :=
  ⟨allCopies_modifyQueue same, rfl⟩

lemma sameCopies_ensureQueue (broker : Broker) (name : String) :
    SameCopies broker (broker.ensureQueue name) := by
  unfold ensureQueue
  split
  · exact .refl _
  · refine ⟨?_, rfl⟩
    simp [allCopies, Queue.copies]

lemma sameCopies_registerSubscription (id : ServerId) (broker : Broker)
    (subscription : EventSubscription) :
    SameCopies broker (registerSubscription id broker subscription) := by
  have ensured : ∀ changed : Broker, changed.queues = broker.queues → changed.fates = broker.fates →
      changed.copies = broker.copies →
        SameCopies broker (changed.ensureQueue (eventQueueName subscription)) := by
    intro changed queues fates copies
    refine .trans ⟨?_, copies⟩ (sameCopies_ensureQueue changed _)
    rw [allCopies, allCopies, queues, fates]
  unfold registerSubscription
  dsimp only
  split
  · split
    · exact ensured _ rfl rfl rfl
    · exact ensured _ rfl rfl rfl
  · exact ensured _ rfl rfl rfl

lemma sameCopies_prepare {broker id rpcMethods subscriptions}
    (h : broker.prepare id server rpcMethods subscriptions = .ok broker') :
    SameCopies broker broker' := by
  have fold : ∀ (subscriptions : List EventSubscription) (broker : Broker),
      SameCopies broker (subscriptions.foldl (registerSubscription id) broker) := by
    intro subscriptions
    induction subscriptions with
    | nil => exact .refl
    | cons subscription subscriptions ih =>
      intro broker
      exact (sameCopies_registerSubscription id broker subscription).trans (ih _)
  obtain ⟨-, -, rfl⟩ := prepare_ok h
  exact (sameCopies_ensureQueue broker (rpcQueueName server.service)).trans (fold _ _)

lemma sameCopies_startServer (id : ServerId) (server : Server) (names : List String)
    (broker : Broker) : SameCopies broker (startServer id server broker names).1 := by
  induction names generalizing broker with
  | nil => exact .refl _
  | cons name names ih =>
    rw [startServer]
    split
    · exact .refl _
    · rename_i queueId found
      have kept : SameCopies broker (broker.modifyQueue queueId (startQueue id server)) :=
        sameCopies_modifyQueue fun _ _ => .refl _
      exact kept.trans (ih _)

lemma sameCopies_start (broker : Broker) (id : ServerId) (server : Server) (names : List String) :
    SameCopies broker (broker.start id server names) := by
  have started := sameCopies_startServer id server names broker
  unfold start
  split
  · exact .refl _
  split
  · rename_i broker' e result
    rw [result] at started
    exact started
  · rename_i broker' result
    rw [result] at started
    exact started

lemma accounted_enqueue {broker} (accounted : broker.Accounted) (publication : Publication)
    (name : String) : (enqueue publication broker name).Accounted := by
  unfold enqueue
  split
  · exact accounted
  rename_i id found
  obtain ⟨_, h, -, -⟩ := find_some found
  rw [Accounted, range_succ]
  refine (allCopies_enter h ?_).trans ((accounted.cons _).trans
    (perm_append_singleton _ _).symm)
  simp only [Queue.copies, map_append, map_cons, map_nil, append_assoc]
  exact perm_middle

lemma accounted_publish {broker : Broker} {publication now} (accounted : broker.Accounted)
    (h : (broker.publish limits publication now).map Prod.fst = .ok broker') :
    broker'.Accounted := by
  obtain ⟨-, rfl⟩ := publish_ok h
  clear h
  generalize broker.routes.select publication.routingKey publication.native = names
  induction names generalizing broker with
  | nil => exact accounted
  | cons name names ih => exact ih (accounted_enqueue accounted publication name)

lemma sameCopies_iterate {broker id} (now : Instant)
    (h : broker.queues[id]? = some queue) : SameCopies broker (broker.iterate id queue now) := by
  unfold iterate
  split
  · exact sameCopies_modifyQueue fun _ _ => .refl _
  · exact sameCopies_modifyQueue fun _ _ => .refl _
  rename_i replicaId consumer queued rest next messages
  split
  · refine ⟨allCopies_leave _ h ?_, rfl⟩
    simp [Queue.copies, messages]
  refine sameCopies_modifyQueue fun queue' h' => ?_
  cases h.symm.trans h'
  simp only [Queue.copies, deliverTo, messages, map_append, map_cons, map_nil]
  rw [← append_assoc]
  exact perm_append_singleton _ _

lemma copies_wakeQueues (broker : Broker) (names : List String) :
    SameCopies broker (broker.wakeQueues names) := by
  refine ⟨?_, rfl⟩
  have same : (broker.wakeQueues names).queues.flatMap Queue.copies =
      broker.queues.flatMap Queue.copies := by
    rw [wakeQueues, flatMap_map]
    congr 1
    funext queue
    split <;> rfl
  rw [allCopies, same]
  exact .refl _

lemma sameCopies_settle {broker id delivery outcome}
    (h : broker.settle limits id server delivery outcome = .ok broker') :
    SameCopies broker broker' := by
  obtain ⟨_, queueId, queue, record, -, -, hqueue, hrecord, rfl⟩ := settle_ok h
  have found : record.delivery = delivery := by simpa using find?_some hrecord
  subst found
  have taken := (perm_eraseP hrecord).map (·.queued.copy)
  unfold settleRecord
  refine SameCopies.trans ?_ (copies_wakeQueues _ _)
  refine ⟨?_, rfl⟩
  cases back : goesBack limits queue record outcome with
  | true =>
    have moved : SameCopies broker (broker.modifyQueue queueId
        (release server.replicaId record.delivery [record.queued.retried])) := by
      refine sameCopies_modifyQueue fun other h => ?_
      cases hqueue.symm.trans h
      simp only [Queue.copies, release, map_append, map_cons, map_nil, append_assoc] at taken ⊢
      exact taken.symm.append_left _
    simpa [allCopies, modifyQueue, modifyServer, back] using moved.1
  | false =>
    have left : (record.queued.copy ::
        (release server.replicaId record.delivery [] queue).copies).Perm queue.copies := by
      simp only [Queue.copies, release, append_nil]
      exact perm_middle.symm.trans (taken.symm.append_left _)
    simpa [allCopies, modifyServer, back] using allCopies_leave (settledFate outcome) hqueue left

lemma sameCopies_dispatched (limits : BrokerLimits) (broker : Broker) (id : ServerId)
    (server : Server) (delivery : DeliveryId) (encoded : EncodedDelivery)
    (result : DispatchResult) :
    SameCopies broker (broker.dispatched limits id server delivery encoded result) := by
  unfold dispatched
  dsimp only
  split
  · exact .refl _
  · split
    · rename_i settled h
      exact (sameCopies_settle h).trans ⟨.refl _, rfl⟩
    · exact .refl _

/-! ### Stopping -/

lemma sameCopies_stopQueue (broker : Broker) (id : ServerId) (replicaId : String) (again : Bool)
    (queueId : QueueId) : SameCopies broker (broker.stopQueue id replicaId again queueId) := by
  refine sameCopies_modifyQueue fun queue _ => ?_
  dsimp only
  split
  · -- The deliveries of the server and the other deliveries are the deliveries of the queue.
    have parts := (filter_append_perm (·.server = id) queue.deliveries).map (·.queued.copy)
    have retried : ∀ records : List DeliveryRecord,
        (records.map (·.queued.retried)).map (·.copy) = records.map (·.queued.copy) := by
      intro records
      rw [map_map]
      rfl
    simp only [Queue.copies, requeue, map_append, map_reverse, retried] at parts ⊢
    refine (List.Perm.append_right _ ((reverse_perm _).append_right _)).trans ?_
    rw [append_assoc]
    refine (perm_append_comm_assoc _ _ _).trans (List.Perm.append_left _ ?_)
    simpa using parts
  · exact .refl _

lemma sameCopies_popQueue (broker : Broker) (name : String) :
    SameCopies broker (broker.popQueue name) := by
  unfold popQueue
  split
  · exact .refl _
  · exact sameCopies_modifyQueue fun _ _ => .refl _

lemma sameCopies_dropOwner (broker : Broker) (id : ServerId) (name : String) :
    SameCopies broker (broker.dropOwner id name) := by
  unfold dropOwner
  split
  · exact .refl _
  · exact .refl _

lemma sameCopies_stopQueues (id : ServerId) (replicaId : String) (again : Bool)
    (queues : List QueueId) (broker : Broker) :
    SameCopies broker (stopQueues id replicaId again broker queues).1 := by
  induction queues generalizing broker with
  | nil => exact .refl _
  | cons queueId rest ih =>
    have stopped := sameCopies_stopQueue broker id replicaId again queueId
    rw [stopQueues]
    split
    · exact stopped.trans (ih _)
    split
    · split
      · exact stopped.trans (sameCopies_popQueue _ _)
      · exact stopped.trans ((sameCopies_popQueue _ _).trans (ih _))
    · exact stopped.trans ((sameCopies_dropOwner _ _ _).trans (ih _))

lemma sameCopies_stopIntake {broker id}
    (h : broker.stopIntake id server = .ok broker') : SameCopies broker broker' := by
  unfold stopIntake at h
  split at h
  · cases h
    exact .refl _
  · cases h
    exact .refl _
  · cases h
    exact sameCopies_stopQueues id server.replicaId false _ (broker.setStatus id .quiescing)
  · cases h

lemma sameCopies_finalStop (id : ServerId) (replicaId : String) (broker : Broker)
    (queues : List QueueId) : SameCopies broker (finalStop id replicaId broker queues) := by
  have stopped := sameCopies_stopQueues id replicaId true queues broker
  unfold finalStop
  split <;> rename_i result
  · rw [result] at stopped
    exact stopped
  · rw [result] at stopped
    exact stopped

lemma sameCopies_drain (broker : Broker) (id : ServerId) (replicaId : String) :
    SameCopies broker (broker.drain id replicaId) := by
  unfold drain
  split
  · exact .refl _
  · exact sameCopies_finalStop id replicaId broker _

lemma sameCopies_firstStop (id : ServerId) (replicaId : String) (broker : Broker)
    (queues : List QueueId) : SameCopies broker (firstStop id replicaId broker queues) := by
  have stopped := sameCopies_stopQueues id replicaId true queues broker
  unfold firstStop
  split <;> rename_i result
  · rw [result] at stopped
    exact stopped.trans (sameCopies_drain _ _ _)
  · rw [result] at stopped
    exact stopped

lemma sameCopies_close (broker : Broker) (id : ServerId) (server : Server) :
    SameCopies broker (broker.close id server) := by
  unfold close
  split
  · exact .refl _
  · split
    · rename_i stopped h
      exact (sameCopies_stopIntake h).trans (sameCopies_drain _ _ _)
    · exact .refl _
  · exact sameCopies_firstStop ..
  · exact sameCopies_drain ..

lemma sameCopies_resume (broker : Broker) (id : ServerId) (replicaId : String)
    (stage : CloseStage) : SameCopies broker (broker.resume id replicaId stage) := by
  unfold resume
  split
  · exact sameCopies_finalStop ..
  · exact sameCopies_finalStop id replicaId (broker.forgetQueue _) _
  · exact sameCopies_firstStop id replicaId (broker.forgetQueue _) _

/-! ### Runs -/

lemma accounted_step {broker : Broker} {action} (accounted : broker.Accounted)
    (h : step limits broker action = some broker') : broker'.Accounted := by
  cases step_moves h with
  | raised | create => exact accounted
  | prepare _ made => exact (sameCopies_prepare made).accounted accounted
  | start => exact (sameCopies_start ..).accounted accounted
  | publish made => exact accounted_publish accounted made
  | iterate found => exact (sameCopies_iterate _ found).accounted accounted
  | settle _ made => exact (sameCopies_settle made).accounted accounted
  | dispatched => exact (sameCopies_dispatched ..).accounted accounted
  | stopIntake _ made => exact (sameCopies_stopIntake made).accounted accounted
  | close => exact (sameCopies_close ..).accounted accounted
  | resume => exact (sameCopies_resume _ _ _ _).accounted accounted

end Broker

end ToriPy.Microservices
