import ToriPy.Microservices.Settlement

/-!
# Stopping and closing servers

`stop_server` goes over the queues that were listed when it was called. Without requeueing it takes
the consumers of the server away. With requeueing it also gives the deliveries of the server back
to their queues and removes ephemeral queues that nobody else has, which suspends it; the queues
that it has yet to visit are all that it knows of the rest of its work.

`sound_step` puts the methods together: a step that the callers may take keeps the books sound.
-/

namespace ToriPy.Microservices.Broker

open List

/-! ### One round -/

/-- What a round of `stop_server` does to the book of its queue. -/
def quit (id : ServerId) (replicaId : String) (again : Bool) (queue : QueueBook) : QueueBook :=
  { queue with
    consumers := queue.consumers.erase replicaId
    deliveries := if again then queue.deliveries.filter (·.server ≠ id) else queue.deliveries }

def forgetAll (records : List DeliveryRecord) (server : ServerBook) : ServerBook :=
  { server with
    deliveryQueues := records.foldl (fun queues record => queues.erase record.delivery)
      server.deliveryQueues
    inFlight := server.inFlight - records.length }

lemma books_stopQueue (broker : Broker) (id : ServerId) (replicaId : String) (again : Bool)
    (queueId : QueueId) :
    (broker.stopQueue id replicaId again queueId).books =
      broker.books.take queueId (quit id replicaId again) id
        (forgetAll (if again then broker.recordsOf id queueId else [])) [] := by
  unfold stopQueue books Books.take
  congr 1
  · apply map_modify
    intro queue
    cases again with
    | true | false => rfl
  · exact map_modify fun _ => rfl
  · exact (append_nil _).symm

lemma lookup_forgetAll (records : List DeliveryRecord) (queues : Dict DeliveryId String)
    (delivery : DeliveryId) :
    (records.foldl (fun queues record => queues.erase record.delivery) queues).lookup delivery =
      if delivery ∈ records.map (·.delivery) then none else queues.lookup delivery := by
  induction records generalizing queues with
  | nil => rfl
  | cons record records ih =>
    rw [foldl_cons, ih, Dict.lookup_erase_ite, map_cons]
    simp only [mem_cons]
    split
    · rename_i later
      rw [if_pos (.inr later)]
    rename_i later
    split
    · rename_i here
      rw [if_pos (.inl here)]
    · rename_i here
      rw [if_neg (not_or.mpr ⟨here, later⟩)]

lemma forgotten_forgetAll (records : List DeliveryRecord) (server : ServerBook) :
    Books.Forgotten records server (forgetAll records server) where
  replicaId := rfl
  prefetch := rfl
  status := rfl
  registered := rfl
  queueNames := rfl
  deliveryQueues := lookup_forgetAll records server.deliveryQueues
  inFlight := rfl

variable {broker : Broker} {more : List Closing} {replicaId : String} {rest queues : List QueueId}
  {queueId : QueueId} {server : Server} {id : ServerId} {queue : Queue} {name : String}

lemma taken_quit {books : Books} (balanced : books.Balanced) {queue : QueueBook}
    {server : ServerBook} (again : Bool) (hqueue : books.queues[queueId]? = some queue)
    (hserver : books.servers[id]? = some server) :
    Books.Taken id (if again then queue.deliveries.filter (·.server = id) else []) queue
      (quit id server.replicaId again queue) where
  name := rfl
  listed := rfl
  deliveries := by
    cases again with
    | true =>
      have parts := filter_append_perm (fun record => record.server = id) queue.deliveries
      simpa [quit] using parts.symm
    | false => exact .refl _
  server := by
    intro record mem
    cases again with
    | true => simpa using (mem_filter.mp mem).2
    | false => cases mem
  consumers := by
    intro replicaId consumer h
    obtain ⟨other, h⟩ := Dict.erase_some h
    refine ⟨consumer, h, rfl, ?_⟩
    rw [if_neg]
    · exact (Int.sub_zero _).symm
    -- A consumer of the server is under its replica identifier.
    intro same
    obtain ⟨-, -, _, howner, -, replica⟩ := balanced.consumer hqueue h
    rw [same, hserver] at howner
    cases howner
    exact other replica.symm

lemma sound_stopQueue (again : Bool) (sound : broker.Sound more)
    (hserver : broker.servers[id]? = some server) (hqueue : broker.queues[queueId]? = some queue) :
    (broker.stopQueue id server.replicaId again queueId).Sound more := by
  have records : broker.recordsOf id queueId = queue.book.deliveries.filter (·.server = id) := by
    rw [recordsOf, hqueue]
    rfl
  rw [Sound, books_stopQueue, records]
  exact Books.Sound.take sound (books_queue hqueue) (books_server hserver)
    (taken_quit sound.balanced again (books_queue hqueue) (books_server hserver))
    (forgotten_forgetAll _ _) nodup_nil fun _ mem => absurd mem not_mem_nil

/-! ### Stopping without requeueing -/

/-- No listed queue outside of `rest` has a consumer under the replica identifier. -/
def Silent (broker : Broker) (replicaId : String) (rest : List QueueId) : Prop :=
  ∀ {queueId : QueueId} {queue : Queue}, broker.queues[queueId]? = some queue →
    queue.listed = true → queueId ∉ rest → queue.consumers.lookup replicaId = none

lemma silent_stopQueue (silent : broker.Silent replicaId (queueId :: rest))
    (again : Bool) : (broker.stopQueue id replicaId again queueId).Silent replicaId rest := by
  intro other queue h listed notin
  rcases modify_cases h with ⟨ne, hqueue⟩ | ⟨rfl, _, hqueue, rfl⟩
  · refine silent hqueue listed ?_
    rw [mem_cons, not_or]
    exact ⟨Ne.symm ne, notin⟩
  · cases again with
    | true | false => exact AList.lookup_erase _ _

lemma Silent.quiet (silent : broker.Silent server.replicaId []) (balanced : broker.books.Balanced)
    (hserver : broker.servers[id]? = some server) : broker.books.Quiet id := by
  intro queueId queue replicaId consumer hqueue hconsumer same
  obtain ⟨listed, -, _, howner, -, replica⟩ := balanced.consumer hqueue hconsumer
  rw [same, books_server hserver] at howner
  cases howner
  obtain ⟨_, hold, rfl⟩ := books_queue_inv hqueue
  have none := silent hold listed not_mem_nil
  change server.replicaId = replicaId at replica
  rw [replica] at none
  cases none.symm.trans hconsumer

lemma sound_dropOwner (sound : broker.Sound more) (id : ServerId) (name : String) :
    (broker.dropOwner id name).Sound more := by
  unfold dropOwner
  split
  · exact sound
  · exact sound

lemma queues_dropOwner (broker : Broker) (id : ServerId) (name : String) :
    (broker.dropOwner id name).queues = broker.queues := by
  unfold dropOwner
  split <;> rfl

lemma servers_dropOwner (broker : Broker) (id : ServerId) (name : String) :
    (broker.dropOwner id name).servers = broker.servers := by
  unfold dropOwner
  split <;> rfl

/-- A server of the broker with a replica identifier. -/
def HasReplica (broker : Broker) (id : ServerId) (replicaId : String) : Prop :=
  ∃ server, broker.servers[id]? = some server ∧ server.replicaId = replicaId

lemma hasReplica_stopQueue (again : Bool) (queueId : QueueId) (h : broker.HasReplica id replicaId) :
    (broker.stopQueue id replicaId again queueId).HasReplica id replicaId := by
  obtain ⟨_, hserver, same⟩ := h
  exact ⟨_, modify_new hserver, same⟩

lemma kept_stopQueue {i : QueueId} (id : ServerId) (replicaId : String) (again : Bool)
    (queueId : QueueId) (h : broker.queues[i]? = some queue) :
    ∃ queue', (broker.stopQueue id replicaId again queueId).queues[i]? = some queue' :=
  modify_kept h

lemma sound_stopQueues_false (sound : broker.Sound []) (replica : broker.HasReplica id replicaId)
    (silent : broker.Silent replicaId queues)
    (known : ∀ i ∈ queues, ∃ queue, broker.queues[i]? = some queue) :
    let stopped := (stopQueues id replicaId false broker queues).1
    stopped.Sound [] ∧ stopped.Silent replicaId [] ∧ stopped.HasReplica id replicaId := by
  induction queues generalizing broker with
  | nil => exact ⟨sound, silent, replica⟩
  | cons queueId rest ih =>
    obtain ⟨_, hqueue⟩ := known queueId mem_cons_self
    have round : (broker.stopQueue id replicaId false queueId).Sound [] := by
      obtain ⟨_, hserver, rfl⟩ := replica
      exact sound_stopQueue false sound hserver hqueue
    obtain ⟨_, hqueue'⟩ := kept_stopQueue id replicaId false queueId hqueue
    rw [stopQueues, hqueue']
    simp only [removesQueue, Bool.false_and, Bool.false_eq_true, ↓reduceIte]
    apply ih
    · exact sound_dropOwner round id _
    · rw [HasReplica, servers_dropOwner]
      exact hasReplica_stopQueue false queueId replica
    · rw [Silent, queues_dropOwner]
      exact silent_stopQueue silent false
    · intro i mem
      obtain ⟨_, hold⟩ := known i (mem_cons_of_mem _ mem)
      rw [queues_dropOwner]
      exact kept_stopQueue id replicaId false queueId hold

lemma stopQueue_setStatus (broker : Broker) (id : ServerId) (replicaId : String) (again : Bool)
    (queueId : QueueId) (status : TransportStatus) :
    (broker.setStatus id status).stopQueue id replicaId again queueId =
      (broker.stopQueue id replicaId again queueId).setStatus id status := by
  have servers : ∀ records, (broker.servers.modify id fun server => { server with status }).modify
      id (dropRecords records) = (broker.servers.modify id (dropRecords records)).modify id
        fun server => { server with status } := by
    intro records
    rw [modify_modify_eq, modify_modify_eq]
    rfl
  unfold stopQueue setStatus modifyQueue modifyServer
  dsimp only
  rw [servers]
  rfl

lemma stopQueues_setStatus (id : ServerId) (replicaId : String) (status : TransportStatus)
    (queues : List QueueId) (broker : Broker) :
    (stopQueues id replicaId false (broker.setStatus id status) queues).1 =
      (stopQueues id replicaId false broker queues).1.setStatus id status := by
  induction queues generalizing broker with
  | nil => rfl
  | cons queueId rest ih =>
    rw [stopQueues, stopQueues, stopQueue_setStatus]
    have queues : ((broker.stopQueue id replicaId false queueId).setStatus id status).queues =
        (broker.stopQueue id replicaId false queueId).queues := rfl
    rw [queues]
    cases (broker.stopQueue id replicaId false queueId).queues[queueId]? with
    | none => exact ih _
    | some =>
      simp only [removesQueue, Bool.false_and, Bool.false_eq_true, ↓reduceIte]
      rw [← ih]
      congr 2
      unfold dropOwner setStatus modifyServer
      dsimp only
      split <;> rfl

lemma known_listedQueues (broker : Broker) :
    ∀ i ∈ broker.listedQueues, ∃ queue, broker.queues[i]? = some queue := by
  intro i mem
  obtain ⟨queue, hqueue, -⟩ := mem_listedQueues.mp mem
  exact ⟨queue, hqueue⟩

lemma sound_stopIntake {broker'} (sound : broker.Sound [])
    (hserver : broker.servers[id]? = some server) (h : broker.stopIntake id server = .ok broker') :
    broker'.Sound [] ∧ broker'.HasReplica id server.replicaId := by
  unfold stopIntake at h
  split at h
  · cases h
    exact ⟨sound, server, hserver, rfl⟩
  · cases h
    exact ⟨sound, server, hserver, rfl⟩
  · cases h
    rw [stopQueues_setStatus]
    have silent : broker.Silent server.replicaId broker.listedQueues := by
      intro queueId queue hqueue listed notin
      exact absurd (mem_listedQueues.mpr ⟨queue, hqueue, listed⟩) notin
    obtain ⟨sound', silent', _, hserver', same⟩ := sound_stopQueues_false sound
      ⟨server, hserver, rfl⟩ silent broker.known_listedQueues
    change ((stopQueues id server.replicaId false broker broker.listedQueues).1.setStatus
      id .quiescing).Sound [] ∧ ((stopQueues id server.replicaId false broker
        broker.listedQueues).1.setStatus id .quiescing).HasReplica id server.replicaId
    generalize (stopQueues id server.replicaId false broker broker.listedQueues).1 = stopped at *
    have books : (stopped.setStatus id .quiescing).books = stopped.books.modifyServer id fun server =>
        { server with status := .quiescing } := books_modifyServer fun _ => rfl
    refine ⟨?_, ⟨_, modify_new hserver', same⟩⟩
    rw [Sound, books]
    refine Books.Sound.modifyServer sound' ?_ fun _ => ?_
    · exact sound'.balanced.stay ⟨fun _ => rfl, fun _ => rfl, fun _ => rfl, fun _ => rfl⟩
        (fun _ => rfl) fun _ _ mem => mem
    · rw [← same] at silent'
      exact Books.Quiet.standing (silent'.quiet sound'.balanced hserver') ⟨by simp, by simp⟩
  · cases h

/-! ### Stopping with requeueing -/

lemma shrinks_stopQueue (broker : Broker) (id : ServerId) (replicaId : String) (again : Bool)
    (queueId : QueueId) :
    Books.Shrinks broker.books (broker.stopQueue id replicaId again queueId).books := by
  rw [books_stopQueue]
  refine .modifyQueue rfl fun queue _ => ⟨rfl, fun listed => listed, .inl, ?_, ?_⟩
  · intro record mem
    cases again with
    | true => exact .inl (mem_filter.mp mem).1
    | false => exact .inl mem
  · intro key consumer h
    exact .inl ⟨consumer, (Dict.erase_some h).2, rfl⟩

/-- A visited queue has no record of the server any more. -/
def Clean (broker : Broker) (id : ServerId) (queueId : QueueId) : Prop :=
  ∀ {queue : Queue}, broker.queues[queueId]? = some queue →
    ∀ record ∈ queue.deliveries, record.server ≠ id

lemma clean_stopQueue (broker : Broker) (id : ServerId) (replicaId : String) (queueId : QueueId) :
    (broker.stopQueue id replicaId true queueId).Clean id queueId := by
  intro queue h record mem
  rcases modify_cases h with ⟨ne, -⟩ | ⟨-, _, _, rfl⟩
  · exact absurd rfl ne
  · simpa using (mem_filter.mp mem).2

lemma stopping_tail (stopping : broker.books.Stopping id (queueId :: rest))
    (clean : broker.Clean id queueId) : broker.books.Stopping id rest where
  records := by
    intro other queue record hqueue mem same
    rcases mem_cons.mp (stopping.records hqueue mem same) with rfl | later
    · obtain ⟨_, hold, rfl⟩ := books_queue_inv hqueue
      exact absurd same (clean hold record mem)
    · exact later
  names := (pairwise_cons.mp stopping.names).2
  known := fun i mem => stopping.known i (mem_cons_of_mem _ mem)

lemma not_ownedElsewhere (h : broker.ownedElsewhere id name = false) {other server}
    (hserver : broker.books.servers[other]? = some server)
    (owns : server.Owns name) : other = id := by
  obtain ⟨old, hold, rfl⟩ := books_server_inv hserver
  by_contra ne
  have found : broker.ownedElsewhere id name = true := by
    rw [ownedElsewhere, any_eq_true]
    refine ⟨(old, other), mem_zipIdx_iff_getElem?.mpr hold, ?_⟩
    obtain ⟨registered, named⟩ : old.registered = true ∧ name ∈ old.queueNames := owns
    simp [ne, registered, named]
  rw [h] at found
  cases found

/-- The queue that is removed is empty: who has a record or a consumer there has its name, and the
server that stops has neither. -/
lemma sound_popQueue (sound : broker.Sound (⟨id, .draining⟩ :: more))
    (hqueue : broker.queues[queueId]? = some queue)
    (stopping : broker.books.Stopping id (queueId :: rest)) (clean : broker.Clean id queueId)
    (removes : broker.removesQueue id true queue = true) :
    (broker.popQueue queue.name).Sound (⟨id, .draining⟩ :: more) ∧
      (broker.popQueue queue.name).books.Unlisted queue.name ∧
      (broker.popQueue queue.name).books.Stopping id rest := by
  have tail := stopping_tail stopping clean
  simp only [removesQueue, Bool.true_and, Bool.and_eq_true, decide_eq_true_eq,
    Bool.not_eq_eq_eq_not, Bool.not_true] at removes
  obtain ⟨⟨ephemeral, -⟩, unowned⟩ := removes
  unfold popQueue
  split
  · rename_i absent
    exact ⟨sound, books_find_none.mp absent, tail⟩
  rename_i found here
  obtain ⟨old, hold, listed, same⟩ := find_some here
  have books : (broker.modifyQueue found fun queue => { queue with listed := false }).books =
      broker.books.modifyQueue found Books.unlist := books_modifyQueue fun _ => rfl
  have none : old.book.deliveries = [] ∧
      ∀ replicaId, old.book.consumers.lookup replicaId = none := by
    refine ⟨?_, ?_⟩
    · apply eq_nil_iff_forall_not_mem.mpr
      intro record mem
      obtain ⟨-, server, hserver, owns, -⟩ := sound.balanced.record (books_queue hold) mem
      change server.Owns old.name at owns
      rw [same] at owns
      have own := not_ownedElsewhere unowned hserver owns
      rcases mem_cons.mp (stopping.records (books_queue hold) mem own) with rfl | later
      · exact clean hold record mem own
      · exact (pairwise_cons.mp stopping.names).1 found later (books_queue hqueue)
          (books_queue hold) same.symm
    · intro replicaId
      cases h : old.book.consumers.lookup replicaId with
      | none => rfl
      | some consumer =>
        obtain ⟨-, -, server, hserver, owns, -⟩ := sound.balanced.consumer (books_queue hold) h
        change server.Owns old.name at owns
        rw [same] at owns
        have own := not_ownedElsewhere unowned hserver owns
        exact absurd own ((sound.halted _ mem_cons_self).quiet (books_queue hold) h)
  have origin : Books.Shrinks broker.books (broker.books.modifyQueue found Books.unlist) := by
    refine .modifyQueue rfl fun queue hqueue => ?_
    cases (books_queue hold).symm.trans hqueue
    exact ⟨rfl, nofun, fun _ => .inr (show old.name ∈ _ from same ▸ ephemeral), fun _ => .inl,
      fun h => .inl ⟨_, h, rfl⟩⟩
  refine ⟨?_, ?_, ?_⟩
  · rw [Sound, books]
    refine Books.Sound.unlist sound (books_queue hold) (show old.name ∈ _ from same ▸ ephemeral)
      none fun {other server} hserver owns => ?_
    change server.Owns old.name at owns
    rw [same] at owns
    exact ⟨_, mem_cons_self, (not_ownedElsewhere unowned hserver owns).symm⟩
  · rw [books]
    intro other unlisted h now eq
    rcases modify_cases h with ⟨ne, hother⟩ | ⟨-, _, -, rfl⟩
    · exact ne (sound.balanced.names (books_queue hold) hother listed now (same.trans eq.symm))
    · cases now
  · rw [books]
    refine origin.stopping tail not_false fun i mem => ?_
    obtain ⟨_, hqueue⟩ := tail.known i mem
    exact modify_kept hqueue

lemma books_forgetQueue (broker : Broker) (name : String) :
    (broker.forgetQueue name).books =
      { broker.books with
        servers := broker.books.servers.map (Books.disown name)
        ephemeralQueues := broker.ephemeralQueues.erase name } := by
  unfold forgetQueue books
  congr 1
  rw [map_map, map_map]
  congr 1
  funext server
  have same : server.book.registered = server.registered := rfl
  rw [Function.comp_apply, Function.comp_apply, Books.disown, same]
  split <;> rfl

lemma sound_forgetQueue (sound : broker.Sound more)
    (unlisted : broker.books.Unlisted name) : (broker.forgetQueue name).Sound more := by
  rw [Sound, books_forgetQueue]
  exact (Books.Sound.disown sound unlisted).addEphemeral fun _ mem =>
    .inl (mem_of_mem_erase mem)

lemma stopping_forgetQueue (stopping : broker.books.Stopping id rest) :
    (broker.forgetQueue name).books.Stopping id rest := by
  rw [books_forgetQueue]
  exact ⟨stopping.records, stopping.names, stopping.known⟩

lemma hasReplica_popQueue (name : String) (h : broker.HasReplica id replicaId) :
    (broker.popQueue name).HasReplica id replicaId := by
  unfold popQueue
  split
  · exact h
  · exact h

lemma hasReplica_forgetQueue (name : String) (h : broker.HasReplica id replicaId) :
    (broker.forgetQueue name).HasReplica id replicaId := by
  obtain ⟨server, hserver, rfl⟩ := h
  have present : (broker.forgetQueue name).servers[id]? = some (if server.registered then
      { server with
        queueNames := server.queueNames.erase name
        subscriptions := server.subscriptions.erase name }
      else server) := by
    rw [forgetQueue, getElem?_map, hserver]
    rfl
  refine ⟨_, present, ?_⟩
  split <;> rfl

/-- How a `stop_server` leaves the books: done, or suspended with a name and the queues that it has
yet to visit. -/
structure Stopped (more : List Closing) (id : ServerId) (replicaId : String)
    (result : Broker × Option (String × List QueueId)) : Prop where
  sound : result.1.Sound (⟨id, .draining⟩ :: more)
  replica : result.1.HasReplica id replicaId
  idle : result.2 = none → result.1.books.Idle id
  suspended : ∀ {name : String} {rest : List QueueId}, result.2 = some (name, rest) →
    result.1.books.Unlisted name ∧ result.1.books.Stopping id rest

lemma stopped_stopQueues (sound : broker.Sound (⟨id, .draining⟩ :: more))
    (replica : broker.HasReplica id replicaId) (stopping : broker.books.Stopping id queues) :
    Stopped more id replicaId (stopQueues id replicaId true broker queues) := by
  induction queues generalizing broker with
  | nil =>
    refine ⟨sound, replica, fun _ record mem same => ?_, nofun⟩
    obtain ⟨queueId, queue, hqueue, mem⟩ := Books.mem_records.mp mem
    cases stopping.records hqueue mem same
  | cons queueId rest ih =>
    obtain ⟨book, hbook⟩ := stopping.known queueId mem_cons_self
    obtain ⟨_, hqueue, rfl⟩ := books_queue_inv hbook
    have round : (broker.stopQueue id replicaId true queueId).Sound (⟨id, .draining⟩ :: more) := by
      obtain ⟨_, hserver, rfl⟩ := replica
      exact sound_stopQueue true sound hserver hqueue
    have clean : (broker.stopQueue id replicaId true queueId).Clean id queueId :=
      broker.clean_stopQueue id replicaId queueId
    have replica' := hasReplica_stopQueue true queueId replica
    have stopping' : (broker.stopQueue id replicaId true queueId).books.Stopping id
        (queueId :: rest) := by
      refine (broker.shrinks_stopQueue id replicaId true queueId).stopping stopping not_false ?_
      intro i mem
      obtain ⟨book, hbook⟩ := stopping.known i mem
      obtain ⟨_, hold, rfl⟩ := books_queue_inv hbook
      obtain ⟨new, hnew⟩ := kept_stopQueue id replicaId true queueId hold
      exact ⟨new.book, books_queue hnew⟩
    obtain ⟨queue', hqueue'⟩ := kept_stopQueue id replicaId true queueId hqueue
    rw [stopQueues, hqueue']
    generalize broker.stopQueue id replicaId true queueId = stopped at *
    dsimp only
    split
    · rename_i removes
      obtain ⟨popped, unlisted, tail⟩ := sound_popQueue round hqueue' stopping' clean removes
      split
      · refine ⟨popped, hasReplica_popQueue _ replica', nofun, ?_⟩
        intro name rest' h
        cases h
        exact ⟨unlisted, tail⟩
      · apply ih
        · exact sound_forgetQueue popped unlisted
        · exact hasReplica_forgetQueue _ (hasReplica_popQueue _ replica')
        · exact stopping_forgetQueue tail
    · have books : (stopped.dropOwner id queue'.name).books = stopped.books := by
        unfold dropOwner
        split <;> rfl
      apply ih
      · exact sound_dropOwner round id _
      · rw [HasReplica, servers_dropOwner]
        exact replica'
      · rw [books]
        exact stopping_tail stopping' clean

/-! ### Closing -/

/-- Other calls of `close` are suspended, of the same servers at least. -/
lemma Books.Sound.reclose {books : Books} {closing closing'} (sound : books.Sound closing)
    (servers : ∀ c ∈ closing, ∃ c' ∈ closing', c'.server = c.server)
    (halted : ∀ c ∈ closing', books.Halted c) : books.Sound closing' where
  __ := sound
  standing := by
    intro other server hserver
    have standing := sound.standing hserver
    refine ⟨standing.quiet, standing.idle, standing.unnamed, standing.registered, ?_⟩
    intro early registered others
    refine standing.names early registered fun c mem => ?_
    obtain ⟨c', mem, same⟩ := servers c mem
    exact same ▸ others c' mem
  halted := halted

lemma sound_begin (sound : broker.Sound []) (quiet : broker.books.Quiet id) :
    broker.Sound [⟨id, .draining⟩] := by
  refine Books.Sound.reclose sound (fun c mem => ⟨c, mem_cons_of_mem _ mem, rfl⟩) ?_
  intro c mem
  rcases mem_cons.mp mem with rfl | mem
  · exact ⟨quiet, nofun⟩
  · exact sound.halted c mem

lemma sound_suspend {stage} (sound : broker.Sound [⟨id, .draining⟩])
    (removing : ∀ {name} {rest : List QueueId} {last},
      stage = .removing name rest last → broker.books.Unlisted name ∧
        broker.books.Stopping id rest) : (broker.suspend id stage).Sound [] := by
  change broker.books.Sound (broker.closing ++ [⟨id, stage⟩])
  refine Books.Sound.reclose sound ?_ ?_
  · intro c mem
    rcases mem_cons.mp mem with rfl | mem
    · exact ⟨⟨id, stage⟩, mem_snoc.mpr (.inr rfl), rfl⟩
    · exact ⟨c, mem_snoc.mpr (.inl mem), rfl⟩
  · intro c mem
    rcases mem_snoc.mp mem with mem | rfl
    · exact sound.halted c (mem_cons_of_mem _ mem)
    · exact ⟨(sound.halted _ mem_cons_self).quiet, removing⟩

lemma sound_finishClose (sound : broker.Sound [⟨id, .draining⟩])
    (idle : broker.books.Idle id) : (broker.finishClose id).Sound [] := by
  have quiet : broker.books.Quiet id := (sound.halted _ mem_cons_self).quiet
  have books : (broker.finishClose id).books = broker.books.modifyServer id fun server =>
      { server with registered := false, status := .closed } := books_modifyServer fun _ => rfl
  have left : (broker.finishClose id).Sound [⟨id, .draining⟩] := by
    rw [Sound, books]
    refine Books.Sound.modifyServer sound ?_ fun _ => ?_
    · exact sound.balanced.leave ⟨fun _ => rfl, fun _ => rfl, fun _ => rfl, fun _ => rfl⟩
        (fun _ => rfl) quiet idle
    · exact Books.Quiet.standing quiet ⟨by simp, by simp⟩
  refine ⟨left.balanced, ?_, fun c mem => left.halted c (mem_cons_of_mem _ mem),
    left.ephemeral, left.discarded⟩
  intro other server hserver
  have standing := left.standing hserver
  refine ⟨standing.quiet, standing.idle, standing.unnamed, standing.registered, ?_⟩
  intro early registered others
  refine standing.names early registered fun c mem => ?_
  rcases mem_cons.mp mem with rfl | mem
  · -- The server that closed is neither created nor prepared.
    rintro rfl
    rw [books] at hserver
    rcases modify_cases hserver with ⟨ne, -⟩ | ⟨-, _, -, rfl⟩
    · exact ne rfl
    · rcases early with early | early <;> cases early
  · exact others c mem

lemma stopping_listedQueues (balanced : broker.books.Balanced) (id : ServerId) :
    broker.books.Stopping id broker.listedQueues where
  records := by
    intro queueId queue record hqueue mem _
    obtain ⟨old, hold, rfl⟩ := books_queue_inv hqueue
    exact mem_listedQueues.mpr ⟨old, hold, (balanced.record hqueue mem).1⟩
  names := by
    have nodup : broker.listedQueues.Nodup := nodup_range.filter _
    refine nodup.imp_of_mem ?_
    intro i j hi hj ne queue queue' h h' same
    obtain ⟨_, hold, listed⟩ := mem_listedQueues.mp hi
    obtain ⟨_, hold', listed'⟩ := mem_listedQueues.mp hj
    cases (books_queue hold).symm.trans h
    cases (books_queue hold').symm.trans h'
    exact ne (balanced.names h h' listed listed' same)
  known := by
    intro i mem
    obtain ⟨queue, hqueue⟩ := broker.known_listedQueues i mem
    exact ⟨queue.book, books_queue hqueue⟩

lemma sound_finalStop (sound : broker.Sound [⟨id, .draining⟩])
    (replica : broker.HasReplica id replicaId) (stopping : broker.books.Stopping id queues) :
    (finalStop id replicaId broker queues).Sound [] := by
  have stopped := stopped_stopQueues sound replica stopping
  unfold finalStop
  split <;> rename_i result
  · rw [result] at stopped
    exact sound_finishClose stopped.sound (stopped.idle rfl)
  rw [result] at stopped
  refine sound_suspend stopped.sound ?_
  intro name rest last h
  cases h
  exact stopped.suspended rfl

lemma sound_drain (sound : broker.Sound [⟨id, .draining⟩])
    (replica : broker.HasReplica id replicaId) : (broker.drain id replicaId).Sound [] := by
  unfold drain
  split
  · exact sound_suspend sound nofun
  · exact sound_finalStop sound replica (stopping_listedQueues sound.balanced id)

lemma sound_firstStop (sound : broker.Sound [⟨id, .draining⟩])
    (replica : broker.HasReplica id replicaId) (stopping : broker.books.Stopping id queues) :
    (firstStop id replicaId broker queues).Sound [] := by
  have stopped := stopped_stopQueues sound replica stopping
  unfold firstStop
  split <;> rename_i result
  · rw [result] at stopped
    exact sound_drain stopped.sound stopped.replica
  rw [result] at stopped
  refine sound_suspend stopped.sound ?_
  intro name rest last h
  cases h
  exact stopped.suspended rfl

lemma sound_close (sound : broker.Sound [])
    (hserver : broker.servers[id]? = some server) : (broker.close id server).Sound [] := by
  have replica : broker.HasReplica id server.replicaId := ⟨server, hserver, rfl⟩
  have begin : server.status ≠ .running → broker.Sound [⟨id, .draining⟩] := by
    intro stopped
    exact sound_begin sound ((sound.standing (books_server hserver)).quiet stopped)
  unfold close
  split
  · exact sound
  · rename_i running
    split
    · rename_i stopped h
      obtain ⟨sound', server', hserver', same⟩ := sound_stopIntake sound hserver h
      have quiescing : server'.status = .quiescing := by
        rw [stopIntake, running] at h
        cases h
        rw [stopQueues_setStatus] at hserver'
        rcases modify_cases hserver' with ⟨ne, -⟩ | ⟨-, _, -, rfl⟩
        · exact absurd rfl ne
        · rfl
      refine sound_drain (sound_begin sound' ?_) ⟨server', hserver', same⟩
      refine (sound'.standing (books_server hserver')).quiet ?_
      change server'.status ≠ .running
      rw [quiescing]
      decide
    · exact sound
  · rename_i prepared
    have ready := begin (by rw [prepared]; decide)
    exact sound_firstStop ready replica (stopping_listedQueues ready.balanced id)
  · rename_i notRunning _
    exact sound_drain (begin notRunning) replica

lemma sound_resume {index : Nat} {closing : Closing} (sound : broker.Sound [])
    (hclosing : broker.closing[index]? = some closing)
    (hserver : broker.servers[closing.server]? = some server) :
    ({ broker with closing := broker.closing.eraseIdx index }.resume closing.server
      server.replicaId closing.stage).Sound [] := by
  have perm : broker.closing.Perm (closing :: broker.closing.eraseIdx index) :=
    perm_eraseIdx hclosing
  obtain ⟨quiet, removing⟩ := sound.halted closing (mem_of_getElem? hclosing)
  have begin : { broker with closing := broker.closing.eraseIdx index }.Sound
      [⟨closing.server, .draining⟩] := by
    refine Books.Sound.reclose sound ?_ ?_
    · intro c mem
      rcases mem_cons.mp (perm.mem_iff.mp mem) with rfl | mem
      · exact ⟨⟨c.server, .draining⟩, mem_cons_self, rfl⟩
      · exact ⟨c, mem_cons_of_mem _ mem, rfl⟩
    · intro c mem
      rcases mem_cons.mp mem with rfl | mem
      · exact ⟨quiet, nofun⟩
      · exact sound.halted c (perm.mem_iff.mpr (mem_cons_of_mem _ mem))
  have replica : { broker with closing := broker.closing.eraseIdx index }.HasReplica
      closing.server server.replicaId := ⟨server, hserver, rfl⟩
  unfold resume
  split
  · exact sound_finalStop begin replica (stopping_listedQueues begin.balanced _)
  · rename_i name rest stage
    obtain ⟨unlisted, stopping⟩ := removing stage
    exact sound_finalStop (sound_forgetQueue begin unlisted)
      (hasReplica_forgetQueue name replica) (stopping_forgetQueue stopping)
  · rename_i name rest stage
    obtain ⟨unlisted, stopping⟩ := removing stage
    exact sound_firstStop (sound_forgetQueue begin unlisted)
      (hasReplica_forgetQueue name replica) (stopping_forgetQueue stopping)

end ToriPy.Microservices.Broker
