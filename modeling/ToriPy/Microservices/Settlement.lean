import ToriPy.Microservices.Standing

/-!
# Settlement

The broker keeps sound books. Each method is one of the entries of the books, or several in a row,
and meets the condition under which the entry keeps the books balanced. The loops over queues
(`start_server`, `stop_server`) go queue by queue: a `close` is entered as suspended while its
`stop_server` runs, so that the books are sound after every round.

Two things are asked of the callers. A server is not prepared for the name of a queue whose removal
is suspended, because `_remove_queue` forgets the name when it goes on, and by then the name is the
one of another queue. And a server is not started while a `close` of it is suspended, because that
`close` does not come back to the queues that it has visited.
-/

namespace ToriPy.Microservices

open List

def Queue.book (queue : Queue) : QueueBook where
  name := queue.name
  listed := queue.listed
  deliveries := queue.deliveries
  consumers := queue.consumers

def Server.book (server : Server) : ServerBook where
  replicaId := server.replicaId
  prefetch := server.prefetch
  status := server.status
  registered := server.registered
  queueNames := server.queueNames
  deliveryQueues := server.deliveryQueues
  inFlight := server.inFlight

namespace Broker

def books (broker : Broker) : Books where
  queues := broker.queues.map Queue.book
  servers := broker.servers.map Server.book
  ephemeralQueues := broker.ephemeralQueues
  nextDelivery := broker.nextDelivery
  settlements := broker.settlements

/-- The books of the broker are sound, with one more suspended `close` or none. -/
abbrev Sound (broker : Broker) (more : List Closing) : Prop :=
  broker.books.Sound (more ++ broker.closing)

variable {queue : Queue} {name : String}

section
variable {broker : Broker} {queueId : QueueId} {id : ServerId}

lemma books_queue (h : broker.queues[queueId]? = some queue) :
    broker.books.queues[queueId]? = some queue.book := by
  rw [books, getElem?_map, h]
  rfl

lemma books_server {server} (h : broker.servers[id]? = some server) :
    broker.books.servers[id]? = some server.book := by
  rw [books, getElem?_map, h]
  rfl

lemma books_queue_inv {queue} (h : broker.books.queues[queueId]? = some queue) :
    ∃ old, broker.queues[queueId]? = some old ∧ queue = old.book := by
  rw [books, getElem?_map] at h
  obtain ⟨old, hold, rfl⟩ := Option.map_eq_some_iff.mp h
  exact ⟨old, hold, rfl⟩

lemma books_server_inv {server} (h : broker.books.servers[id]? = some server) :
    ∃ old, broker.servers[id]? = some old ∧ server = old.book := by
  rw [books, getElem?_map] at h
  obtain ⟨old, hold, rfl⟩ := Option.map_eq_some_iff.mp h
  exact ⟨old, hold, rfl⟩

lemma books_modifyQueue {f f'} (h : ∀ queue, (f queue).book = f' queue.book) :
    (broker.modifyQueue queueId f).books = broker.books.modifyQueue queueId f' := by
  have queues : (broker.queues.modify queueId f).map Queue.book =
      (broker.queues.map Queue.book).modify queueId f' := map_modify h
  simp only [books, modifyQueue, Books.modifyQueue, queues]

lemma books_modifyServer {f f'} (h : ∀ server, (f server).book = f' server.book) :
    (broker.modifyServer id f).books = broker.books.modifyServer id f' := by
  have servers : (broker.servers.modify id f).map Server.book =
      (broker.servers.map Server.book).modify id f' := map_modify h
  simp only [books, modifyServer, Books.modifyServer, servers]

lemma books_find_none : broker.find name = none ↔ broker.books.Unlisted name := by
  rw [find_none]
  constructor
  · intro h id queue hqueue listed
    obtain ⟨old, hold, rfl⟩ := books_queue_inv hqueue
    exact h id old hold listed
  · intro h id queue hqueue listed
    exact h (books_queue hqueue) listed

end

/-! ### Methods that the books do not see -/

lemma books_enqueue (publication : Publication) (broker : Broker) (name : String) :
    (enqueue publication broker name).books = broker.books := by
  unfold enqueue
  split
  · rfl
  rename_i id found
  have same : (broker.queues.modify id fun queue =>
      { queue with
        messages := queue.messages ++ [⟨broker.copies, publication, 1, false⟩]
        wake := true }).map Queue.book = broker.queues.map Queue.book :=
    map_modify_same fun _ => rfl
  simp only [books, modifyQueue, same]

lemma closing_enqueue (publication : Publication) (broker : Broker) (name : String) :
    (enqueue publication broker name).closing = broker.closing := by
  unfold enqueue
  split
  · rfl
  · rfl

variable {server : Server} {record : DeliveryRecord} {limits : BrokerLimits} {broker' : Broker}

section
variable {broker : Broker} (sound : broker.Sound [])
include sound

lemma sound_publish {publication now}
    (h : (broker.publish limits publication now).map Prod.fst = .ok broker') :
    broker'.Sound [] := by
  obtain ⟨-, rfl⟩ := publish_ok h
  clear h
  generalize broker.routes.select publication.routingKey publication.native = names
  induction names generalizing broker with
  | nil => exact sound
  | cons name names ih =>
    apply ih
    rw [Sound, books_enqueue, closing_enqueue]
    exact sound

/-! ### Registration -/

/-- No suspended `close` removes the name. -/
def Free (broker : Broker) (name : String) : Prop :=
  ∀ c ∈ broker.closing, ∀ {removed : String} {rest : List QueueId} {last : Bool},
    c.stage = .removing removed rest last → removed ≠ name

lemma sound_create (server : Server)
    (fresh : server.book = { replicaId := server.replicaId, prefetch := server.prefetch }) :
    { broker with servers := broker.servers ++ [server] }.Sound [] := by
  have same : { broker with servers := broker.servers ++ [server] }.books =
      broker.books.addServer { replicaId := server.replicaId, prefetch := server.prefetch } := by
    rw [← fresh]
    simp only [books, Books.addServer, map_append, map_cons, map_nil]
  rw [Sound, same]
  exact Books.Sound.addServer sound _ _

lemma sound_ensureQueue (free : broker.Free name) :
    (broker.ensureQueue name).Sound [] ∧ (broker.ensureQueue name).books.Lists name := by
  unfold ensureQueue
  split
  · rename_i present
    obtain ⟨id, found⟩ := Option.isSome_iff_exists.mp present
    obtain ⟨queue, hqueue, listed, rfl⟩ := find_some found
    exact ⟨sound, id, queue.book, books_queue hqueue, listed, rfl⟩
  · rename_i absent
    have unlisted : broker.books.Unlisted name :=
      books_find_none.mp (Option.not_isSome_iff_eq_none.mp absent)
    have same : { broker with queues := broker.queues ++ [({ name := name } : Queue)] }.books =
        broker.books.addQueue name := by
      simp only [books, Books.addQueue, map_append, map_cons, map_nil]
      rfl
    refine ⟨?_, ?_⟩
    · rw [Sound, same]
      exact Books.Sound.addQueue sound unlisted free
    · rw [same]
      exact ⟨broker.books.queues.length, { name := name }, by simp [Books.addQueue], rfl, rfl⟩

/-- What holds of a server while `register_server` runs. -/
def Enrolled (broker : Broker) (id : ServerId) : Prop :=
  ∃ server, broker.servers[id]? = some server ∧ server.status = .created ∧
    server.registered = true

lemma sound_registerService {id : ServerId}
    (hserver : broker.servers[id]? = some server) (created : server.status = .created)
    (replicas : ∀ other ∈ broker.servers.zipIdx,
      other.1.registered = true → other.1.replicaId = server.replicaId → other.2 = id)
    (free : broker.Free (rpcQueueName server.service)) :
    (registerService id broker server.service).Sound [] ∧
      (registerService id broker server.service).Enrolled id := by
  obtain ⟨ensured, lists⟩ := sound_ensureQueue sound free
  have servers : (broker.ensureQueue (rpcQueueName server.service)).servers = broker.servers := by
    unfold ensureQueue
    split <;> rfl
  have same : (registerService id broker server.service).books =
      (broker.ensureQueue (rpcQueueName server.service)).books.modifyServer id fun server' =>
        { server' with
          registered := true
          queueNames := server'.queueNames.insert (rpcQueueName server.service) } := by
    change ((broker.ensureQueue (rpcQueueName server.service)).modifyServer id fun server' =>
      { server' with
        registered := true
        queueNames := server'.queueNames.insert (rpcQueueName server.service) }).books = _
    exact books_modifyServer fun _ => rfl
  refine ⟨?_, ?_⟩
  · rw [Sound, same]
    have hserver' : (broker.ensureQueue (rpcQueueName server.service)).books.servers[id]? =
        some server.book := books_server (servers ▸ hserver)
    refine Books.Sound.claim ensured ?_ hserver' created lists rfl rfl
    refine ensured.balanced.modifyServer ⟨fun _ => rfl, fun _ => rfl, fun _ => rfl, fun _ => rfl⟩
      ?_ ?_
    · intro server' queueId queue _ _ _ owns
      exact ⟨rfl, mem_insert_of_mem owns.2⟩
    intro server' other otherId h _ ne hother registered eq
    cases hserver'.symm.trans h
    obtain ⟨old, hold, rfl⟩ := books_server_inv hother
    rw [servers] at hold
    exact ne (replicas (old, otherId) (mem_zipIdx_iff_getElem?.mpr hold) registered eq)
  · exact ⟨_, modify_new (servers ▸ hserver), created, rfl⟩

lemma sound_registerSubscription {id subscription} (enrolled : broker.Enrolled id)
    (free : broker.Free (eventQueueName subscription)) :
    (registerSubscription id broker subscription).Sound [] ∧
      (registerSubscription id broker subscription).Enrolled id ∧
      (registerSubscription id broker subscription).closing = broker.closing := by
  have ensured : ∀ (changed : Broker), changed.servers = broker.servers →
      changed.closing = broker.closing → changed.Sound [] →
      let ensured := changed.ensureQueue (eventQueueName subscription)
      let claimed := ensured.modifyServer id fun server =>
        { server with
          queueNames := server.queueNames.insert (eventQueueName subscription)
          subscriptions := server.subscriptions.insert (eventQueueName subscription) subscription }
      claimed.Sound [] ∧ claimed.Enrolled id ∧ claimed.closing = broker.closing := by
    intro changed servers closing sound ensured claimed
    obtain ⟨server, hserver, created, registered⟩ := enrolled
    have kept : ensured.servers = broker.servers ∧ ensured.closing = broker.closing := by
      unfold ensured ensureQueue
      split
      · exact ⟨servers, closing⟩
      · exact ⟨servers, closing⟩
    obtain ⟨sound', lists⟩ : ensured.Sound [] ∧
        ensured.books.Lists (eventQueueName subscription) := by
      refine sound_ensureQueue sound ?_
      rw [Free, closing]
      exact free
    rw [← kept.1] at hserver
    have same : claimed.books = ensured.books.modifyServer id fun server =>
        { server with queueNames := server.queueNames.insert (eventQueueName subscription) } :=
      books_modifyServer fun _ => rfl
    refine ⟨?_, ⟨_, modify_new hserver, created, registered⟩, kept.2⟩
    rw [Sound, same]
    refine Books.Sound.claim sound' ?_ (books_server hserver) created lists registered rfl
    exact sound'.balanced.stay ⟨fun _ => rfl, fun _ => rfl, fun _ => rfl, fun _ => rfl⟩
      (fun _ => rfl) fun _ _ mem => mem_insert_of_mem mem
  unfold registerSubscription
  dsimp only
  split
  · rename_i broadcast
    split
    · exact ensured _ rfl rfl sound
    rename_i unreliable
    refine ensured _ rfl rfl (Books.Sound.addEphemeral sound ?_)
    intro name mem
    rcases mem_insert_iff.mp mem with rfl | mem
    · exact .inr ⟨subscription, broadcast, Bool.not_eq_true _ ▸ unreliable, rfl⟩
    · exact .inl mem
  · exact ensured _ rfl rfl sound

lemma sound_prepared {id}
    (enrolled : broker.Enrolled id) : (broker.setStatus id .prepared).Sound [] := by
  obtain ⟨server, hserver, created, registered⟩ := enrolled
  have same : (broker.setStatus id .prepared).books = broker.books.modifyServer id fun server =>
      { server with status := .prepared } := books_modifyServer fun _ => rfl
  rw [Sound, same]
  refine Books.Sound.modifyServer sound ?_ fun {old} hold => ?_
  · exact sound.balanced.stay ⟨fun _ => rfl, fun _ => rfl, fun _ => rfl, fun _ => rfl⟩
      (fun _ => rfl) fun _ _ mem => mem
  cases (books_server hserver).symm.trans hold
  have standing := sound.standing hold
  exact ⟨fun _ => standing.quiet (show server.status ≠ _ from created ▸ by decide),
    fun _ => standing.idle (.inl created), fun _ => nofun, fun _ => registered,
    fun _ => standing.names (.inl created)⟩

lemma sound_prepare {id rpcMethods subscriptions} (hserver : broker.servers[id]? = some server)
    (free : broker.Free (rpcQueueName server.service))
    (frees : ∀ subscription ∈ subscriptions, broker.Free (eventQueueName subscription))
    (h : broker.prepare id server rpcMethods subscriptions = .ok broker') : broker'.Sound [] := by
  have fold : ∀ (subscriptions : List EventSubscription) (broker : Broker), broker.Sound [] →
      broker.Enrolled id →
      (∀ subscription ∈ subscriptions, broker.Free (eventQueueName subscription)) →
        (subscriptions.foldl (registerSubscription id) broker).Sound [] ∧
          (subscriptions.foldl (registerSubscription id) broker).Enrolled id := by
    intro subscriptions
    induction subscriptions with
    | nil =>
      intro broker sound enrolled _
      exact ⟨sound, enrolled⟩
    | cons subscription subscriptions ih =>
      intro broker sound enrolled frees
      obtain ⟨sound', enrolled', closing⟩ :=
        sound_registerSubscription sound enrolled (frees subscription mem_cons_self)
      refine ih _ sound' enrolled' fun next mem => ?_
      rw [Free, closing]
      exact frees next (mem_cons_of_mem _ mem)
  obtain ⟨created, replicas, rfl⟩ := prepare_ok h
  obtain ⟨sound', enrolled⟩ := sound_registerService sound hserver created replicas free
  have closing : (registerService id broker server.service).closing = broker.closing := by
    unfold registerService ensureQueue
    dsimp only
    split <;> rfl
  obtain ⟨sound'', enrolled'⟩ := fold subscriptions _ sound' enrolled fun next mem => by
    rw [Free, closing]
    exact frees next mem
  exact sound_prepared sound'' enrolled'

/-! ### Start -/

def live (server : ServerBook) : ServerBook := { server with status := .running }

end

lemma sound_startServer {id names broker}
    (sound : (broker.books.modifyServer id live).Sound broker.closing)
    (hserver : broker.servers[id]? = some server) (registered : server.registered = true)
    (idle : broker.books.Idle id) (others : ∀ c ∈ broker.closing, c.server ≠ id)
    (found : ∀ name ∈ names, name ∈ server.queueNames ∧ broker.books.Lists name) :
    ∃ broker', startServer id server broker names = (broker', .ok ()) ∧
      (broker'.books.modifyServer id live).Sound broker'.closing := by
  induction names generalizing broker with
  | nil => exact ⟨broker, rfl, sound⟩
  | cons name names ih =>
    obtain ⟨owned, lists⟩ := found name mem_cons_self
    cases here : broker.find name with
    | none =>
      obtain ⟨i, queue, hqueue, listed, same⟩ := lists
      exact absurd same (books_find_none.mp here hqueue listed)
    | some queueId =>
      obtain ⟨_, hqueue, listed, rfl⟩ := find_some here
      have same : (broker.modifyQueue queueId (startQueue id server)).books =
          broker.books.modifyQueue queueId
            (Books.hire server.replicaId ⟨id, server.prefetch, 0, true⟩) :=
        books_modifyQueue fun _ => rfl
      have records : (broker.books.modifyQueue queueId
          (Books.hire server.replicaId ⟨id, server.prefetch, 0, true⟩)).records =
            broker.books.records := Books.records_same fun _ => rfl
      rw [startServer, here]
      apply ih
      · rw [same]
        exact Books.Sound.hire sound (books_queue hqueue) listed
          (modify_new (books_server hserver)) rfl ⟨registered, owned⟩ idle others
      · exact hserver
      · rw [same, Books.Idle, records]
        exact idle
      · exact others
      · intro next mem
        obtain ⟨owned, lists⟩ := found next (mem_cons_of_mem _ mem)
        rw [same]
        exact ⟨owned, lists.modify rfl fun _ _ => ⟨rfl, rfl⟩⟩

lemma sound_start {broker : Broker} {id : ServerId} {names : List String} (sound : broker.Sound [])
    (hserver : broker.servers[id]? = some server) (others : ∀ c ∈ broker.closing, c.server ≠ id)
    (perm : names.Perm server.queueNames) : (broker.start id server names).Sound [] := by
  unfold start
  split
  · exact sound
  rename_i ready
  have prepared : server.status = .prepared := require_ok.mp ready
  have standing := sound.standing (books_server hserver)
  have registered := standing.registered prepared
  have entered : (broker.books.modifyServer id live).Sound broker.closing := by
    refine Books.Sound.modifyServer sound ?_ fun _ => ?_
    · exact sound.balanced.stay ⟨fun _ => rfl, fun _ => rfl, fun _ => rfl, fun _ => rfl⟩
        (fun _ => rfl) fun _ _ mem => mem
    · exact ⟨fun stopped => absurd rfl stopped, nofun, fun _ => nofun, nofun, nofun⟩
  obtain ⟨broker', result, sound'⟩ := sound_startServer entered hserver registered
    (standing.idle (.inr prepared)) others fun name mem =>
      ⟨perm.mem_iff.mp mem,
        standing.names (.inr prepared) registered others name (perm.mem_iff.mp mem)⟩
  rw [result]
  have same : (broker'.setStatus id .running).books = broker'.books.modifyServer id live :=
    books_modifyServer fun _ => rfl
  rw [Sound, same]
  exact sound'

/-! ### Deliveries -/

lemma sound_unseen {broker : Broker} {queueId f} (sound : broker.Sound [])
    (same : ∀ queue, (f queue).book = queue.book) : (broker.modifyQueue queueId f).Sound [] := by
  have queues : (broker.queues.modify queueId f).map Queue.book = broker.queues.map Queue.book :=
    map_modify_same same
  have books : (broker.modifyQueue queueId f).books = broker.books := by
    simp only [Broker.books, modifyQueue, queues]
  rw [Sound, books]
  exact sound

lemma nextConsumer_some {broker : Broker} {replicaId} {consumer : Consumer}
    (h : broker.nextConsumer queue = some (replicaId, consumer)) :
    queue.consumers.lookup replicaId = some consumer ∧
      ∃ server, broker.servers[consumer.server]? = some server ∧
        server.inFlight < server.prefetch := by
  have mem := mem_of_getElem? h
  obtain ⟨mem, free⟩ := mem_filter.mp mem
  obtain ⟨⟨_, _⟩, hentry, eq⟩ := mem_map.mp (Json.mem_sortMembers mem)
  cases eq
  refine ⟨AList.mem_lookup_iff.mpr hentry, ?_⟩
  simp only [Bool.and_eq_true, Option.any_eq_true, decide_eq_true_eq] at free
  exact free.2

lemma books_deliver (broker : Broker) (id : QueueId) (name : String) (cursor : Nat)
    (replicaId : String) (consumer : Consumer) (queued : QueuedPublication)
    (rest : List QueuedPublication) (now : Instant) :
    (broker.deliver id name cursor replicaId consumer queued rest now).books =
      broker.books.put id name replicaId consumer
        ⟨consumer.server, broker.nextDelivery, encodedDelivery queued now
          ((broker.servers[consumer.server]?).bind (·.subscriptions.lookup name)), queued⟩ := by
  unfold deliver books Books.put
  congr 1
  · exact map_modify fun _ => rfl
  · exact map_modify fun _ => rfl

lemma sound_iterate {broker : Broker} {id : QueueId} (now : Instant) (sound : broker.Sound [])
    (hqueue : broker.queues[id]? = some queue) : (broker.iterate id queue now).Sound [] := by
  unfold iterate
  split
  · exact sound_unseen sound fun _ => rfl
  · exact sound_unseen sound fun _ => rfl
  rename_i replicaId consumer queued rest next messages
  split
  · exact sound_unseen sound fun _ => rfl
  · obtain ⟨hconsumer, _, hserver, room⟩ := nextConsumer_some next
    rw [Sound, books_deliver]
    exact Books.Sound.put sound (books_queue hqueue) hconsumer rfl rfl (books_server hserver) room

/-! ### Settlement -/

lemma books_wakeQueues (broker : Broker) (names : List String) :
    (broker.wakeQueues names).books = broker.books := by
  have same : (broker.wakeQueues names).queues.map Queue.book = broker.queues.map Queue.book := by
    rw [wakeQueues, map_map]
    congr 1
    funext queue
    rw [Function.comp_apply]
    split <;> rfl
  unfold books
  rw [same]
  rfl

/-- What a settlement does to the book of its queue. -/
def closeOne (replicaId : String) (delivery : DeliveryId) (queue : QueueBook) : QueueBook :=
  { queue with
    deliveries := queue.deliveries.eraseP (·.delivery = delivery)
    consumers := match queue.consumers.lookup replicaId with
      | none => queue.consumers
      | some consumer =>
        queue.consumers.insert replicaId { consumer with inFlight := consumer.inFlight - 1 } }

/-- What a settlement does to the book of its server. -/
def forgetOne (delivery : DeliveryId) (server : ServerBook) : ServerBook :=
  { server with
    deliveryQueues := server.deliveryQueues.erase delivery
    inFlight := server.inFlight - 1 }

lemma books_settleRecord (limits : BrokerLimits) (broker : Broker) (id : ServerId) (server : Server)
    (queueId : QueueId) (queue : Queue) (record : DeliveryRecord)
    (outcome : SettlementRecommendation) :
    (broker.settleRecord limits id server queueId queue record outcome).books =
      broker.books.take queueId (closeOne server.replicaId record.delivery) id
        (forgetOne record.delivery) [record.delivery] := by
  unfold settleRecord
  rw [books_wakeQueues]
  unfold books Books.take
  congr 1
  · exact map_modify fun _ => rfl
  · exact map_modify fun _ => rfl

lemma settled_own {broker : Broker} {id : ServerId} {delivery} {queueId : QueueId}
    (balanced : broker.books.Balanced) (hserver : broker.servers[id]? = some server)
    (remembered : server.deliveryQueues.lookup delivery = some name)
    (hqueue : broker.queues[queueId]? = some queue) (mem : record ∈ queue.deliveries)
    (same : record.delivery = delivery) : record.server = id := by
  obtain ⟨own, hown, owner, eq⟩ := balanced.remembered (books_server hserver) remembered
  have mem' : record ∈ broker.books.records :=
    Books.mem_records.mpr ⟨queueId, queue.book, books_queue hqueue, mem⟩
  have unique : record = own :=
    inj_on_of_nodup_map balanced.deliveries.1 mem' hown (same.trans eq.symm)
  rw [unique]
  exact owner

/-- A consumer of a queue is one of a server that has a record there just if it is under the
replica identifier of the server. -/
lemma consumer_own {books : Books} (balanced : books.Balanced) {queueId : QueueId}
    {queue : QueueBook} {server : ServerBook} {replicaId} {consumer : Consumer}
    (hqueue : books.queues[queueId]? = some queue) (mem : record ∈ queue.deliveries)
    (hserver : books.servers[record.server]? = some server)
    (hconsumer : queue.consumers.lookup replicaId = some consumer) :
    consumer.server = record.server ↔ replicaId = server.replicaId := by
  obtain ⟨-, -, _, howner, owns, replica⟩ := balanced.consumer hqueue hconsumer
  obtain ⟨-, _, hserver', owns', -⟩ := balanced.record hqueue mem
  cases hserver.symm.trans hserver'
  constructor
  · intro same
    rw [same, hserver] at howner
    cases howner
    exact replica.symm
  · intro same
    exact balanced.replicas howner hserver owns.1 owns'.1 (replica.trans same)

lemma taken_closeOne {books : Books} (balanced : books.Balanced) {queueId : QueueId}
    {queue : QueueBook} {server : ServerBook} (hqueue : books.queues[queueId]? = some queue)
    (hserver : books.servers[record.server]? = some server)
    (found : queue.deliveries.find? (·.delivery = record.delivery) = some record) :
    Books.Taken record.server [record] queue (closeOne server.replicaId record.delivery queue) where
  name := rfl
  listed := rfl
  deliveries := perm_eraseP found
  server := by
    intro other mem
    rw [mem_singleton.mp mem]
  consumers := by
    intro replicaId consumer' h
    have mem := mem_of_find?_eq_some found
    have own : ∀ {key consumer},
        queue.consumers.lookup key = some consumer →
          (consumer.server = record.server ↔ key = server.replicaId) :=
      consumer_own balanced hqueue mem hserver
    unfold closeOne at h
    dsimp only at h
    split at h
    · rename_i absent
      refine ⟨consumer', h, rfl, ?_⟩
      rw [if_neg]
      · exact (Int.sub_zero _).symm
      · intro same
        rw [(own h).mp same, absent] at h
        cases h
    · rename_i consumer present
      rcases Dict.insert_cases h with ⟨key, rfl⟩ | ⟨key, h⟩
      · rw [key]
        refine ⟨consumer, present, rfl, ?_⟩
        rw [if_pos ((own present).mpr rfl)]
        rfl
      · refine ⟨consumer', h, rfl, ?_⟩
        rw [if_neg fun same => key ((own h).mp same)]
        exact (Int.sub_zero _).symm

lemma forgotten_forgetOne (record : DeliveryRecord) (server : ServerBook) :
    Books.Forgotten [record] server (forgetOne record.delivery server) where
  replicaId := rfl
  prefetch := rfl
  status := rfl
  registered := rfl
  queueNames := rfl
  deliveryQueues := by
    intro delivery
    rw [map_singleton, forgetOne, Dict.lookup_erase_ite]
    simp only [mem_singleton]
  inFlight := rfl

lemma closing_settleRecord (limits : BrokerLimits) (broker : Broker) (id : ServerId)
    (server : Server) (queueId : QueueId) (queue : Queue) (record : DeliveryRecord)
    (outcome : SettlementRecommendation) :
    (broker.settleRecord limits id server queueId queue record outcome).closing = broker.closing :=
  rfl

lemma sound_settle {broker : Broker} {id : ServerId} {delivery outcome} (sound : broker.Sound [])
    (hserver : broker.servers[id]? = some server)
    (h : broker.settle limits id server delivery outcome = .ok broker') : broker'.Sound [] := by
  obtain ⟨_, _, _, record, remembered, -, hqueue, found, rfl⟩ := settle_ok h
  have same : record.delivery = delivery := by simpa using find?_some found
  have mem := mem_of_find?_eq_some found
  subst same
  have own : record.server = id :=
    settled_own sound.balanced hserver remembered hqueue mem rfl
  subst own
  rw [Sound, books_settleRecord, closing_settleRecord]
  refine Books.Sound.take sound (books_queue hqueue) (books_server hserver)
    (taken_closeOne sound.balanced (books_queue hqueue) (books_server hserver) found)
    (forgotten_forgetOne record _) (nodup_singleton _) ?_
  intro delivery mem
  rw [mem_singleton.mp mem]
  exact mem_singleton_self _

lemma sound_unseen_server {broker : Broker} {id f} (sound : broker.Sound [])
    (same : ∀ server, (f server).book = server.book) : (broker.modifyServer id f).Sound [] := by
  have servers : (broker.servers.modify id f).map Server.book = broker.servers.map Server.book :=
    map_modify_same same
  have books : (broker.modifyServer id f).books = broker.books := by
    simp only [Broker.books, modifyServer, servers]
  rw [Sound, books]
  exact sound

lemma sound_dispatched {broker : Broker} {id : ServerId} (sound : broker.Sound [])
    (hserver : broker.servers[id]? = some server) (delivery : DeliveryId)
    (encoded : EncodedDelivery) (result : DispatchResult) :
    (broker.dispatched limits id server delivery encoded result).Sound [] := by
  unfold dispatched
  dsimp only
  apply sound_unseen_server
  · split
    · exact sound
    · split
      · rename_i settled h
        exact sound_settle sound hserver h
      · exact sound
  · intro server
    rfl

end Broker

end ToriPy.Microservices
