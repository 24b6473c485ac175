import ToriPy.Base.Table
import ToriPy.Microservices.Broker

/-!
# The books of the broker

What the broker keeps of its deliveries: the records in the queues, the counters of the servers and
of the consumers, and the queue that a server remembers for each delivery. The messages, the loops
and the tables of routes are left out, so that most methods do not touch the books at all and the
others are one of ten entries.

The books are `Balanced` when the records, the counters and what the servers remember agree. Each
entry keeps them balanced under a condition; the methods of the broker are shown to meet these
conditions in `Microservices/Settlement.lean`.
-/

namespace ToriPy.Microservices

open List

/-- A queue in the books. -/
structure QueueBook where
  name : String
  listed : Bool := true
  deliveries : List DeliveryRecord := []
  consumers : Dict String Consumer := ∅

/-- The queue has a record or a consumer of the server. -/
def QueueBook.Involves (queue : QueueBook) (server : ServerId) : Prop :=
  (∃ record ∈ queue.deliveries, record.server = server) ∨
    ∃ replicaId consumer, queue.consumers.lookup replicaId = some consumer ∧
      consumer.server = server

/-- The other queue has the name of this one, and is listed only if this one is. -/
def QueueBook.Named (queue other : QueueBook) : Prop :=
  other.name = queue.name ∧ (other.listed = true → queue.listed = true)

/-- A server in the books. -/
structure ServerBook where
  replicaId : String
  prefetch : Nat
  status : TransportStatus := .created
  registered : Bool := false
  queueNames : List String := []
  deliveryQueues : Dict DeliveryId String := ∅
  inFlight : Int := 0

/-- The server is registered for the queues of a name. -/
def ServerBook.Owns (server : ServerBook) (name : String) : Prop :=
  server.registered = true ∧ name ∈ server.queueNames

/-- The books. -/
structure Books where
  queues : List QueueBook := []
  servers : List ServerBook := []
  ephemeralQueues : List String := []
  nextDelivery : DeliveryId := 0
  settlements : List DeliveryId := []

namespace Books

def records (books : Books) : List DeliveryRecord := books.queues.flatMap (·.deliveries)

def Unlisted (books : Books) (name : String) : Prop :=
  ∀ {id : QueueId} {queue : QueueBook}, books.queues[id]? = some queue → queue.listed = true →
    queue.name ≠ name

def Quiet (books : Books) (server : ServerId) : Prop :=
  ∀ {id : QueueId} {queue : QueueBook} {replicaId : String} {consumer : Consumer},
    books.queues[id]? = some queue → queue.consumers.lookup replicaId = some consumer →
      consumer.server ≠ server

/-- The records, the counters and what the servers remember agree. -/
structure Balanced (books : Books) : Prop where
  names : ∀ {i j : QueueId} {queue queue' : QueueBook}, books.queues[i]? = some queue →
    books.queues[j]? = some queue' → queue.listed = true → queue'.listed = true →
      queue.name = queue'.name → i = j
  replicas : ∀ {i j : ServerId} {server server' : ServerBook}, books.servers[i]? = some server →
    books.servers[j]? = some server' → server.registered = true → server'.registered = true →
      server.replicaId = server'.replicaId → i = j
  record : ∀ {id : QueueId} {queue : QueueBook} {record : DeliveryRecord},
    books.queues[id]? = some queue → record ∈ queue.deliveries → queue.listed = true ∧
      ∃ server, books.servers[record.server]? = some server ∧ server.Owns queue.name ∧
        server.deliveryQueues.lookup record.delivery = some queue.name
  deliveries : (books.records.map (·.delivery)).Nodup ∧
    ∀ record ∈ books.records, record.delivery < books.nextDelivery
  remembered : ∀ {id : ServerId} {server : ServerBook} {delivery : DeliveryId} {name : String},
    books.servers[id]? = some server → server.deliveryQueues.lookup delivery = some name →
      ∃ record ∈ books.records, record.server = id ∧ record.delivery = delivery
  inFlight : ∀ {id : ServerId} {server : ServerBook}, books.servers[id]? = some server →
    server.inFlight = books.records.countP (·.server = id) ∧ server.inFlight ≤ server.prefetch
  consumer : ∀ {id : QueueId} {queue : QueueBook} {replicaId : String} {consumer : Consumer},
    books.queues[id]? = some queue → queue.consumers.lookup replicaId = some consumer →
      queue.listed = true ∧ consumer.inFlight = queue.deliveries.countP (·.server = consumer.server) ∧
        ∃ server, books.servers[consumer.server]? = some server ∧ server.Owns queue.name ∧
          server.replicaId = replicaId
  settled : books.settlements.Nodup ∧ ∀ delivery ∈ books.settlements,
    delivery < books.nextDelivery ∧ ∀ record ∈ books.records, record.delivery ≠ delivery

lemma balanced_empty : Balanced {} := by
  have noRecord : ∀ record, record ∉ records {} := fun _ => not_mem_nil
  constructor
  · simp
  · simp
  · simp
  · exact ⟨nodup_nil, fun record mem => absurd mem (noRecord record)⟩
  · simp
  · simp
  · simp
  · exact ⟨nodup_nil, fun delivery mem => absurd mem not_mem_nil⟩

/-! ### Changes of servers -/

def modifyServer (books : Books) (id : ServerId) (f : ServerBook → ServerBook) : Books :=
  { books with servers := books.servers.modify id f }

/-- A change of a server that keeps what it remembers and what it counts. -/
structure Keeps (f : ServerBook → ServerBook) : Prop where
  replicaId : ∀ server, (f server).replicaId = server.replicaId
  prefetch : ∀ server, (f server).prefetch = server.prefetch
  deliveryQueues : ∀ server, (f server).deliveryQueues = server.deliveryQueues
  inFlight : ∀ server, (f server).inFlight = server.inFlight

variable {books : Books} {f : ServerBook → ServerBook}

/-- Such changes keep the books balanced if no record and no consumer loses its owner, and
registered servers still differ. -/
lemma Balanced.mapServers (balanced : books.Balanced) {servers : List ServerBook}
    {f : ServerId → ServerBook → ServerBook}
    (changed : ∀ id, servers[id]? = (books.servers[id]?).map (f id)) (keeps : ∀ id, Keeps (f id))
    (owners : ∀ {id : ServerId} {server} {queueId : QueueId} {queue},
      books.servers[id]? = some server → books.queues[queueId]? = some queue →
      queue.listed = true → queue.Involves id → server.Owns queue.name →
        (f id server).Owns queue.name)
    (replicas : ∀ {i j : ServerId} {server server'},
      books.servers[i]? = some server → books.servers[j]? = some server' →
      (f i server).registered = true → (f j server').registered = true →
        server.replicaId = server'.replicaId → i = j) : { books with servers }.Balanced := by
  have back : ∀ {id : ServerId} {server}, servers[id]? = some server →
      ∃ old, books.servers[id]? = some old ∧ f id old = server := by
    intro id server h
    rw [changed] at h
    exact Option.map_eq_some_iff.mp h
  have now : ∀ {id : ServerId} {server}, books.servers[id]? = some server →
      servers[id]? = some (f id server) := by
    intro id server h
    rw [changed, h]
    rfl
  refine ⟨balanced.names, ?_, ?_, balanced.deliveries, ?_, ?_, ?_, balanced.settled⟩
  · intro i j server server' h h' registered registered' same
    obtain ⟨old, hi, rfl⟩ := back h
    obtain ⟨old', hj, rfl⟩ := back h'
    rw [(keeps i).replicaId, (keeps j).replicaId] at same
    exact replicas hi hj registered registered' same
  · intro queueId queue record hqueue mem
    obtain ⟨listed, server, hserver, owns, remembered⟩ := balanced.record hqueue mem
    refine ⟨listed, _, now hserver, owners hserver hqueue listed (.inl ⟨record, mem, rfl⟩) owns, ?_⟩
    rw [(keeps _).deliveryQueues]
    exact remembered
  · intro id server delivery name h remembered
    obtain ⟨old, hserver, rfl⟩ := back h
    rw [(keeps id).deliveryQueues] at remembered
    exact balanced.remembered hserver remembered
  · intro id server h
    obtain ⟨old, hserver, rfl⟩ := back h
    rw [(keeps id).inFlight, (keeps id).prefetch]
    exact balanced.inFlight hserver
  · intro queueId queue replicaId consumer hqueue hconsumer
    obtain ⟨listed, count, server, hserver, owns, same⟩ := balanced.consumer hqueue hconsumer
    exact ⟨listed, count, _, now hserver, owners hserver hqueue listed
      (.inr ⟨replicaId, consumer, hconsumer, rfl⟩) owns, ((keeps _).replicaId server).trans same⟩

lemma Balanced.modifyServer (balanced : books.Balanced) {id : ServerId} (keeps : Keeps f)
    (owners : ∀ {server} {queueId : QueueId} {queue},
      books.servers[id]? = some server → books.queues[queueId]? = some queue →
      queue.Involves id → server.Owns queue.name → (f server).Owns queue.name)
    (replicas : ∀ {server server'} {other : ServerId},
      books.servers[id]? = some server → (f server).registered = true → other ≠ id →
      books.servers[other]? = some server' → server'.registered = true →
        server'.replicaId ≠ server.replicaId) : (books.modifyServer id f).Balanced := by
  refine balanced.mapServers (fun k => getElem?_modify f id _ k) ?_ ?_ ?_
  · intro k
    by_cases same : id = k
    · simpa only [same, if_true] using keeps
    · simp only [same, if_false]
      exact ⟨fun _ => rfl, fun _ => rfl, fun _ => rfl, fun _ => rfl⟩
  · intro k server queueId queue hserver hqueue _ involved owns
    split
    · subst k
      exact owners hserver hqueue involved owns
    · exact owns
  · intro i j server server' hi hj registered registered' same
    by_contra ne
    split at registered
    · subst i
      rw [if_neg ne] at registered'
      exact replicas hi registered (Ne.symm ne) hj registered' same.symm
    split at registered'
    · subst j
      exact replicas hj registered' ne hi registered same
    · exact ne (balanced.replicas hi hj registered registered' same)

/-- The server is registered as before and remembers the same of the other deliveries. -/
structure Alike (deliveries : List DeliveryId) (server server' : ServerBook) : Prop where
  replicaId : server'.replicaId = server.replicaId
  registered : server'.registered = server.registered
  queueNames : server'.queueNames = server.queueNames
  deliveryQueues : ∀ delivery ∉ deliveries,
    server'.deliveryQueues.lookup delivery = server.deliveryQueues.lookup delivery

lemma Alike.refl (deliveries : List DeliveryId) (server : ServerBook) :
    Alike deliveries server server :=
  ⟨rfl, rfl, rfl, fun _ _ => rfl⟩

lemma Alike.owns {deliveries server server' name} (alike : Alike deliveries server server')
    (owns : server.Owns name) : server'.Owns name :=
  ⟨alike.registered.trans owns.1, alike.queueNames ▸ owns.2⟩

lemma Balanced.replicas_modify (balanced : books.Balanced) {id : ServerId} {deliveries}
    (alike : ∀ {server}, books.servers[id]? = some server → Alike deliveries server (f server))
    {i j : ServerId} {server server'} (h : (books.servers.modify id f)[i]? = some server)
    (h' : (books.servers.modify id f)[j]? = some server') (registered : server.registered = true)
    (registered' : server'.registered = true) (same : server.replicaId = server'.replicaId) :
    i = j := by
  obtain ⟨_, hi, old⟩ := rel_before (rel_modify (Alike.refl deliveries) alike _) h
  obtain ⟨_, hj, old'⟩ := rel_before (rel_modify (Alike.refl deliveries) alike _) h'
  rw [old.registered] at registered
  rw [old'.registered] at registered'
  rw [old.replicaId, old'.replicaId] at same
  exact balanced.replicas hi hj registered registered' same

lemma mem_records {record} :
    record ∈ books.records ↔ ∃ (id : QueueId) (queue : QueueBook),
      books.queues[id]? = some queue ∧ record ∈ queue.deliveries := by
  rw [records, mem_flatMap]
  constructor
  · rintro ⟨queue, hqueue, mem⟩
    obtain ⟨id, hid⟩ := mem_iff_getElem?.mp hqueue
    exact ⟨id, queue, hid, mem⟩
  · rintro ⟨_, queue, hid, mem⟩
    exact ⟨queue, mem_of_getElem? hid, mem⟩

def addServer (books : Books) (server : ServerBook) : Books :=
  { books with servers := books.servers ++ [server] }

lemma Balanced.addServer (balanced : books.Balanced) (replicaId : String)
    (prefetch : Nat) : (books.addServer { replicaId, prefetch }).Balanced where
  __ := balanced
  replicas := by
    intro i j server server' hi hj registered registered' same
    rcases concat_cases hi with hi | ⟨-, rfl⟩
    · rcases concat_cases hj with hj | ⟨-, rfl⟩
      · exact balanced.replicas hi hj registered registered' same
      · cases registered'
    · cases registered
  record := by
    intro id queue record hqueue mem
    obtain ⟨listed, server, hserver, rest⟩ := balanced.record hqueue mem
    exact ⟨listed, server, concat_old hserver, rest⟩
  remembered := by
    intro id server delivery name hserver remembered
    rcases concat_cases hserver with hserver | ⟨-, rfl⟩
    · exact balanced.remembered hserver remembered
    · cases remembered
  inFlight := by
    intro id server hserver
    rcases concat_cases hserver with hserver | ⟨rfl, rfl⟩
    · exact balanced.inFlight hserver
    -- The records are those of servers that were there before.
    have none : books.records.countP (·.server = books.servers.length) = 0 := by
      rw [countP_eq_zero]
      intro record mem
      obtain ⟨_, _, hqueue, mem⟩ := mem_records.mp mem
      obtain ⟨-, server, hserver, -⟩ := balanced.record hqueue mem
      have := (List.getElem?_eq_some_iff.mp hserver).1
      simp only [decide_eq_true_eq]
      omega
    refine ⟨?_, ?_⟩
    · change (0 : Int) = (books.records.countP (·.server = books.servers.length) : Nat)
      rw [none]
      rfl
    · exact Int.natCast_nonneg prefetch
  consumer := by
    intro id queue replicaId consumer hqueue hconsumer
    obtain ⟨listed, count, server, hserver, rest⟩ := balanced.consumer hqueue hconsumer
    exact ⟨listed, count, server, concat_old hserver, rest⟩

def disown (name : String) (server : ServerBook) : ServerBook :=
  if server.registered then { server with queueNames := server.queueNames.erase name } else server

lemma Balanced.leave (balanced : books.Balanced) {id} (keeps : Keeps f)
    (left : ∀ server, (f server).registered = false) (quiet : books.Quiet id)
    (none : ∀ record ∈ books.records, record.server ≠ id) : (books.modifyServer id f).Balanced := by
  refine balanced.modifyServer keeps ?_ ?_
  · rintro server queueId queue _ hqueue (⟨record, mem, same⟩ | ⟨_, _, h, same⟩) _
    · exact absurd same (none record (mem_records.mpr ⟨queueId, queue, hqueue, mem⟩))
    · exact absurd same (quiet hqueue h)
  · intro server server' other _ registered
    rw [left] at registered
    cases registered

lemma Balanced.stay (balanced : books.Balanced) {id} (keeps : Keeps f)
    (registered : ∀ server, (f server).registered = server.registered)
    (names : ∀ server, ∀ name ∈ server.queueNames, name ∈ (f server).queueNames) :
    (books.modifyServer id f).Balanced := by
  refine balanced.modifyServer keeps ?_ ?_
  · intro server queueId queue _ _ _ owns
    exact ⟨(registered server).trans owns.1, names server _ owns.2⟩
  · intro server server' other hserver now ne hother registered' same
    rw [registered] at now
    exact ne (balanced.replicas hother hserver registered' now same)

lemma Balanced.disown (balanced : books.Balanced) {name : String} (unlisted : books.Unlisted name) :
    { books with servers := books.servers.map (Books.disown name) }.Balanced := by
  have registered : ∀ server, (Books.disown name server).registered = server.registered := by
    intro server
    unfold Books.disown
    split <;> rfl
  have keeps : Keeps (Books.disown name) := by
    constructor
    all_goals
      intro server
      unfold Books.disown
      split <;> rfl
  refine balanced.mapServers (fun _ => getElem?_map) (fun _ => keeps) ?_ ?_
  · intro id server queueId queue _ hqueue listed _ owns
    refine ⟨(registered server).trans owns.1, ?_⟩
    rw [Books.disown, if_pos owns.1]
    exact (mem_erase_of_ne (unlisted hqueue listed)).mpr owns.2
  · intro i j server server' hi hj
    rw [registered, registered]
    exact balanced.replicas hi hj

/-! ### Changes of queues -/

def addQueue (books : Books) (name : String) : Books :=
  { books with queues := books.queues ++ [{ name }] }

lemma Balanced.addQueue (balanced : books.Balanced) {name}
    (unlisted : books.Unlisted name) : (books.addQueue name).Balanced := by
  have records : (books.addQueue name).records = books.records := by
    simp [Books.records, Books.addQueue]
  refine ⟨?_, balanced.replicas, ?_, records ▸ balanced.deliveries, records ▸ balanced.remembered,
    records ▸ balanced.inFlight, ?_, records ▸ balanced.settled⟩
  · intro i j queue queue' h h' listed listed' same
    rcases concat_cases h with hi | ⟨rfl, rfl⟩
    · rcases concat_cases h' with hj | ⟨rfl, rfl⟩
      · exact balanced.names hi hj listed listed' same
      · exact absurd same (unlisted hi listed)
    · rcases concat_cases h' with hj | ⟨rfl, rfl⟩
      · exact absurd same.symm (unlisted hj listed')
      · rfl
  · intro id queue record h mem
    rcases concat_cases h with hqueue | ⟨-, rfl⟩
    · exact balanced.record hqueue mem
    · exact absurd mem not_mem_nil
  · intro id queue replicaId consumer h hconsumer
    rcases concat_cases h with hqueue | ⟨-, rfl⟩
    · exact balanced.consumer hqueue hconsumer
    · cases hconsumer

def modifyQueue (books : Books) (id : QueueId) (f : QueueBook → QueueBook) : Books :=
  { books with queues := books.queues.modify id f }

variable {queue : QueueBook} {id : QueueId} {record : DeliveryRecord} {taken : List DeliveryRecord}

lemma records_modifyQueue (f : QueueBook → QueueBook) (h : books.queues[id]? = some queue) :
    ∃ rest, books.records.Perm (queue.deliveries ++ rest) ∧
      (books.modifyQueue id f).records.Perm ((f queue).deliveries ++ rest) := by
  refine ⟨(books.queues.eraseIdx id).flatMap QueueBook.deliveries, ?_, ?_⟩
  · exact (perm_eraseIdx h).flatMap_right QueueBook.deliveries
  · exact (perm_modify h).flatMap_right QueueBook.deliveries

lemma records_same {f} (same : ∀ queue, (f queue).deliveries = queue.deliveries) :
    (books.modifyQueue id f).records = books.records := by
  unfold records
  rw [flatMap_def, flatMap_def]
  congr 1
  exact map_modify_same same

lemma Balanced.names_modifyQueue (balanced : books.Balanced) {f : QueueBook → QueueBook}
    {i j : QueueId} {queue'} (h : (books.queues.modify id f)[i]? = some queue)
    (h' : (books.queues.modify id f)[j]? = some queue')
    (named : ∀ {queue}, books.queues[id]? = some queue → queue.Named (f queue))
    (listed : queue.listed = true) (listed' : queue'.listed = true)
    (same : queue.name = queue'.name) : i = j := by
  have refl : ∀ queue : QueueBook, queue.Named queue := fun _ => ⟨rfl, fun listed => listed⟩
  obtain ⟨_, hi, name, was⟩ := rel_before (rel_modify refl named _) h
  obtain ⟨_, hj, name', was'⟩ := rel_before (rel_modify refl named _) h'
  rw [name, name'] at same
  exact balanced.names hi hj (was listed) (was' listed') same

lemma Balanced.modifyConsumers (balanced : books.Balanced)
    {f : Dict String Consumer → Dict String Consumer}
    (consumer : ∀ {queue replicaId consumer},
      books.queues[id]? = some queue → (f queue.consumers).lookup replicaId = some consumer →
        queue.listed = true ∧
          consumer.inFlight = queue.deliveries.countP (·.server = consumer.server) ∧
          ∃ server, books.servers[consumer.server]? = some server ∧ server.Owns queue.name ∧
            server.replicaId = replicaId) :
    (books.modifyQueue id fun queue => { queue with consumers := f queue.consumers }).Balanced := by
  have records : (books.modifyQueue id fun queue =>
      { queue with consumers := f queue.consumers }).records = books.records :=
    records_same fun _ => rfl
  refine ⟨?_, balanced.replicas, ?_, records ▸ balanced.deliveries, records ▸ balanced.remembered,
    records ▸ balanced.inFlight, ?_, records ▸ balanced.settled⟩
  · intro i j queue queue' h h'
    exact balanced.names_modifyQueue h h' fun _ => ⟨rfl, fun listed => listed⟩
  · intro queueId queue record h mem
    rcases modify_cases h with ⟨-, hqueue⟩ | ⟨-, old, hqueue, rfl⟩
    · exact balanced.record hqueue mem
    · obtain ⟨listed, owner⟩ := balanced.record hqueue mem
      exact ⟨listed, owner⟩
  · intro queueId queue replicaId member h hconsumer
    rcases modify_cases h with ⟨-, hqueue⟩ | ⟨rfl, _, hqueue, rfl⟩
    · exact balanced.consumer hqueue hconsumer
    · obtain ⟨listed, count, owner⟩ := consumer hqueue hconsumer
      exact ⟨listed, count, owner⟩

def unlist (queue : QueueBook) : QueueBook := { queue with listed := false }

lemma Balanced.unlist (balanced : books.Balanced)
    (empty : ∀ {queue}, books.queues[id]? = some queue →
      queue.deliveries = [] ∧ ∀ replicaId, queue.consumers.lookup replicaId = none) :
    (books.modifyQueue id Books.unlist).Balanced := by
  have records : (books.modifyQueue id Books.unlist).records = books.records :=
    records_same fun _ => rfl
  refine ⟨?_, balanced.replicas, ?_, records ▸ balanced.deliveries, records ▸ balanced.remembered,
    records ▸ balanced.inFlight, ?_, records ▸ balanced.settled⟩
  · intro i j queue queue' h h'
    exact balanced.names_modifyQueue h h' fun _ => ⟨rfl, fun listed => nomatch listed⟩
  · intro queueId queue record h mem
    rcases modify_cases h with ⟨-, hqueue⟩ | ⟨rfl, old, hqueue, rfl⟩
    · exact balanced.record hqueue mem
    · rw [Books.unlist, (empty hqueue).1] at mem
      exact absurd mem not_mem_nil
  · intro queueId queue replicaId consumer h hconsumer
    rcases modify_cases h with ⟨-, hqueue⟩ | ⟨rfl, _, hqueue, rfl⟩
    · exact balanced.consumer hqueue hconsumer
    · rw [Books.unlist, (empty hqueue).2] at hconsumer
      cases hconsumer

/-! ### Deliveries -/

def enter (replicaId : String) (consumer : Consumer) (record : DeliveryRecord)
    (queue : QueueBook) : QueueBook :=
  { queue with
    deliveries := queue.deliveries ++ [record]
    consumers := queue.consumers.insert replicaId
      { consumer with inFlight := consumer.inFlight + 1 } }

def remember (delivery : DeliveryId) (name : String) (server : ServerBook) : ServerBook :=
  { server with
    inFlight := server.inFlight + 1
    deliveryQueues := server.deliveryQueues.insert delivery name }

def put (books : Books) (id : QueueId) (name : String) (replicaId : String) (consumer : Consumer)
    (record : DeliveryRecord) : Books where
  queues := books.queues.modify id (enter replicaId consumer record)
  servers := books.servers.modify record.server (remember record.delivery name)
  ephemeralQueues := books.ephemeralQueues
  nextDelivery := books.nextDelivery + 1
  settlements := books.settlements

lemma Balanced.put (balanced : books.Balanced) {replicaId : String} {consumer server}
    (hqueue : books.queues[id]? = some queue)
    (hconsumer : queue.consumers.lookup replicaId = some consumer)
    (hrecord : record.server = consumer.server) (fresh : record.delivery = books.nextDelivery)
    (hserver : books.servers[record.server]? = some server)
    (room : server.inFlight < server.prefetch) :
    (books.put id queue.name replicaId consumer record).Balanced := by
  obtain ⟨listed, count, server', hserver', owns, same⟩ := balanced.consumer hqueue hconsumer
  rw [← hrecord] at hserver'
  cases hserver.symm.trans hserver'
  have perm : (books.put id queue.name replicaId consumer record).records.Perm
      (record :: books.records) := by
    obtain ⟨rest, before, after⟩ := records_modifyQueue (enter replicaId consumer record) hqueue
    refine after.trans ?_
    refine List.Perm.trans ?_ ((before.cons record).symm)
    change ((queue.deliveries ++ [record]) ++ rest).Perm _
    rw [append_assoc]
    exact perm_middle
  have old : ∀ r ∈ books.records, r.delivery ≠ record.delivery := by
    intro r mem
    rw [fresh]
    exact Nat.ne_of_lt (balanced.deliveries.2 r mem)
  have alike : ∀ {server}, books.servers[record.server]? = some server →
      Alike [record.delivery] server (remember record.delivery queue.name server) := by
    intro server _
    refine ⟨rfl, rfl, rfl, fun delivery other => ?_⟩
    rw [remember, Dict.lookup_insert_ite, if_neg (mt mem_singleton.mpr other)]
  refine ⟨?_, ?_, ?_, ⟨?_, ?_⟩, ?_, ?_, ?_, balanced.settled.1, ?_⟩
  · intro i j q q' h h'
    exact balanced.names_modifyQueue h h' fun _ => ⟨rfl, fun listed => listed⟩
  · exact balanced.replicas_modify alike
  · -- The new record is remembered by its server, and the others still are.
    have kept : ∀ {k : QueueId} {q : QueueBook} {r : DeliveryRecord},
        books.queues[k]? = some q → r ∈ q.deliveries → q.listed = true ∧
          ∃ s, (books.servers.modify record.server (remember record.delivery queue.name))[r.server]? =
            some s ∧ s.Owns q.name ∧ s.deliveryQueues.lookup r.delivery = some q.name := by
      intro k q r hq mem
      obtain ⟨hl, s, hs, owned, remembered⟩ := balanced.record hq mem
      obtain ⟨s', hs', same⟩ := rel_after (rel_modify (Alike.refl _) alike _) hs
      have other := mt mem_singleton.mp (old r (mem_records.mpr ⟨k, q, hq, mem⟩))
      exact ⟨hl, s', hs', same.owns owned, (same.deliveryQueues _ other).trans remembered⟩
    intro k q r h mem
    rcases modify_cases h with ⟨-, hq⟩ | ⟨rfl, q', hq, rfl⟩
    · exact kept hq mem
    cases hqueue.symm.trans hq
    rcases mem_snoc.mp mem with mem | rfl
    · obtain ⟨hl, owner⟩ := kept hqueue mem
      exact ⟨hl, owner⟩
    · refine ⟨listed, _, modify_new hserver, owns, ?_⟩
      rw [remember, Dict.lookup_insert_ite, if_pos rfl]
      rfl
  · rw [(perm.map (·.delivery)).nodup_iff, map_cons, nodup_cons]
    refine ⟨?_, balanced.deliveries.1⟩
    intro mem
    obtain ⟨r, hr, eq⟩ := mem_map.mp mem
    exact old r hr eq
  · intro r mem
    change r.delivery < books.nextDelivery + 1
    rcases mem_cons.mp (perm.mem_iff.mp mem) with rfl | mem
    · exact Nat.lt_succ_of_le (Nat.le_of_eq fresh)
    · exact Nat.lt_succ_of_lt (balanced.deliveries.2 r mem)
  · intro k s delivery n h remembered
    rcases modify_cases h with ⟨-, hs⟩ | ⟨rfl, s', hs, rfl⟩
    · obtain ⟨r, mem, rest⟩ := balanced.remembered hs remembered
      exact ⟨r, perm.mem_iff.mpr (mem_cons_of_mem _ mem), rest⟩
    rcases Dict.insert_cases remembered with ⟨eq, -⟩ | ⟨-, remembered⟩
    · exact ⟨record, perm.mem_iff.mpr mem_cons_self, rfl, eq.symm⟩
    · obtain ⟨r, mem, rest⟩ := balanced.remembered hs remembered
      exact ⟨r, perm.mem_iff.mpr (mem_cons_of_mem _ mem), rest⟩
  · intro k s h
    rw [perm.countP_eq, countP_cons]
    rcases modify_cases h with ⟨ne, hs⟩ | ⟨rfl, s', hs, rfl⟩
    · rw [if_neg (by simpa using ne)]
      exact balanced.inFlight hs
    · cases hserver.symm.trans hs
      obtain ⟨eq, le⟩ := balanced.inFlight hserver
      simp only [remember, decide_true, ↓reduceIte]
      omega
  · intro k q ρ c h hc
    have owner : ∀ {c : Consumer} {q : QueueBook} {ρ : String}, (∃ s, books.servers[c.server]? =
        some s ∧ s.Owns q.name ∧ s.replicaId = ρ) →
          ∃ s, (books.servers.modify record.server
            (remember record.delivery queue.name))[c.server]? = some s ∧ s.Owns q.name ∧
              s.replicaId = ρ := by
      rintro c q ρ ⟨s, hs, owned, rep⟩
      obtain ⟨s', hs', same⟩ := rel_after (rel_modify (Alike.refl _) alike _) hs
      exact ⟨s', hs', same.owns owned, same.replicaId.trans rep⟩
    rcases modify_cases h with ⟨-, hq⟩ | ⟨rfl, q', hq, rfl⟩
    · obtain ⟨hl, number, own⟩ := balanced.consumer hq hc
      exact ⟨hl, number, owner own⟩
    cases hqueue.symm.trans hq
    simp only [enter, countP_append, countP_singleton]
    rcases Dict.insert_cases hc with ⟨rfl, rfl⟩ | ⟨ne, hc⟩
    · refine ⟨listed, ?_, owner ⟨server, hrecord ▸ hserver, owns, same⟩⟩
      simp only [hrecord, decide_true, ↓reduceIte]
      omega
    · obtain ⟨hl, number, s, hs, owned, rep⟩ := balanced.consumer hqueue hc
      refine ⟨hl, ?_, owner ⟨s, hs, owned, rep⟩⟩
      -- Another consumer of the queue is one of another server.
      have other : record.server ≠ c.server := by
        intro eq
        rw [← eq, hserver] at hs
        cases hs
        exact ne (rep.symm.trans same)
      rw [if_neg (by simpa using other)]
      exact number
  · intro delivery mem
    obtain ⟨lt, absent⟩ := balanced.settled.2 delivery mem
    refine ⟨Nat.lt_succ_of_lt lt, ?_⟩
    intro r hr
    rcases mem_cons.mp (perm.mem_iff.mp hr) with rfl | hr
    · exact fun eq => Nat.lt_irrefl _ ((fresh.symm.trans eq) ▸ lt)
    · exact absent r hr

/-- Deliveries of a server leave a queue; a consumer of the server counts them down, if it stays. -/
structure Taken (id : ServerId) (taken : List DeliveryRecord) (queue queue' : QueueBook) :
    Prop where
  name : queue'.name = queue.name
  listed : queue'.listed = queue.listed
  deliveries : queue.deliveries.Perm (taken ++ queue'.deliveries)
  server : ∀ record ∈ taken, record.server = id
  consumers : ∀ {replicaId : String} {consumer' : Consumer},
    queue'.consumers.lookup replicaId = some consumer' →
      ∃ consumer, queue.consumers.lookup replicaId = some consumer ∧
        consumer'.server = consumer.server ∧
          consumer'.inFlight = consumer.inFlight - if consumer.server = id then taken.length else 0

/-- A server forgets deliveries. -/
structure Forgotten (taken : List DeliveryRecord) (server server' : ServerBook) : Prop where
  replicaId : server'.replicaId = server.replicaId
  prefetch : server'.prefetch = server.prefetch
  status : server'.status = server.status
  registered : server'.registered = server.registered
  queueNames : server'.queueNames = server.queueNames
  deliveryQueues : ∀ delivery, server'.deliveryQueues.lookup delivery =
    if delivery ∈ taken.map (·.delivery) then none else server.deliveryQueues.lookup delivery
  inFlight : server'.inFlight = server.inFlight - taken.length

/-- Deliveries end, some of them because they are settled. -/
def take (books : Books) (queueId : QueueId) (f : QueueBook → QueueBook) (id : ServerId)
    (g : ServerBook → ServerBook) (settled : List DeliveryId) : Books where
  queues := books.queues.modify queueId f
  servers := books.servers.modify id g
  ephemeralQueues := books.ephemeralQueues
  nextDelivery := books.nextDelivery
  settlements := books.settlements ++ settled

lemma Taken.count {id other queue'} (h : Taken id taken queue queue') :
    queue.deliveries.countP (·.server = other) =
      (if other = id then taken.length else 0) + queue'.deliveries.countP (·.server = other) := by
  rw [h.deliveries.countP_eq, countP_append]
  congr 1
  split
  · rename_i same
    rw [countP_eq_length]
    intro record mem
    simp [h.server record mem, same]
  · rename_i ne
    rw [countP_eq_zero]
    intro record mem eq
    exact ne ((of_decide_eq_true eq).symm.trans (h.server record mem))

lemma Balanced.take (balanced : books.Balanced) {queueId f id server g settled}
    (hqueue : books.queues[queueId]? = some queue) (hserver : books.servers[id]? = some server)
    (hf : Taken id taken queue (f queue)) (hg : Forgotten taken server (g server))
    (nodup : settled.Nodup) (sub : ∀ delivery ∈ settled, delivery ∈ taken.map (·.delivery)) :
    (books.take queueId f id g settled).Balanced := by
  have perm : books.records.Perm (taken ++ (books.take queueId f id g settled).records) := by
    obtain ⟨rest, before, after⟩ := records_modifyQueue f hqueue
    refine before.trans ((hf.deliveries.append_right rest).trans ?_)
    rw [append_assoc]
    exact after.symm.append_left taken
  have nodups := (perm.map (·.delivery)).nodup_iff.mp balanced.deliveries.1
  rw [map_append, nodup_append] at nodups
  obtain ⟨-, rest, apart⟩ := nodups
  have left : ∀ r ∈ (books.take queueId f id g settled).records,
      r ∈ books.records ∧ r.delivery ∉ taken.map (·.delivery) := by
    intro r mem
    refine ⟨perm.mem_iff.mpr (mem_append_right _ mem), ?_⟩
    intro mem'
    exact apart _ mem' _ (mem_map_of_mem mem) rfl
  -- Each queue and each server of the new books is an old one up to what was taken.
  have alike : ∀ {old}, books.servers[id]? = some old →
      Alike (taken.map (·.delivery)) old (g old) := by
    intro old hold
    cases hserver.symm.trans hold
    refine ⟨hg.replicaId, hg.registered, hg.queueNames, fun delivery other => ?_⟩
    rw [hg.deliveryQueues, if_neg other]
  refine ⟨?_, ?_, ?_, ⟨rest, ?_⟩, ?_, ?_, ?_, ?_, ?_⟩
  · intro i j q q' h h'
    refine balanced.names_modifyQueue h h' fun hold => ?_
    cases hqueue.symm.trans hold
    exact ⟨hf.name, hf.listed.symm.trans⟩
  · exact balanced.replicas_modify alike
  · intro k q r h mem
    have new := (left r (mem_records.mpr ⟨k, q, h, mem⟩)).2
    have old : ∃ q', books.queues[k]? = some q' ∧ r ∈ q'.deliveries ∧ q.name = q'.name ∧
        q.listed = q'.listed := by
      rcases modify_cases h with ⟨-, hq⟩ | ⟨rfl, q', hq, rfl⟩
      · exact ⟨q, hq, mem, rfl, rfl⟩
      · cases hqueue.symm.trans hq
        exact ⟨queue, hqueue, hf.deliveries.mem_iff.mpr (mem_append_right _ mem), hf.name,
          hf.listed⟩
    obtain ⟨q', hq, mem, name, listed⟩ := old
    obtain ⟨hl, s, hs, owned, remembered⟩ := balanced.record hq mem
    obtain ⟨s', hs', same⟩ := rel_after (rel_modify (Alike.refl _) alike _) hs
    rw [name, listed]
    exact ⟨hl, s', hs', same.owns owned, (same.deliveryQueues _ new).trans remembered⟩
  · intro r mem
    exact balanced.deliveries.2 r (left r mem).1
  · intro k s delivery n h remembered
    -- A delivery that is still remembered was not taken, so its record is still there.
    have back : ∃ s', books.servers[k]? = some s' ∧ s'.deliveryQueues.lookup delivery = some n ∧
        (k = id → delivery ∉ taken.map (·.delivery)) := by
      rcases modify_cases h with ⟨ne, hs⟩ | ⟨rfl, s', hs, rfl⟩
      · exact ⟨s, hs, remembered, fun eq => absurd eq.symm ne⟩
      cases hserver.symm.trans hs
      rw [hg.deliveryQueues] at remembered
      split at remembered
      · cases remembered
      · rename_i other
        exact ⟨server, hserver, remembered, fun _ => other⟩
    obtain ⟨s', hs, remembered, other⟩ := back
    obtain ⟨r, mem, own, eq⟩ := balanced.remembered hs remembered
    refine ⟨r, ?_, own, eq⟩
    rcases mem_append.mp (perm.mem_iff.mp mem) with mem | mem
    · refine absurd ?_ (other (own.symm.trans (hf.server r mem)))
      exact eq ▸ mem_map_of_mem mem
    · exact mem
  · intro k s h
    have count : books.records.countP (·.server = k) = (if k = id then taken.length else 0) +
        (books.take queueId f id g settled).records.countP (·.server = k) := by
      obtain ⟨rest, before, after⟩ := records_modifyQueue f hqueue
      rw [before.countP_eq, countP_append, hf.count]
      change _ = _ + (books.modifyQueue queueId f).records.countP _
      rw [after.countP_eq, countP_append, Nat.add_assoc]
    rcases modify_cases h with ⟨ne, hs⟩ | ⟨rfl, s', hs, rfl⟩
    · rw [if_neg (Ne.symm ne), Nat.zero_add] at count
      rw [← count]
      exact balanced.inFlight hs
    · cases hserver.symm.trans hs
      obtain ⟨eq, le⟩ := balanced.inFlight hserver
      rw [if_pos rfl] at count
      rw [hg.inFlight, hg.prefetch]
      omega
  · intro k q ρ c h hc
    rcases modify_cases h with ⟨-, hq⟩ | ⟨rfl, q', hq, rfl⟩
    · obtain ⟨hl, number, s, hs, owned, rep⟩ := balanced.consumer hq hc
      obtain ⟨s', hs', same⟩ := rel_after (rel_modify (Alike.refl _) alike _) hs
      exact ⟨hl, number, s', hs', same.owns owned, same.replicaId.trans rep⟩
    · cases hqueue.symm.trans hq
      obtain ⟨old, hold, server, number'⟩ := hf.consumers hc
      obtain ⟨hl, number, s, hs, owned, rep⟩ := balanced.consumer hqueue hold
      obtain ⟨s', hs', same⟩ := rel_after (rel_modify (Alike.refl _) alike _) hs
      rw [hf.name, hf.listed, server, number', number, hf.count]
      refine ⟨hl, ?_, s', hs', same.owns owned, same.replicaId.trans rep⟩
      push_cast
      rw [Int.add_comm, Int.add_sub_cancel]
  · change (books.settlements ++ settled).Nodup
    rw [nodup_append]
    refine ⟨balanced.settled.1, nodup, ?_⟩
    intro d mem d' mem' eq
    obtain ⟨r, hr, same⟩ := mem_map.mp (sub d' mem')
    exact (balanced.settled.2 d mem).2 r (perm.mem_iff.mpr (mem_append_left _ hr))
      (same.trans eq.symm)
  · intro d mem
    rcases mem_append.mp mem with mem | mem
    · exact ⟨(balanced.settled.2 d mem).1, fun r hr => (balanced.settled.2 d mem).2 r (left r hr).1⟩
    · obtain ⟨r, hr, same⟩ := mem_map.mp (sub d mem)
      refine ⟨same ▸ balanced.deliveries.2 r (perm.mem_iff.mpr (mem_append_left _ hr)), ?_⟩
      exact fun r' hr' eq => (left r' hr').2 (eq ▸ sub d mem)

end Books

end ToriPy.Microservices
