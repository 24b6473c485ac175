import ToriPy.Base.Dict
import ToriPy.Base.Transition
import ToriPy.Microservices.Transport

/-!
# The in-memory broker

`InMemoryBroker` and `InMemoryServerTransport` as one transition system. A step is what runs between
two suspensions of the event loop: a call of a method up to its first suspension, one iteration of
the loop of a queue, what a dispatcher returned, or the rest of a `close` that was suspended. A
`close` suspends while it waits for the tasks of the server, and in `_remove_queue`, which awaits the
cancelled loop of the queue between taking the queue out of `_queues` and forgetting its name.

Queues and servers are objects with an identity: a name can be registered again while the queue that
had it before is still referred to by a suspended `close`. They are the entries of two lists that
only grow; `listed` says that a queue is in `_queues`, `registered` that a server is in `_servers`.

The last fields of the broker are bookkeeping for the statements and no method reads them: copies
are numbered when they are accepted, `fates` has those that left the queues, and `settlements` the
deliveries that were settled.
-/

namespace ToriPy.Microservices

abbrev QueueId := Nat
abbrev ServerId := Nat
abbrev DeliveryId := Nat
abbrev CopyId := Nat

/-- The arguments of `InMemoryBroker`. -/
structure BrokerLimits where
  maxQueueMessages : Nat := 10000
  maxDeliveryAttempts : Nat := 5
  positive : 0 < maxQueueMessages ∧ 0 < maxDeliveryAttempts := by decide

/-- `_QueuedPublication`, with the number of the copy. -/
structure QueuedPublication where
  copy : CopyId
  publication : Publication
  attempt : Nat := 1
  redelivered : Bool := false

def QueuedPublication.retried (queued : QueuedPublication) : QueuedPublication :=
  { queued with attempt := queued.attempt + 1, redelivered := true }

/-- `_DeliveryRecord`; the delivery is known by its identity. -/
structure DeliveryRecord where
  server : ServerId
  delivery : DeliveryId
  encoded : EncodedDelivery
  queued : QueuedPublication

/-- `_Consumer`. -/
structure Consumer where
  server : ServerId
  prefetch : Nat
  inFlight : Int := 0
  active : Bool := true

/-- `_Queue`. `wake` is the value of the event, `task` says that the loop was started. -/
structure Queue where
  name : String
  messages : List QueuedPublication := []
  consumers : Dict String Consumer := ∅
  deliveries : List DeliveryRecord := []
  cursor : Nat := 0
  wake : Bool := false
  task : Bool := false
  listed : Bool := true

/-- `InMemoryServerTransport`. -/
structure Server where
  service : ServiceIdentity
  replicaId : String
  prefetch : Nat
  status : TransportStatus := .created
  registered : Bool := false
  queueNames : List String := []
  subscriptions : Dict String EventSubscription := ∅
  deliveryQueues : Dict DeliveryId String := ∅
  tasks : List (DeliveryId × EncodedDelivery) := []
  inFlight : Int := 0
  prefetch_pos : 0 < prefetch

/-- Where a `close` is suspended: it waits for the tasks of its server, or for the loop of a queue
that it removes, with the queues that it has not visited yet. The last flag tells the final
`stop_server` from the one of a server that was never started. -/
inductive CloseStage where
  | draining
  | removing (name : String) (rest : List QueueId) (last : Bool)

/-- A suspended `close`. -/
structure Closing where
  server : ServerId
  stage : CloseStage

/-- How a copy left the queues. -/
inductive Fate where
  | acknowledged
  | rejected
  | deadLettered
  | expired
deriving DecidableEq

/-- The routing tables of the broker. -/
structure Routes where
  rpcQueues : List (String × String) := []
  eventRoutes : List ((String × String) × List String) := []

/-- The broker with its servers. -/
structure Broker where
  queues : List Queue := []
  servers : List Server := []
  routes : Routes := {}
  ephemeralQueues : List String := []
  reliableBroadcastOwners : Dict String ServerId := ∅
  deadLetters : List EncodedDelivery := []
  closing : List Closing := []
  nextDelivery : DeliveryId := 0
  copies : CopyId := 0
  fates : List (CopyId × Fate) := []
  settlements : List DeliveryId := []

/-- `_event_queue_name`. The last case is excluded by the invariant of a subscription. -/
def eventQueueName (subscription : EventSubscription) : String :=
  let identity := subscription.identity
  let base := "tori_py.event." ++ identity.source.label ++ "." ++ identity.event ++ "." ++
    versionName identity.schemaVersion
  match subscription.mode, subscription.destination, subscription.instanceId with
  | .servicePool, some destination, _ =>
    base ++ "--pool." ++ destination.label ++ "." ++ subscription.subscription
  | .singleton, _, _ => base ++ "--singleton." ++ subscription.subscription
  | .broadcast, some destination, some instanceId =>
    base ++ "--broadcast." ++ destination.label ++ "." ++ subscription.subscription ++ "." ++
      instanceId
  | _, _, _ => base

/-! ### Routes -/

namespace Routes

/-- `_rpc_queues[label] = name`. -/
def addRpc (routes : Routes) (label name : String) : Routes :=
  { routes with
    rpcQueues := if label ∈ routes.rpcQueues.map Prod.fst then routes.rpcQueues
      else routes.rpcQueues ++ [(label, name)] }

/-- `_event_routes.setdefault(route, set()).add(name)`. -/
def addEvent (routes : Routes) (route : String × String) (name : String) : Routes :=
  { routes with
    eventRoutes := if route ∈ routes.eventRoutes.map Prod.fst then
        routes.eventRoutes.map fun entry =>
          if entry.1 = route then (entry.1, entry.2.insert name) else entry
      else routes.eventRoutes ++ [(route, [name])] }

/-- What `_remove_queue` does to the tables. -/
def forget (routes : Routes) (name : String) : Routes where
  rpcQueues := routes.rpcQueues.filter (·.2 ≠ name)
  eventRoutes := (routes.eventRoutes.map fun entry => (entry.1, entry.2.erase name)).filter
    (·.2 ≠ [])

/-- `_routes`. -/
def select (routes : Routes) (routingKey : String) (native : Option Native) : List String :=
  match native with
  | some (.route exchange key) => (routes.eventRoutes.lookup (exchange, key)).getD []
  | _ =>
    match routes.rpcQueues.find? fun entry =>
      (entry.1 ++ ".").toList.isPrefixOf routingKey.toList with
    | some entry => [entry.2]
    | none => []

end Routes

namespace Broker

/-! ### Objects -/

def modifyQueue (broker : Broker) (id : QueueId) (f : Queue → Queue) : Broker :=
  { broker with queues := broker.queues.modify id f }

def modifyServer (broker : Broker) (id : ServerId) (f : Server → Server) : Broker :=
  { broker with servers := broker.servers.modify id f }

/-- `_queues.get(name)`. -/
def find (broker : Broker) (name : String) : Option QueueId :=
  broker.queues.findIdx? fun queue => queue.listed && queue.name = name

/-- `tuple(_queues.values())`. -/
def listedQueues (broker : Broker) : List QueueId :=
  (List.range broker.queues.length).filter fun id => (broker.queues[id]?).any (·.listed)

/-- `_queues.setdefault(name, _Queue(name))`. -/
def ensureQueue (broker : Broker) (name : String) : Broker :=
  if (broker.find name).isSome then broker
  else { broker with queues := broker.queues ++ [{ name }] }

def setStatus (broker : Broker) (id : ServerId) (status : TransportStatus) : Broker :=
  broker.modifyServer id fun server => { server with status }

/-! ### Registration -/

/-- One round of the loop over the subscriptions in `register_server`. -/
def registerSubscription (id : ServerId) (broker : Broker) (subscription : EventSubscription) :
    Broker :=
  let name := eventQueueName subscription
  let identity := subscription.identity
  let broker :=
    if subscription.mode = .broadcast then
      if subscription.reliable then
        { broker with
          reliableBroadcastOwners := broker.reliableBroadcastOwners.insert name id }
      else { broker with ephemeralQueues := broker.ephemeralQueues.insert name }
    else broker
  let broker := broker.ensureQueue name
  let broker :=
    { broker with routes := broker.routes.addEvent (identity.exchangeName, identity.routingKey) name }
  broker.modifyServer id fun server =>
    { server with
      queueNames := server.queueNames.insert name
      subscriptions := server.subscriptions.insert name subscription }

def rpcQueueName (service : ServiceIdentity) : String := "rpc." ++ service.label

/-- The part of `register_server` before that loop. -/
def registerService (id : ServerId) (broker : Broker) (service : ServiceIdentity) : Broker :=
  let name := rpcQueueName service
  let broker := broker.ensureQueue name
  let broker := { broker with routes := broker.routes.addRpc service.label name }
  broker.modifyServer id fun server =>
    { server with registered := true, queueNames := server.queueNames.insert name }

/-- `register_server`. -/
def registerServer (broker : Broker) (id : ServerId) (server : Server) (rpcMethods : List String)
    (subscriptions : List EventSubscription) : Except TransportError Broker := do
  require (∀ other ∈ broker.servers.zipIdx,
      other.1.registered = true → other.1.replicaId = server.replicaId → other.2 = id)
    (.state "replica_id is already registered")
  require (∀ method ∈ rpcMethods, method ≠ "") (.value "RPC methods must be non-empty strings")
  require (∀ subscription ∈ subscriptions,
      subscription.mode = .broadcast → subscription.reliable = true →
        ∀ owner ∈ broker.reliableBroadcastOwners.lookup (eventQueueName subscription), owner = id)
    (.state "reliable broadcast instance identity is already active")
  .ok (subscriptions.foldl (registerSubscription id) (registerService id broker server.service))

/-- `_require`. -/
def requireStatus (server : Server) (expected : TransportStatus) : Except TransportError Unit :=
  require (server.status = expected)
    (.state ("expected " ++ expected.text ++ ", got " ++ server.status.text))

/-- `prepare`. -/
def prepare (broker : Broker) (id : ServerId) (server : Server) (rpcMethods : List String)
    (subscriptions : List EventSubscription) : Except TransportError Broker := do
  requireStatus server .created
  let broker ← broker.registerServer id server rpcMethods subscriptions
  .ok (broker.setStatus id .prepared)

/-- What `start_server` does to a queue. -/
def startQueue (id : ServerId) (server : Server) (queue : Queue) : Queue :=
  { queue with
    consumers := queue.consumers.insert server.replicaId ⟨id, server.prefetch, 0, true⟩
    task := true
    wake := true }

/-- `start_server`. A name that is not in `_queues` raises, behind what was done before. -/
def startServer (id : ServerId) (server : Server) (broker : Broker) :
    List String → Broker × Except TransportError Unit
  | [] => (broker, .ok ())
  | name :: names =>
    match broker.find name with
    | none => (broker, .error (.key name))
    | some queue => startServer id server (broker.modifyQueue queue (startQueue id server)) names

/-- `start`; `names` is the order in which the set of names is iterated. -/
def start (broker : Broker) (id : ServerId) (server : Server) (names : List String) : Broker :=
  match requireStatus server .prepared with
  | .error _ => broker
  | .ok () =>
    match startServer id server broker names with
    | (broker, .error _) => broker
    | (broker, .ok ()) => broker.setStatus id .running

/-! ### Publication -/

/-- The capacity check of `publish`. -/
def checkCapacity (limits : BrokerLimits) (broker : Broker) :
    List String → Except TransportError Unit
  | [] => .ok ()
  | name :: names => do
    match (broker.find name).bind (broker.queues[·]?) with
    | none => .error (.key name)
    | some queue =>
      require (queue.messages.length < limits.maxQueueMessages)
        (.capacity "one or more in-memory queues are full")
      checkCapacity limits broker names

def enqueue (publication : Publication) (broker : Broker) (name : String) : Broker :=
  match broker.find name with
  | none => broker
  | some id =>
    { broker.modifyQueue id fun queue =>
        { queue with
          messages := queue.messages ++ [⟨broker.copies, publication, 1, false⟩]
          wake := true } with
      copies := broker.copies + 1 }

/-- `publish`. -/
def publish (limits : BrokerLimits) (broker : Broker) (publication : Publication) (now : Instant) :
    Except TransportError (Broker × PublicationReceipt) := do
  let names := broker.routes.select publication.routingKey publication.native
  require (publication.mandatory = true → names ≠ [])
    (.unroutable ("no route for publication '" ++ publication.routingKey ++ "'"))
  checkCapacity limits broker names
  .ok (names.foldl (enqueue publication) broker,
    ⟨publication.messageId, now, !names.isEmpty⟩)

/-! ### Deliveries -/

/-- The consumers that `_next_consumer` considers, in the order of their replica identifiers. -/
def eligible (broker : Broker) (queue : Queue) : List (String × Consumer) :=
  (Json.sortMembers (queue.consumers.entries.map fun entry => (entry.1, entry.2))).filter
    fun entry => entry.2.active && entry.2.inFlight < entry.2.prefetch &&
      (broker.servers[entry.2.server]?).any fun server => server.inFlight < server.prefetch

/-- The consumer that `_next_consumer` returns. -/
def nextConsumer (broker : Broker) (queue : Queue) : Option (String × Consumer) :=
  (broker.eligible queue)[queue.cursor % (broker.eligible queue).length]?

/-- The cursor that `_next_consumer` leaves. -/
def nextCursor (broker : Broker) (queue : Queue) : Nat :=
  if broker.eligible queue = [] then queue.cursor
  else (queue.cursor + 1) % (broker.eligible queue).length

/-- The delivery that is made of a queued publication. -/
def encodedDelivery (queued : QueuedPublication) (now : Instant)
    (subscription : Option EventSubscription) : EncodedDelivery where
  messageId := queued.publication.messageId
  routingKey := queued.publication.routingKey
  body := queued.publication.body
  headers := queued.publication.headers
  receivedAt := now
  attempt := queued.attempt
  redelivered := queued.redelivered
  correlationId := queued.publication.correlationId
  replyTo := queued.publication.replyTo
  native := queued.publication.native
  expiresAt := queued.publication.expiresAt
  subscription := subscription

/-- An iteration that has no consumer or no message: the loop waits. -/
def idle (broker : Broker) (id : QueueId) (cursor : Nat) : Broker :=
  broker.modifyQueue id fun queue => { queue with cursor, wake := false }

def expire (broker : Broker) (id : QueueId) (cursor : Nat) (queued : QueuedPublication)
    (rest : List QueuedPublication) : Broker :=
  { broker.modifyQueue id fun queue => { queue with cursor, messages := rest } with
    fates := broker.fates ++ [(queued.copy, .expired)] }

def deliverTo (replicaId : String) (consumer : Consumer) (record : DeliveryRecord) (cursor : Nat)
    (rest : List QueuedPublication) (queue : Queue) : Queue :=
  { queue with
    cursor
    messages := rest
    deliveries := queue.deliveries ++ [record]
    consumers := queue.consumers.insert replicaId
      { consumer with inFlight := consumer.inFlight + 1 } }

def deliver (broker : Broker) (id : QueueId) (name : String) (cursor : Nat) (replicaId : String)
    (consumer : Consumer) (queued : QueuedPublication) (rest : List QueuedPublication)
    (now : Instant) : Broker :=
  let delivery := broker.nextDelivery
  let encoded := encodedDelivery queued now
    ((broker.servers[consumer.server]?).bind (·.subscriptions.lookup name))
  let record : DeliveryRecord := ⟨consumer.server, delivery, encoded, queued⟩
  let broker := broker.modifyQueue id (deliverTo replicaId consumer record cursor rest)
  let broker := broker.modifyServer consumer.server fun server =>
    { server with
      inFlight := server.inFlight + 1
      deliveryQueues := server.deliveryQueues.insert delivery name
      tasks := server.tasks ++ [(delivery, encoded)] }
  { broker with nextDelivery := delivery + 1 }

/-- One iteration of `_run_queue`, with the time that `utc_now` returns in it. -/
def iterate (broker : Broker) (id : QueueId) (queue : Queue) (now : Instant) : Broker :=
  match broker.nextConsumer queue, queue.messages with
  | none, _ => broker.idle id (broker.nextCursor queue)
  | some _, [] => broker.idle id (broker.nextCursor queue)
  | some (replicaId, consumer), queued :: rest =>
    if ∃ time ∈ queued.publication.expiresAt, time ≤ now then
      broker.expire id (broker.nextCursor queue) queued rest
    else
      broker.deliver id queue.name (broker.nextCursor queue) replicaId consumer queued rest now

/-! ### Settlement -/

/-- `_wake_server_queues`. -/
def wakeQueues (broker : Broker) (names : List String) : Broker :=
  { broker with
    queues := broker.queues.map fun queue =>
      if queue.listed && queue.name ∈ names then { queue with wake := true } else queue }

def redelivers (outcome : SettlementRecommendation) : Bool :=
  outcome = .retry || outcome = .unsettled

def settledFate (outcome : SettlementRecommendation) : Fate :=
  match outcome with
  | .ack => .acknowledged
  | .reject => .rejected
  | _ => .deadLettered

/-- What a settlement takes from the queue and from its consumer, and what it gives back. -/
def release (replicaId : String) (delivery : DeliveryId) (back : List QueuedPublication)
    (queue : Queue) : Queue :=
  { queue with
    messages := queue.messages ++ back
    deliveries := queue.deliveries.eraseP (·.delivery = delivery)
    consumers := match queue.consumers.lookup replicaId with
      | none => queue.consumers
      | some consumer =>
        queue.consumers.insert replicaId { consumer with inFlight := consumer.inFlight - 1 } }

def settleDelivery (delivery : DeliveryId) (server : Server) : Server :=
  { server with
    deliveryQueues := server.deliveryQueues.erase delivery
    inFlight := server.inFlight - 1 }

def appendBounded {α : Type} (bound : Nat) (items : List α) (item : α) : List α :=
  (items ++ [item]).drop ((items ++ [item]).length - bound)

def goesBack (limits : BrokerLimits) (queue : Queue) (record : DeliveryRecord)
    (outcome : SettlementRecommendation) : Bool :=
  redelivers outcome && record.queued.attempt < limits.maxDeliveryAttempts &&
    queue.messages.length < limits.maxQueueMessages

/-- `settle`, once the record is found. -/
def settleRecord (limits : BrokerLimits) (broker : Broker) (id : ServerId) (server : Server)
    (queueId : QueueId) (queue : Queue) (record : DeliveryRecord)
    (outcome : SettlementRecommendation) : Broker :=
  let back := goesBack limits queue record outcome
  let changed := (broker.modifyQueue queueId (release server.replicaId record.delivery
    (if back then [record.queued.retried] else []))).modifyServer id
      (settleDelivery record.delivery)
  { changed with
    deadLetters := if redelivers outcome && !back then
        appendBounded limits.maxQueueMessages broker.deadLetters record.encoded
      else broker.deadLetters
    fates := broker.fates ++ (if back then [] else [(record.queued.copy, settledFate outcome)])
    settlements := broker.settlements ++ [record.delivery] }.wakeQueues server.queueNames

/-- `settle`. -/
def settle (limits : BrokerLimits) (broker : Broker) (id : ServerId) (server : Server)
    (delivery : DeliveryId) (outcome : SettlementRecommendation) : Except TransportError Broker :=
  match server.deliveryQueues.lookup delivery with
  | none => .error (.duplicateSettlement "delivery was already settled")
  | some name =>
    match broker.find name with
    | none => .error (.key name)
    | some queueId =>
      match (broker.queues[queueId]?).bind fun queue =>
          (queue.deliveries.find? (·.delivery = delivery)).map (queue, ·) with
      | none => .error (.duplicateSettlement "delivery was already settled")
      | some (queue, record) =>
        .ok (broker.settleRecord limits id server queueId queue record outcome)

/-- What a dispatcher does with a delivery. `other` is an object that is no recommendation. -/
inductive DispatchResult where
  | cancelled
  | transportError
  | exception
  | recommendation (outcome : SettlementRecommendation)
  | other

/-- The settlement that `_dispatch` makes for the result of its dispatcher. -/
def dispatchOutcome (server : Server) (delivery : DeliveryId) (encoded : EncodedDelivery) :
    DispatchResult → Option SettlementRecommendation
  | .cancelled => none
  | .transportError =>
    if (server.deliveryQueues.lookup delivery).isSome then some .unsettled else none
  | .exception =>
    if (server.deliveryQueues.lookup delivery).isSome then
      some (if encoded.subscription.isSome then .retry else .reject)
    else none
  | .recommendation outcome => some outcome
  | .other => some .reject

/-- The rest of `_dispatch` behind its dispatcher, which ends the task. -/
def dispatched (limits : BrokerLimits) (broker : Broker) (id : ServerId) (server : Server)
    (delivery : DeliveryId) (encoded : EncodedDelivery) (result : DispatchResult) : Broker :=
  let settled := match dispatchOutcome server delivery encoded result with
    | none => broker
    | some outcome => match broker.settle limits id server delivery outcome with
      | .ok settled => settled
      | .error _ => broker
  settled.modifyServer id fun server =>
    { server with tasks := server.tasks.filter (·.1 ≠ delivery) }

/-! ### Stopping -/

/-- The deliveries of a server go back to the head of the queue, the last one first. -/
def requeue (id : ServerId) (queue : Queue) : Queue :=
  { queue with
    messages := ((queue.deliveries.filter (·.server = id)).map (·.queued.retried)).reverse ++
      queue.messages
    deliveries := queue.deliveries.filter (·.server ≠ id) }

def recordsOf (broker : Broker) (id : ServerId) (queueId : QueueId) : List DeliveryRecord :=
  ((broker.queues[queueId]?).map fun queue => queue.deliveries.filter (·.server = id)).getD []

/-- What a server loses with deliveries that go back. -/
def dropRecords (records : List DeliveryRecord) (server : Server) : Server :=
  { server with
    deliveryQueues := records.foldl (fun queues record => queues.erase record.delivery)
      server.deliveryQueues
    inFlight := server.inFlight - records.length }

/-- The first half of a round of `stop_server`: the consumer and the deliveries of the server. -/
def stopQueue (broker : Broker) (id : ServerId) (replicaId : String) (again : Bool)
    (queueId : QueueId) : Broker :=
  let records := if again then broker.recordsOf id queueId else []
  let broker := broker.modifyQueue queueId fun queue =>
    let queue := { queue with consumers := queue.consumers.erase replicaId, wake := true }
    if again then requeue id queue else queue
  broker.modifyServer id (dropRecords records)

/-- Another registered server has the name of the queue. -/
def ownedElsewhere (broker : Broker) (id : ServerId) (name : String) : Bool :=
  broker.servers.zipIdx.any fun other =>
    other.2 ≠ id && other.1.registered && decide (name ∈ other.1.queueNames)

/-- `_queues.pop(name, None)`. -/
def popQueue (broker : Broker) (name : String) : Broker :=
  match broker.find name with
  | none => broker
  | some id => broker.modifyQueue id fun queue => { queue with listed := false }

/-- `_remove_queue` behind its suspension. -/
def forgetQueue (broker : Broker) (name : String) : Broker :=
  { broker with
    routes := broker.routes.forget name
    reliableBroadcastOwners := broker.reliableBroadcastOwners.erase name
    ephemeralQueues := broker.ephemeralQueues.erase name
    servers := broker.servers.map fun server =>
      if server.registered then
        { server with
          queueNames := server.queueNames.erase name
          subscriptions := server.subscriptions.erase name }
      else server }

/-- `_remove_queue` awaits the loop of the queue. -/
def removalSuspends (broker : Broker) (name : String) : Bool :=
  ((broker.find name).bind (broker.queues[·]?)).any (·.task)

/-- The queue is removed at the end of a round of `stop_server`. -/
def removesQueue (broker : Broker) (id : ServerId) (again : Bool) (queue : Queue) : Bool :=
  again && decide (queue.name ∈ broker.ephemeralQueues) && queue.consumers.entries.isEmpty &&
    !broker.ownedElsewhere id queue.name

/-- The `elif` of a round of `stop_server`. -/
def dropOwner (broker : Broker) (id : ServerId) (name : String) : Broker :=
  if broker.reliableBroadcastOwners.lookup name = some id then
    { broker with reliableBroadcastOwners := broker.reliableBroadcastOwners.erase name }
  else broker

/-- `stop_server` over the queues that are left. It returns the name and the queues behind it when it
suspends in a removal. -/
def stopQueues (id : ServerId) (replicaId : String) (again : Bool) (broker : Broker) :
    List QueueId → Broker × Option (String × List QueueId)
  | [] => (broker, none)
  | queueId :: rest =>
    let broker := broker.stopQueue id replicaId again queueId
    match broker.queues[queueId]? with
    | none => stopQueues id replicaId again broker rest
    | some queue =>
      if broker.removesQueue id again queue then
        if broker.removalSuspends queue.name then
          (broker.popQueue queue.name, some (queue.name, rest))
        else stopQueues id replicaId again
          ((broker.popQueue queue.name).forgetQueue queue.name) rest
      else stopQueues id replicaId again (broker.dropOwner id queue.name) rest

/-- `stop_intake`. -/
def stopIntake (broker : Broker) (id : ServerId) (server : Server) : Except TransportError Broker :=
  match server.status with
  | .closed => .ok broker
  | .quiescing => .ok broker
  | .running =>
    let broker := broker.setStatus id .quiescing
    .ok (stopQueues id server.replicaId false broker broker.listedQueues).1
  | _ => .error (.state "server intake has not started")

/-! ### Closing -/

/-- The end of `close`. -/
def finishClose (broker : Broker) (id : ServerId) : Broker :=
  broker.modifyServer id fun server =>
    { server with registered := false, subscriptions := ∅, status := .closed }

/-- `close` suspends. -/
def suspend (broker : Broker) (id : ServerId) (stage : CloseStage) : Broker :=
  { broker with closing := broker.closing ++ [⟨id, stage⟩] }

/-- The final `stop_server`, from some queues on. -/
def finalStop (id : ServerId) (replicaId : String) (broker : Broker) (queues : List QueueId) :
    Broker :=
  match stopQueues id replicaId true broker queues with
  | (broker, none) => broker.finishClose id
  | (broker, some (name, rest)) => broker.suspend id (.removing name rest true)

/-- `close` behind the first `stop_server` or `stop_intake`. -/
def drain (broker : Broker) (id : ServerId) (replicaId : String) : Broker :=
  if (broker.servers[id]?).any (!·.tasks.isEmpty) then broker.suspend id .draining
  else finalStop id replicaId broker broker.listedQueues

/-- The `stop_server` of a server that was prepared only, from some queues on. -/
def firstStop (id : ServerId) (replicaId : String) (broker : Broker) (queues : List QueueId) :
    Broker :=
  match stopQueues id replicaId true broker queues with
  | (broker, none) => broker.drain id replicaId
  | (broker, some (name, rest)) => broker.suspend id (.removing name rest false)

/-- `close` up to its first suspension. -/
def close (broker : Broker) (id : ServerId) (server : Server) : Broker :=
  match server.status with
  | .closed => broker
  | .running =>
    match broker.stopIntake id server with
    | .ok stopped => stopped.drain id server.replicaId
    | .error _ => broker
  | .prepared => firstStop id server.replicaId broker broker.listedQueues
  | _ => broker.drain id server.replicaId

/-- `close` behind a suspension. -/
def resume (broker : Broker) (id : ServerId) (replicaId : String) : CloseStage → Broker
  | .draining => finalStop id replicaId broker broker.listedQueues
  | .removing name rest true => finalStop id replicaId (broker.forgetQueue name) rest
  | .removing name rest false => firstStop id replicaId (broker.forgetQueue name) rest

/-! ### The system -/

/-- What happens to the broker. -/
inductive Action where
  | create (service : ServiceIdentity) (replicaId : String) (prefetch : Nat)
  | prepare (id : ServerId) (rpcMethods : List String) (subscriptions : List EventSubscription)
  | start (id : ServerId) (names : List String)
  | publish (publication : Publication) (now : Instant)
  | iterate (id : QueueId) (now : Instant)
  | settle (id : ServerId) (delivery : DeliveryId) (outcome : SettlementRecommendation)
  | dispatched (id : ServerId) (delivery : DeliveryId) (result : DispatchResult)
  | stopIntake (id : ServerId)
  | close (id : ServerId)
  | resume (index : Nat)

/-- The state that a method leaves when it raises without effect. -/
def orElse (broker : Broker) (result : Except TransportError Broker) : Broker :=
  match result with
  | .ok changed => changed
  | .error _ => broker

def step (limits : BrokerLimits) (broker : Broker) : Action → Option Broker
  | .create service replicaId prefetch =>
    if prefetch_pos : 0 < prefetch then
      some { broker with servers := broker.servers ++ [{ service, replicaId, prefetch, prefetch_pos }] }
    else none
  | .prepare id rpcMethods subscriptions => do
    let server ← broker.servers[id]?
    some (broker.orElse (broker.prepare id server rpcMethods subscriptions))
  | .start id names => do
    let server ← broker.servers[id]?
    if names.Perm server.queueNames then some (broker.start id server names) else none
  | .publish publication now =>
    some (broker.orElse ((broker.publish limits publication now).map Prod.fst))
  | .iterate id now => do
    let queue ← broker.queues[id]?
    if queue.listed && queue.task && queue.wake then some (broker.iterate id queue now) else none
  | .settle id delivery outcome => do
    let server ← broker.servers[id]?
    some (broker.orElse (broker.settle limits id server delivery outcome))
  | .dispatched id delivery result => do
    let server ← broker.servers[id]?
    let encoded ← server.tasks.lookup delivery
    some (broker.dispatched limits id server delivery encoded result)
  | .stopIntake id => do
    let server ← broker.servers[id]?
    some (broker.orElse (broker.stopIntake id server))
  | .close id => do
    let server ← broker.servers[id]?
    some (broker.close id server)
  | .resume index => do
    let closing ← broker.closing[index]?
    let server ← broker.servers[closing.server]?
    some ({ broker with closing := broker.closing.eraseIdx index }.resume closing.server
      server.replicaId closing.stage)

/-! ### What the methods do -/

/-- What a step does: a method has an effect, or it raises. -/
inductive Moves (limits : BrokerLimits) (broker : Broker) : Action → Broker → Prop
  | raised {action} : Moves limits broker action broker
  | create {service replicaId prefetch} (prefetch_pos : 0 < prefetch) :
    Moves limits broker (.create service replicaId prefetch)
      { broker with servers := broker.servers ++ [{ service, replicaId, prefetch, prefetch_pos }] }
  | prepare {id server rpcMethods subscriptions changed} :
    broker.servers[id]? = some server →
    broker.prepare id server rpcMethods subscriptions = .ok changed →
    Moves limits broker (.prepare id rpcMethods subscriptions) changed
  | start {id server names} :
    broker.servers[id]? = some server →
    names.Perm server.queueNames →
    Moves limits broker (.start id names) (broker.start id server names)
  | publish {publication now changed} :
    (broker.publish limits publication now).map Prod.fst = .ok changed →
    Moves limits broker (.publish publication now) changed
  | iterate {id queue now} :
    broker.queues[id]? = some queue →
    Moves limits broker (.iterate id now) (broker.iterate id queue now)
  | settle {id server delivery outcome changed} :
    broker.servers[id]? = some server →
    broker.settle limits id server delivery outcome = .ok changed →
    Moves limits broker (.settle id delivery outcome) changed
  | dispatched {id server delivery encoded result} :
    broker.servers[id]? = some server →
    Moves limits broker (.dispatched id delivery result)
      (broker.dispatched limits id server delivery encoded result)
  | stopIntake {id server changed} :
    broker.servers[id]? = some server →
    broker.stopIntake id server = .ok changed →
    Moves limits broker (.stopIntake id) changed
  | close {id server} :
    broker.servers[id]? = some server →
    Moves limits broker (.close id) (broker.close id server)
  | resume {index closing server} :
    broker.closing[index]? = some closing →
    broker.servers[closing.server]? = some server →
    Moves limits broker (.resume index)
      ({ broker with closing := broker.closing.eraseIdx index }.resume closing.server
        server.replicaId closing.stage)

section
variable {limits : BrokerLimits} {broker broker' : Broker} {id : ServerId} {server : Server}

lemma moves_orElse {action result}
    (h : ∀ changed, result = .ok changed → Moves limits broker action changed) :
    Moves limits broker action (broker.orElse result) := by
  cases result with
  | ok changed => exact h changed rfl
  | error => exact .raised

lemma step_moves {action} (h : step limits broker action = some broker') :
    Moves limits broker action broker' := by
  cases action with
  | create service replicaId prefetch =>
    rw [step] at h
    split at h
    · rename_i pos
      cases h
      exact .create pos
    · cases h
  | prepare =>
    obtain ⟨server, found, h⟩ := bind_some.mp h
    cases h
    exact moves_orElse fun _ made => .prepare found made
  | start id names =>
    obtain ⟨server, found, h⟩ := bind_some.mp h
    split at h
    · rename_i perm
      cases h
      exact .start found perm
    · cases h
  | publish =>
    cases h
    exact moves_orElse fun _ made => .publish made
  | iterate =>
    obtain ⟨_, found, h⟩ := bind_some.mp h
    split at h
    · cases h
      exact .iterate found
    · cases h
  | settle =>
    obtain ⟨server, found, h⟩ := bind_some.mp h
    cases h
    exact moves_orElse fun _ made => .settle found made
  | dispatched =>
    obtain ⟨server, found, h⟩ := bind_some.mp h
    obtain ⟨_, -, h⟩ := bind_some.mp h
    cases h
    exact .dispatched found
  | stopIntake =>
    obtain ⟨server, found, h⟩ := bind_some.mp h
    cases h
    exact moves_orElse fun _ made => .stopIntake found made
  | close =>
    obtain ⟨server, found, h⟩ := bind_some.mp h
    cases h
    exact .close found
  | resume =>
    obtain ⟨_, closes, h⟩ := bind_some.mp h
    obtain ⟨_, found, h⟩ := bind_some.mp h
    cases h
    exact .resume closes found

lemma find_some {name queueId} (h : broker.find name = some queueId) :
    ∃ queue, broker.queues[queueId]? = some queue ∧ queue.listed = true ∧ queue.name = name := by
  obtain ⟨lt, found, -⟩ := List.findIdx?_eq_some_iff_getElem.mp h
  refine ⟨broker.queues[queueId], List.getElem?_eq_getElem lt, ?_⟩
  simpa using found

lemma find_none {name} : broker.find name = none ↔
    ∀ (id : QueueId) (queue : Queue), broker.queues[id]? = some queue → queue.listed = true →
      queue.name ≠ name := by
  rw [find, List.findIdx?_eq_none_iff]
  constructor
  · intro h id queue mem listed same
    simpa [listed, same] using h queue (List.mem_of_getElem? mem)
  · intro h queue mem
    obtain ⟨id, hid⟩ := List.mem_iff_getElem?.mp mem
    have := h id queue hid
    simpa using this

lemma mem_listedQueues {queueId} : queueId ∈ broker.listedQueues ↔
    ∃ queue, broker.queues[queueId]? = some queue ∧ queue.listed = true := by
  rw [listedQueues, List.mem_filter, List.mem_range, Option.any_eq_true]
  constructor
  · exact fun h => h.2
  · rintro ⟨queue, h, listed⟩
    exact ⟨(List.getElem?_eq_some_iff.mp h).1, queue, h, listed⟩

lemma prepare_ok {rpcMethods subscriptions}
    (h : broker.prepare id server rpcMethods subscriptions = .ok broker') :
    server.status = .created ∧
      (∀ other ∈ broker.servers.zipIdx,
        other.1.registered = true → other.1.replicaId = server.replicaId → other.2 = id) ∧
      broker' = (subscriptions.foldl (registerSubscription id)
        (registerService id broker server.service)).setStatus id .prepared := by
  rw [prepare, then_ok, requireStatus, require_ok] at h
  obtain ⟨status, h⟩ := h
  obtain ⟨_, hregistered, h⟩ := bind_ok.mp h
  cases h
  rw [registerServer, then_ok, then_ok, then_ok, require_ok] at hregistered
  obtain ⟨replica, -, -, hregistered⟩ := hregistered
  cases hregistered
  exact ⟨status, replica, rfl⟩

lemma publish_ok {publication now}
    (h : (broker.publish limits publication now).map Prod.fst = .ok broker') :
    let names := broker.routes.select publication.routingKey publication.native
    checkCapacity limits broker names = .ok () ∧
      broker' = names.foldl (enqueue publication) broker := by
  obtain ⟨⟨_, _⟩, hpublished, rfl⟩ := map_ok.mp h
  rw [publish, then_ok, then_ok] at hpublished
  obtain ⟨-, room, hpublished⟩ := hpublished
  cases hpublished
  exact ⟨room, rfl⟩

lemma settle_ok {delivery outcome}
    (h : broker.settle limits id server delivery outcome = .ok broker') :
    ∃ name queueId queue record, server.deliveryQueues.lookup delivery = some name ∧
      broker.find name = some queueId ∧ broker.queues[queueId]? = some queue ∧
      queue.deliveries.find? (·.delivery = delivery) = some record ∧
      broker' = broker.settleRecord limits id server queueId queue record outcome := by
  unfold settle at h
  split at h
  · cases h
  rename_i name hname
  split at h
  · cases h
  rename_i queueId found
  split at h
  · cases h
  rename_i queue record hrecord
  cases h
  obtain ⟨_, hqueue, hfind⟩ := bind_some.mp hrecord
  obtain ⟨_, hfind, same⟩ := Option.map_eq_some_iff.mp hfind
  cases same
  exact ⟨name, queueId, queue, record, hname, found, hqueue, hfind, rfl⟩

end

end Broker

end ToriPy.Microservices
