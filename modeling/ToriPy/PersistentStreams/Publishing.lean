import ToriPy.Base.Table
import ToriPy.PersistentStreams.EnvelopeRoundTrip
import ToriPy.PersistentStreams.RabbitStreams

/-!
# Publication to RabbitMQ

`append` of `publishing.py` with every interleaving of its calls. What a call does between two
suspensions is one step of it; the stages name the suspensions. The admission lock is never held over
one, so admission is part of the first step. A lock is held by the calls that are inside its block:
the lock of a slot by the call in a stage behind `lock`, the resource lock by the call that starts a
producer.

The driver and the broker are the environment. `send_wait` puts the message on its way to the broker;
a call that ends before its confirmation leaves the message on its way. The broker stores a named
message whose ID is above the last one of its producer, ignores it otherwise, and confirms both; the
driver knows a confirmation by the producer and the ID. The sequence query runs on another connection
and reads what the broker has stored so far. What the broker holds at the start is arbitrary.

`close` is left out: afterwards there is no metadata client, and no named call passes its query.
-/

namespace ToriPy.PersistentStreams.RabbitMq.Publishing

/-- What `append` raises: the errors of the adapter, those of the envelope, and the exceptions of the
driver, among them `TimeoutError`. -/
inductive Failure where
  | rabbit (error : RabbitError)
  | envelope (failure : EnvelopeFailure)
  | native (exception : String)

/-- How a call ends. -/
inductive Result where
  | returned (receipt : PublishReceipt)
  | raised (failure : Failure)
  | cancelled

/-- Where a call of `append` is suspended. -/
inductive Stage where
  /-- It waits for the resource lock in `_publisher_slot`. -/
  | slot
  /-- It waits for the lock of its slot. -/
  | lock
  /-- The sequence query is on its way to the broker. -/
  | querying
  /-- The answer to the query is on its way back. -/
  | answered (sequence : Nat)
  /-- It waits for the resource lock in `_publisher`. -/
  | publisher
  /-- It starts the producer of its slot. -/
  | starting
  /-- `send_wait` has not sent the message yet. -/
  | sending
  /-- It waits for the confirmation. -/
  | confirming
  | ended
deriving DecidableEq

/-- The call is inside the block of its slot's lock. -/
def Stage.holds : Stage → Bool
  | .slot | .lock | .ended => false
  | .querying | .answered _ | .publisher | .starting | .sending | .confirming => true

/-- A call of `append` that passed its first checks. -/
structure Call where
  stream : String
  partition : Nat
  physical : String
  request : AppendRequest
  body : Bytes
  size : Nat
  stage : Stage

def Call.slotKey (call : Call) : String × Option String :=
  (call.physical, call.request.producer.map Prod.fst)

def Call.receipt (call : Call) (outcome : PublishOutcome) (facts : List String) : PublishReceipt :=
  ⟨call.request.recordId, call.partition, outcome, facts⟩

/-- A message that was handed to the driver by the call with the number `call`. -/
structure Message where
  call : Nat
  physical : String
  producer : Option (String × Nat)
  body : Bytes

/-- The end of a call: the stream and the request that it was made with, and its result. -/
structure Answer where
  stream : String
  request : AppendRequest
  result : Result

/-- The broker: the bodies in its streams, the last publishing ID of each producer in each stream,
and the messages that it has received. -/
structure Broker where
  stored : List (String × Bytes)
  sequences : Dict (String × String) Nat
  received : List Message := []

/-- The last publishing ID of a producer, zero if there is none. -/
def Broker.sequence (broker : Broker) (physical name : String) : Nat :=
  (broker.sequences.lookup (physical, name)).getD 0

def Broker.accepts (broker : Broker) (message : Message) : Bool :=
  match message.producer with
  | none => true
  | some (name, publishingId) => broker.sequence message.physical name < publishingId

/-- The last publishing IDs once a message is stored. -/
def Broker.advanced (broker : Broker) (message : Message) : Dict (String × String) Nat :=
  match message.producer with
  | none => broker.sequences
  | some (name, publishingId) => broker.sequences.insert (message.physical, name) publishingId

def Broker.receive (broker : Broker) (message : Message) : Broker where
  stored :=
    if broker.accepts message then broker.stored ++ [(message.physical, message.body)]
    else broker.stored
  sequences := if broker.accepts message then broker.advanced message else broker.sequences
  received := broker.received ++ [message]

/-- The options of publication, and the size of an encoded AMQP message. -/
structure Setup where
  maxPendingCount : Nat := 1024
  maxPendingBytes : Nat := 67108864
  maxNamedProducers : Nat := 1024
  frameMax : Nat := 1048576
  amqpSize : UUID → Bytes → Nat

/-- The log, its calls and the broker. `history` are the ends of the calls, in their order. -/
structure World where
  log : RabbitLog
  slots : Dict (String × Option String) Bool := ∅
  coordinates : Dict (String × Nat × String) (Nat × AppendRequest) := ∅
  pending : List Nat := []
  pendingBytes : Nat := 0
  calls : List Call := []
  inFlight : List Message := []
  broker : Broker
  history : List Answer := []

namespace World

/-! ### The parts of a call -/

/-- The checks of `append` before its admission. -/
def prepare (w : World) (setup : Setup) (stream : String) (answer : RouterAnswer)
    (request : AppendRequest) : Except Failure Call := do
  let (partition, physical) ← (w.log.route stream answer request).mapError Failure.rabbit
  let definition ← (w.log.definition stream).mapError Failure.rabbit
  let body ← (encodeEnvelope (.ofRequest request) (envelopeLimits definition)).mapError
    Failure.envelope
  require (∀ p ∈ request.producer, (encodeUtf8 p.1).length ≤ 255)
    (.rabbit (.streams (.validation "producer_name exceeds the protocol string limit")))
  require (∀ p ∈ request.producer, p.2 ≠ 0)
    (.rabbit (.streams (.validation "RabbitMQ named publishing IDs must start at one")))
  let size := setup.amqpSize request.recordId body + 64
  require (size ≤ setup.frameMax)
    (.rabbit (.streams (.resourceLimit "encoded AMQP message exceeds frame_max")))
  return { stream, partition, physical, request, body, size, stage := .slot }

def moved (w : World) (i : Nat) (call : Call) (stage : Stage) : World :=
  { w with calls := w.calls.set i { call with stage } }

/-- A call ends: it leaves the locks that it holds and gives its admission back. -/
def finish (w : World) (i : Nat) (call : Call) (result : Result) : World :=
  { w.moved i call .ended with
    pending := w.pending.erase i
    pendingBytes := w.pendingBytes - call.size
    history := w.history ++ [⟨call.stream, call.request, result⟩] }

/-- `append` up to its first suspension. -/
def append (w : World) (setup : Setup) (stream : String) (answer : RouterAnswer)
    (request : AppendRequest) : World :=
  match w.prepare setup stream answer request with
  | .error failure => { w with history := w.history ++ [⟨stream, request, .raised failure⟩] }
  | .ok call =>
    if setup.maxPendingCount ≤ w.pending.length ∨
        setup.maxPendingBytes < w.pendingBytes + call.size then
      { w with history := w.history ++ [⟨stream, request,
          .returned (call.receipt .backpressured ["local-admission-rejected"])⟩] }
    else
      { w with
        calls := w.calls ++ [call]
        pending := w.pending ++ [w.calls.length]
        pendingBytes := w.pendingBytes + call.size }

def namedSlots (w : World) : Nat := w.slots.keys.countP (·.2.isSome)

/-- `_publisher_slot`, once it has the resource lock. -/
def publisherSlot (w : World) (setup : Setup) (i : Nat) (call : Call) : World :=
  if (w.slots.lookup call.slotKey).isSome then w.moved i call .lock
  else if call.request.producer.isSome ∧ setup.maxNamedProducers ≤ w.namedSlots then
    w.finish i call
      (.raised (.rabbit (.streams (.resourceLimit "named producer resource limit reached"))))
  else { w.moved i call .lock with slots := w.slots.insert call.slotKey false }

/-- What `_append_locked` finds in the table of confirmed requests: nothing that stands against the
request, or the result. -/
def localResult (w : World) (call : Call) : Option Result :=
  match call.request.producer with
  | none => none
  | some (name, publishingId) =>
    match w.coordinates.lookup (call.stream, call.partition, name) with
    | none => none
    | some (latest, request) =>
      if publishingId < latest then
        some (.raised (.rabbit (.streams (.stalePublishingId "publishing ID is stale"))))
      else if latest = publishingId then
        if request.eq call.request then
          some (.returned (call.receipt .deduplicated ["local-confirmed-publisher-coordinate"]))
        else
          some (.raised (.rabbit (.streams (.publishingConflict "publishing ID request differs"))))
      else none

/-- `_append_locked`, once the call has the lock of its slot, up to the next suspension. -/
def enter (w : World) (i : Nat) (call : Call) : World :=
  match w.localResult call with
  | some result => w.finish i call result
  | none => w.moved i call (if call.request.producer.isSome then .querying else .sending)

/-- `query_publisher_sequence`: what the broker answers now. -/
def querySequence (w : World) (call : Call) (name : String) : Except Failure Nat := do
  let definition ← (w.log.definition call.stream).mapError Failure.rabbit
  require (call.partition < definition.partitionCount)
    (.rabbit (.streams (.invalidPartition "partition is outside the stream")))
  return w.broker.sequence (physicalName definition call.partition) name

def query (w : World) (i : Nat) (call : Call) : Option World :=
  call.request.producer.map fun producer =>
    match w.querySequence call producer.1 with
    | .ok sequence => w.moved i call (.answered sequence)
    | .error failure => w.finish i call (.raised failure)

/-- `_append_locked` behind the query, up to the next suspension. -/
def resume (w : World) (i : Nat) (call : Call) (sequence : Nat) : Option World :=
  call.request.producer.map fun producer =>
    if producer.2 < sequence then
      w.finish i call (.raised (.rabbit (.streams (.stalePublishingId "publishing ID is stale"))))
    else if sequence = producer.2 then
      w.finish i call (.returned (call.receipt .indeterminate
        ["broker-sequence-exists", "cross-restart-content-association-unsupported"]))
    else if w.slots.lookup call.slotKey = some true then w.moved i call .sending
    else w.moved i call .publisher

/-- `_publisher`, once it has the resource lock. -/
def publisher (w : World) (i : Nat) (call : Call) : World :=
  if w.slots.lookup call.slotKey = some true then w.moved i call .sending
  else w.moved i call .starting

def started (w : World) (i : Nat) (call : Call) : World :=
  { w.moved i call .sending with slots := w.slots.insert call.slotKey true }

/-- `send_wait` sends the message. -/
def transmit (w : World) (i : Nat) (call : Call) : World :=
  { w.moved i call .confirming with
    inFlight := w.inFlight ++ [⟨i, call.physical, call.request.producer, call.body⟩] }

/-- A confirmation that the driver takes for that of a call: of its message, or of one with its
producer and publishing ID. -/
def Confirms (i : Nat) (call : Call) (message : Message) : Prop :=
  message.call = i ∨ message.physical = call.physical ∧ message.producer = call.request.producer ∧
    call.request.producer.isSome

instance (i : Nat) (call : Call) (message : Message) : Decidable (Confirms i call message) :=
  inferInstanceAs (Decidable (_ ∨ _))

/-- The table of confirmed requests with the request of a call. -/
def remembered (w : World) (call : Call) : Dict (String × Nat × String) (Nat × AppendRequest) :=
  match call.request.producer with
  | none => w.coordinates
  | some (name, publishingId) =>
    w.coordinates.insert (call.stream, call.partition, name) (publishingId, call.request)

/-- `send_wait` returns. -/
def confirm (w : World) (i : Nat) (call : Call) : World :=
  { w.finish i call (.returned (call.receipt .confirmed ["rabbitmq-stream-confirmed"])) with
    coordinates := w.remembered call }

/-- An exception of `_publisher` or `send_wait`, as `_append_locked` answers it. -/
def excepted (call : Call) (exception : String) : Result :=
  if exception = "TimeoutError" then
    .returned (call.receipt .timedOut ["confirm-deadline-expired", "acceptance-indeterminate"])
  else .returned (call.receipt .indeterminate [exception, "acceptance-indeterminate"])

/-! ### The system -/

/-- What can happen. The calls and the messages on their way are known by their numbers. -/
inductive Action where
  | append (stream : String) (answer : RouterAnswer) (request : AppendRequest)
  | publisherSlot (i : Nat)
  | enter (i : Nat)
  | query (i : Nat)
  | failQuery (i : Nat) (exception : String)
  | resume (i : Nat)
  | publisher (i : Nat)
  | started (i : Nat)
  | transmit (i : Nat)
  | confirm (i : Nat)
  | except (i : Nat) (exception : String)
  | cancel (i : Nat)
  | deliver (k : Nat)
  | lose (k : Nat)
  | foreign (physical : String) (body : Bytes)
  | declare (definition : StreamDefinition) (answers : BrokerAnswers)
  | configure (options : Options) (closed accepting : Bool)

def resourceLocked (w : World) : Bool := w.calls.any (·.stage = .starting)

def locked (w : World) (key : String × Option String) : Bool :=
  w.calls.any fun call => call.slotKey = key && call.stage.holds

def during (w : World) (i : Nat) (stages : Stage → Bool) (act : Call → Option World) :
    Option World :=
  (w.calls[i]?).bind fun call => if stages call.stage then act call else none

/-- The declared streams after `declare_stream`, which changes nothing when it raises. -/
def declared (log : RabbitLog) (answers : BrokerAnswers) (definition : StreamDefinition) :
    RabbitLog :=
  match log.declareStream answers definition with
  | .ok log' => log'
  | .error _ => log

def step (setup : Setup) (w : World) : Action → Option World
  | .append stream answer request => some (w.append setup stream answer request)
  | .publisherSlot i => w.during i (· = .slot) fun call =>
      if w.resourceLocked then none else some (w.publisherSlot setup i call)
  | .enter i => w.during i (· = .lock) fun call =>
      if w.locked call.slotKey then none else some (w.enter i call)
  | .query i => w.during i (· = .querying) (w.query i)
  | .failQuery i exception => w.during i (· = .querying) fun call =>
      some (w.finish i call (.raised (.native exception)))
  | .resume i => w.during i (fun _ => true) fun call =>
      match call.stage with
      | .answered sequence => w.resume i call sequence
      | _ => none
  | .publisher i => w.during i (· = .publisher) fun call =>
      if w.resourceLocked then none else some (w.publisher i call)
  | .started i => w.during i (· = .starting) fun call => some (w.started i call)
  | .transmit i => w.during i (· = .sending) fun call => some (w.transmit i call)
  | .confirm i => w.during i (· = .confirming) fun call =>
      if ∃ message ∈ w.broker.received, Confirms i call message then some (w.confirm i call) else none
  | .except i exception =>
      w.during i (fun stage => stage = .starting ∨ stage = .sending ∨ stage = .confirming) fun call =>
        some (w.finish i call (excepted call exception))
  | .cancel i => w.during i (· ≠ .ended) fun call => some (w.finish i call .cancelled)
  | .deliver k => (w.inFlight[k]?).map fun message =>
      { w with inFlight := w.inFlight.eraseIdx k, broker := w.broker.receive message }
  | .lose k => some { w with inFlight := w.inFlight.eraseIdx k }
  | .foreign physical body =>
      some { w with broker := { w.broker with stored := w.broker.stored ++ [(physical, body)] } }
  | .declare definition answers => some { w with log := declared w.log answers definition }
  | .configure options closed accepting =>
      some { w with log := { w.log with options, closed, accepting } }

end World

end ToriPy.PersistentStreams.RabbitMq.Publishing
