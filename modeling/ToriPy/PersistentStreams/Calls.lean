import ToriPy.PersistentStreams.Leases
import ToriPy.Base.Transition

/-!
# Calls in progress and their interleavings

A call of `acquire`, `next_record`, `checkpoint` or `ConsumerRunner.run_once` is a list of sections
with places in between where it can be suspended. `Pc` is such a place with the local variables of
the call, `Sys.advance` runs the section behind it, and `World.step` lets any call go on, any new
call begin and any suspended call be cancelled. A run is thus any interleaving of sections.

No block under a lock awaits, so a lock is never contended and taking it suspends nobody. The wait
of a transfer and the calls of an external store are the real places of suspension. The model lets
other calls run between all sections of `_initialize`, `next_record` and `checkpoint`, which gives
at least the runs the source has. The two sections of `acquire` are one step unless the call waits
between them, since the lease limit is checked in the first and relied upon in the second.

Cleanup is shielded: once `_cancel_acquire` or `_failed_initialization` is due it runs to its end.
The release of a cancelled `run_once` is not: a second cancellation drops it.
-/

namespace ToriPy.PersistentStreams

/-- How a call of an external checkpoint store goes: it may also fail before or after its effect. -/
inductive StoreReply where
  | answers
  | failsBefore
  | failsAfter

/-- How a record handler ends, cancellation apart. `interrupted` is a `KeyboardInterrupt` or a
`SystemExit`. -/
inductive HandlerReply where
  | returns
  | raises
  | interrupted

/-- What the code around the log does when a call goes on. -/
structure Env where
  clock : ClockReading := .raised
  store : StoreReply := .answers
  handler : HandlerReply := .returns

/-- A writing call of a store (`validate_checkpoint_store_call`): what it raises, and the state
after. -/
def StoreReply.call (reply : StoreReply) (s : Sys) (cursor : Option ResumeCursor)
    (result : Except StreamsError Sys) : Option StreamsError × Sys :=
  match reply, result with
  | .failsBefore, _ => (some (.checkpointPersistence cursor .foreign), s)
  | _, .error e => (some (.checkpointPersistence cursor e), s)
  | .failsAfter, .ok s' => (some (.checkpointPersistence cursor .foreign), s')
  | .answers, .ok s' => (none, s')

/-- `load` of a store. -/
def StoreReply.load (reply : StoreReply) (store : CheckpointStore) (key : CheckpointKey) :
    Except StreamsError (Option ResumeCursor) :=
  match reply with
  | .answers => .ok (store.cursors.lookup key)
  | _ => .error (.checkpointPersistence none .foreign)

/-- What a call ended with. -/
inductive Outcome where
  | acquired (lease : LeaseId)
  | record (record : Option StoredRecord)
  | checkpointed
  | processed (count : Nat)
  | raised (error : StreamsError)

/-- Where `_initialize` and what follows it stand. -/
inductive InitStage where
  | fence
  | load
  | resolve
  | create (cursor : ResumeCursor)
  | owner
  | broker
  | finish
  | failed (error : StreamsError)

/-- Where an `acquire` behind its first section stands: with nothing to wait for, waiting for the
delivery of a lease since its event had been set `since` times, cleaning up before an installation,
initializing the lease it installed, or giving its reservation back when that failed. -/
inductive AcquireStage where
  | entered
  | wait (lease : LeaseId) (since : Nat)
  | cancel (error : StreamsError)
  | init (lease : LeaseId) (stage : InitStage)
  | unreserve (error : StreamsError)

/-- Where a `next_record`, a `checkpoint` or a `run_once` stands. -/
inductive ConsumeStage where
  | nextLoad
  | nextOwner (cursor : ResumeCursor)
  | nextDeliver (cursor : ResumeCursor)
  | nextStop (error : StreamsError)
  | handling (record : StoredRecord)
  | checkpointEnter (ref : RecordRef)
  | checkpointLoad (record : StoredRecord)
  | checkpointOwner (record : StoredRecord) (expected : ResumeCursor)
  | saveOwner (record : StoredRecord) (expected : ResumeCursor)
  | save (record : StoredRecord) (expected : ResumeCursor)
  | complete (record : StoredRecord)
  | commit (record : StoredRecord) (expected : ResumeCursor)
  | checkpointStop (record : StoredRecord) (error : StreamsError)
  | runnerStop (error : StreamsError)
  | runnerRelease (error : StreamsError)

/-- Who called `next_record` or `checkpoint`: the application, or a `run_once` that has processed
some records of at most `limit`. -/
inductive Caller where
  | application
  | runner (limit processed : Nat)

def Caller.isRunner : Caller → Bool
  | .application => false
  | .runner _ _ => true

/-- A call: in progress, or ended. -/
inductive Pc where
  | acquire (f : AcquireFrame) (stage : AcquireStage)
  | consume (lease : LeaseId) (caller : Caller) (stage : ConsumeStage)
  | finished (outcome : Outcome)

/-- `next_record` is called: refused on an inactive lease. -/
def nextRecord (id : LeaseId) (lease : Lease) (caller : Caller) : Pc :=
  match lease.requireActive with
  | .ok _ => .consume id caller .nextLoad
  | .error e => .finished (.raised e)

/-- `next_record` returned. -/
def nextReturned (id : LeaseId) (record : Option StoredRecord) : Caller → Pc
  | .application => .finished (.record record)
  | .runner limit processed =>
    match record with
    | none => .finished (.processed processed)
    | some record => .consume id (.runner limit processed) (.handling record)

/-- `checkpoint` raised. A runner stops its lease and passes on ownership and persistence errors. -/
def checkpointRaised (id : LeaseId) (record : StoredRecord) (error : StreamsError) : Caller → Pc
  | .application => .finished (.raised error)
  | .runner limit processed =>
    .consume id (.runner limit processed) <| .runnerStop <|
      match error with
      | .checkpointPersistence _ _ => error
      | .ownership _ => error
      | _ => .checkpointPersistence (some (.lastSuccessful record.offset)) error

/-- `checkpoint` is called: refused on an inactive lease. -/
def checkpoint (id : LeaseId) (lease : Lease) (ref : RecordRef) (caller : Caller) : Pc :=
  match lease.requireActive with
  | .ok _ => .consume id caller (.checkpointEnter ref)
  | .error e => checkpointRaised id ref.record e caller

/-- `checkpoint` returned: a runner counts the record and goes on to its limit. -/
def checkpointReturned (id : LeaseId) (lease : Lease) : Caller → Pc
  | .application => .finished .checkpointed
  | .runner limit processed =>
    if processed + 1 < limit then nextRecord id lease (.runner limit (processed + 1))
    else .finished (.processed (processed + 1))

/-- A loaded cursor that is missing although the lease was initialized. -/
def missingCursor : StreamsError :=
  .checkpointPersistence none
    (.adapterContract "checkpoint load returned None after initialization")

namespace Sys

/-- The second section of `acquire` and where the call goes from there. -/
def acquireInstall (s : Sys) (f : AcquireFrame) : Sys × Pc :=
  match s.install f with
  | .error e => (s, .acquire f (.cancel e))
  | .ok s' =>
    (s', .acquire f (.init s.objects.length (if f.binding.store.isSome then .fence else .broker)))

/-- Where `acquire` goes from its first section: a transfer waits while the event of the delivery in
flight is clear. -/
def afterEnter (s : Sys) (f : AcquireFrame) : AcquireStage :=
  match f.currentLease with
  | none => .entered
  | some id =>
    match s.objects[id]? with
    | none => .entered
    | some lease =>
      if lease.inFlight.isSome ∧ lease.deliveryCompleted.value = false then
        .wait id lease.deliveryCompleted.sets
      else .entered

/-- One section of `_initialize`, or of what follows it. -/
def advanceInit (s : Sys) (env : Env) (f : AcquireFrame) (id : LeaseId) (lease : Lease) :
    InitStage → Option (Sys × Pc)
  | .fence => do
    let store ← lease.store
    let (error, s') := env.store.call s none (.ok (s.fence lease store))
    match error with
    | none => some (s', .acquire f (.init id .load))
    | some e => some (s', .acquire f (.init id (.failed e)))
  | .load => do
    let store ← lease.store
    match env.store.load (s.stores store) lease.key with
    | .ok none => some (s, .acquire f (.init id .resolve))
    | .ok (some _) => some (s, .acquire f (.init id .owner))
    | .error e => some (s, .acquire f (.init id (.failed e)))
  | .resolve =>
    match s.resolvedStart lease env.clock with
    | .ok start => some (s, .acquire f (.init id (.create (.initialized start))))
    | .error e => some (s, .acquire f (.init id (.failed e)))
  | .create cursor => do
    let store ← lease.store
    let (error, s') := env.store.call s (some cursor) (s.createCursor lease store cursor)
    match error with
    | none => some (s', .acquire f (.init id .owner))
    | some e => some (s', .acquire f (.init id (.failed e)))
  | .owner =>
    match s.log.requireOwner lease.key lease.owner with
    | .ok _ => some (s, .acquire f (.init id .finish))
    | .error e => some (s, .acquire f (.init id (.failed e)))
  | .broker =>
    match s.initBroker lease env.clock with
    | .ok s' => some (s', .acquire f (.init id .finish))
    | .error e => some (s, .acquire f (.init id (.failed e)))
  | .finish => some (s.finishAcquire f id lease, .finished (.acquired id))
  | .failed e => some (s.release id lease, .acquire f (.unreserve e))

/-- One section of an `acquire` behind its first. -/
def advanceAcquire (s : Sys) (env : Env) (f : AcquireFrame) : AcquireStage → Option (Sys × Pc)
  | .entered => none -- not suspended: the step that called `acquire` goes on from here
  | .wait id since => do
    let lease ← s.objects[id]?
    if since < lease.deliveryCompleted.sets then some (s.acquireInstall f) else none
  | .cancel e => some (s.cancelAcquire f, .finished (.raised e))
  | .init id stage => do
    let lease ← s.objects[id]?
    s.advanceInit env f id lease stage
  | .unreserve e => some (s.unreserve f, .finished (.raised e))

/-- One section of `next_record`, `checkpoint` or `run_once`. -/
def advanceConsume (s : Sys) (env : Env) (id : LeaseId) (lease : Lease) (c : Caller) :
    ConsumeStage → Option (Sys × Pc)
  | .nextLoad =>
    match lease.store with
    | none =>
      match s.loadBroker lease with
      | .ok cursor => some (s, .consume id c (.nextDeliver cursor))
      | .error e => some (s, .finished (.raised e))
    | some store =>
      match env.store.load (s.stores store) lease.key with
      | .ok (some cursor) => some (s, .consume id c (.nextOwner cursor))
      | .ok none => some (s, .consume id c (.nextStop missingCursor))
      | .error e => some (s, .consume id c (.nextStop e))
  | .nextOwner cursor =>
    match s.log.requireOwner lease.key lease.owner with
    | .ok _ => some (s, .consume id c (.nextDeliver cursor))
    | .error e => some (s, .finished (.raised e))
  | .nextDeliver cursor =>
    match s.deliver id lease cursor with
    | .ok (record, s') => some (s', nextReturned id record c)
    | .error e => some (s, .finished (.raised e))
  | .nextStop e => some (s.stop id, .finished (.raised e))
  | .handling record =>
    match env.handler with
    | .returns =>
      some (s.emit (.handled lease.key lease.owner record),
        checkpoint id lease (.stored record) c)
    | .raises =>
      some (s, .consume id c
        (.runnerStop (.poisonRecord lease.key record.offset record.recordId .foreign)))
    | .interrupted => some (s, .consume id c (.runnerRelease .foreign))
  | .checkpointEnter ref =>
    match s.checkpointChecks lease ref with
    | .ok record => some (s, .consume id c (.checkpointLoad record))
    | .error e => some (s, checkpointRaised id ref.record e c)
  | .checkpointLoad record =>
    match lease.store with
    | none =>
      match s.loadBroker lease with
      | .ok expected => some (s, .consume id c (.commit record expected))
      | .error e => some (s, checkpointRaised id record e c)
    | some store =>
      match env.store.load (s.stores store) lease.key with
      | .ok (some expected) => some (s, .consume id c (.checkpointOwner record expected))
      | .ok none => some (s, .consume id c (.checkpointStop record missingCursor))
      | .error e => some (s, .consume id c (.checkpointStop record e))
  | .checkpointOwner record expected =>
    match s.log.requireOwner lease.key lease.owner with
    | .ok _ => some (s, .consume id c (.saveOwner record expected))
    | .error e => some (s, checkpointRaised id record e c)
  | .saveOwner record expected =>
    match s.log.requireOwner lease.key lease.owner with
    | .ok _ => some (s, .consume id c (.save record expected))
    | .error e => some (s, checkpointRaised id record e c)
  | .save record expected => do
    let store ← lease.store
    let (error, s') := env.store.call s (some (.lastSuccessful record.offset))
      (s.saveCursor lease store record expected c.isRunner)
    match error with
    | none => some (s', .consume id c (.complete record))
    | some e => some (s', .consume id c (.checkpointStop record e))
  | .complete record =>
    match s.complete id lease with
    | .ok s' => some (s', checkpointReturned id lease c)
    | .error e => some (s, checkpointRaised id record e c)
  | .commit record expected =>
    match s.commitBroker id lease record expected c.isRunner with
    | .ok s' => some (s', checkpointReturned id lease c)
    | .error e => some (s, checkpointRaised id record e c)
  | .checkpointStop record e => some (s.stop id, checkpointRaised id record e c)
  | .runnerStop e => some (s.stop id, .finished (.raised e))
  | .runnerRelease e => some (s.release id lease, .finished (.raised e))

def advance (s : Sys) (env : Env) : Pc → Option (Sys × Pc)
  | .acquire f stage => s.advanceAcquire env f stage
  | .consume id c stage => do
    let lease ← s.objects[id]?
    s.advanceConsume env id lease c stage
  | .finished _ => none

/-- Whether a lease was returned by `acquire`, so that the application can call it. -/
def returned (s : Sys) (id : LeaseId) : Bool :=
  s.trace.any fun
    | .acquired lease _ _ => lease = id
    | _ => false

end Sys

/-- Where `asyncio.CancelledError` takes a suspended call. -/
def Pc.cancel : Pc → Option Pc
  | .acquire f (.wait _ _) => some (.acquire f (.cancel .cancelled))
  | .acquire _ (.init _ .finish) => none
  | .acquire _ (.init _ (.failed _)) => none
  | .acquire f (.init id _) => some (.acquire f (.init id (.failed .cancelled)))
  | .acquire _ _ => none
  | .consume _ _ (.nextStop _) => none
  | .consume _ _ (.checkpointStop _ _) => none
  | .consume _ _ (.runnerStop _) => none
  | .consume _ _ (.runnerRelease _) => some (.finished (.raised .cancelled))
  | .consume _ .application _ => some (.finished (.raised .cancelled))
  | .consume id (.runner limit processed) _ =>
    some (.consume id (.runner limit processed) (.runnerRelease .cancelled))
  | .finished _ => none

/-- The log with everything around it, and the calls made so far, each by its number. -/
structure World where
  sys : Sys
  calls : List Pc := []

/-- What can happen next: a call that is one section, a new call, or a call in progress that goes on
or is cancelled. -/
inductive Action where
  | declareStream (definition : StreamDefinition)
  | append (clock : ClockReading) (answer : RouterAnswer) (stream : String)
      (request : AppendRequest)
  | trim (stream : String) (partition beforeOffset : Int)
  | close
  | acquire (subscription : Subscription) (partition : Int) (binding : StrategyBinding)
      (transfer : Bool)
  | nextRecord (lease : LeaseId)
  | checkpoint (lease : LeaseId) (ref : RecordRef)
  | runOnce (lease : LeaseId) (limit : Nat)
  | stop (lease : LeaseId)
  | release (lease : LeaseId)
  | resume (call : Nat) (env : Env)
  | cancel (call : Nat)

namespace World

/-- A log at its construction, with nothing called yet. -/
def start (maxActiveLeases : ℕ+) : World :=
    { sys := { log := { maxActiveLeases := maxActiveLeases } } }

/-- The lease object behind a lease the application has. -/
def lease? (w : World) (id : LeaseId) : Option Lease :=
  if w.sys.returned id then w.sys.objects[id]? else none

/-- A call begins at `pc`. -/
def begin (w : World) (pc : Pc) : World := { w with calls := w.calls ++ [pc] }

/-- `acquire` is called: up to its wait, or through both sections. -/
def acquire (w : World) (subscription : Subscription) (partition : Int) (binding : StrategyBinding)
    (transfer : Bool) : World :=
  match w.sys.acquireEnter subscription partition binding transfer w.calls.length with
  | (.error e, s) => { sys := s, calls := w.calls ++ [.finished (.raised e)] }
  | (.ok f, s) =>
    match s.afterEnter f with
    | .entered => { sys := (s.acquireInstall f).1, calls := w.calls ++ [(s.acquireInstall f).2] }
    | stage => { sys := s, calls := w.calls ++ [.acquire f stage] }

def step (w : World) : Action → Option World
  | .declareStream definition =>
    match w.sys.log.declareStream definition with
    | .ok log => some { w with sys := { w.sys with log := log } }
    | .error _ => some w
  | .append clock answer stream request =>
    match w.sys.log.append clock answer stream request with
    | .ok ⟨_, stored, log⟩ =>
      some { w with
        sys := { w.sys with log := log, trace := w.sys.trace ++ stored.toList.map .stored } }
    | .error _ => some w
  | .trim stream partition beforeOffset =>
    match w.sys.log.trim stream partition beforeOffset with
    | .ok (_, log) => some { w with sys := { w.sys with log := log } }
    | .error _ => some w
  | .close => some { w with sys := w.sys.close }
  | .acquire subscription partition binding transfer =>
    some (w.acquire subscription partition binding transfer)
  | .nextRecord id => do
    let lease ← w.lease? id
    some (w.begin (nextRecord id lease .application))
  | .checkpoint id ref => do
    let lease ← w.lease? id
    some (w.begin (checkpoint id lease ref .application))
  | .runOnce id limit => do
    let lease ← w.lease? id
    if limit = 0 then
      some (w.begin (.finished (.raised (.value "limit must be a positive integer"))))
    else some (w.begin (nextRecord id lease (.runner limit 0)))
  | .stop id => do
    let _ ← w.lease? id
    some { w with sys := w.sys.stop id }
  | .release id => do
    let lease ← w.lease? id
    some { w with sys := w.sys.release id lease }
  | .resume call env => do
    let pc ← w.calls[call]?
    let (s, pc') ← w.sys.advance env pc
    some { sys := s, calls := w.calls.set call pc' }
  | .cancel call => do
    let pc ← w.calls[call]?
    let pc' ← pc.cancel
    some { w with calls := w.calls.set call pc' }

end World

end ToriPy.PersistentStreams
