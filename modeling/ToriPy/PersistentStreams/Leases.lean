import ToriPy.PersistentStreams.Log

/-!
# Leases and checkpoints: the critical sections

The ownership half of `InMemoryPersistentLog` with `InMemoryPartitionLease` and
`InMemoryCheckpointStore`. Every critical section of the source (every block under the log's or a
store's lock) is one function on `Sys` here; how calls are made of sections is in
`PersistentStreams/Calls.lean`. A section that raises changes nothing, except the first section of
`acquire`, which gives a reservation back before it raises.

`Sys` has the log, the lease objects in the order they were made, the external stores by object, and
a trace of what happened. The trace is bookkeeping for the statements: no section reads it.
-/

namespace ToriPy.PersistentStreams

/-- An `asyncio.Event`: its value, and how often it was set while clear. A waiter that saw it clear
is woken by the next `set`, even if the event is clear again when the waiter runs. -/
structure AsyncEvent where
  value : Bool := true
  sets : Nat := 0

def AsyncEvent.set (e : AsyncEvent) : AsyncEvent := if e.value then e else ⟨true, e.sets + 1⟩

def AsyncEvent.clear (e : AsyncEvent) : AsyncEvent := { e with value := false }

/-- The fields of `InMemoryPartitionLease`. -/
structure Lease where
  subscription : Subscription
  key : CheckpointKey
  owner : OwnershipToken
  store : Option StoreId
  stopped : Bool := false
  released : Bool := false
  revocationRequested : Bool := false
  inFlight : Option StoredRecord := none
  deliveryCompleted : AsyncEvent := {}

/-- Drop the in-flight delivery and wake whoever waits for it (`_complete_delivery_locked`). -/
def Lease.completeDelivery (lease : Lease) : Lease :=
  { lease with inFlight := none, deliveryCompleted := lease.deliveryCompleted.set }

def Lease.deliver (lease : Lease) (record : StoredRecord) : Lease :=
  { lease with inFlight := some record, deliveryCompleted := lease.deliveryCompleted.clear }

/-- A lease after `_stop`. -/
def Lease.stop (lease : Lease) : Lease := { lease.completeDelivery with stopped := true }

/-- A lease after `_release`. -/
def Lease.release (lease : Lease) : Lease := { lease.completeDelivery with released := true }

/-- Refuse a released or stopped lease (`_require_active`). -/
def Lease.requireActive (lease : Lease) : Except StreamsError Unit := do
  require (lease.released = false) (.lifecycle "partition lease is released")
  require (lease.stopped = false) (.lifecycle "partition lease is stopped")

/-- Only an advance is saved (`_validate_advance`). -/
def validateAdvance (expected cursor : ResumeCursor) : Except StreamsError Unit := do
  require (¬ (expected.kind = .lastSuccessful ∧ cursor.offset ≤ expected.offset))
    (.checkpoint "checkpoint must advance")
  require (¬ (expected.kind = .initialized ∧ cursor.offset < expected.offset))
    (.checkpoint "checkpoint precedes initialized start")

/-- `InMemoryCheckpointStore`: cursors and the fenced owner of each key. -/
structure CheckpointStore where
  cursors : Dict CheckpointKey ResumeCursor := ∅
  owners : Dict CheckpointKey OwnershipToken := ∅

namespace CheckpointStore

/-- Replace the owner of a key (`fence`). -/
def fence (store : CheckpointStore) (key : CheckpointKey) (owner : OwnershipToken) :
    CheckpointStore :=
  { store with owners := store.owners.insert key owner }

/-- Refuse another owner than the fenced one (`_require_owner`). -/
def requireOwner (store : CheckpointStore) (key : CheckpointKey) (owner : OwnershipToken) :
    Except StreamsError Unit :=
  require (store.owners.lookup key = some owner) (.ownership "checkpoint owner is not current")

/-- Create the first cursor of a key unless there is one; returns the one that holds
(`compare_and_create`). -/
def compareAndCreate (store : CheckpointStore) (key : CheckpointKey) (cursor : ResumeCursor)
    (owner : OwnershipToken) : Except StreamsError (ResumeCursor × CheckpointStore) := do
  require (cursor.kind = .initialized)
    (.checkpoint "initial checkpoint must be an initialized cursor")
  store.requireOwner key owner
  match store.cursors.lookup key with
  | some current => return (current, store)
  | none => return (cursor, { store with cursors := store.cursors.insert key cursor })

/-- Advance the cursor of a key from `expected` (`save`). -/
def save (store : CheckpointStore) (key : CheckpointKey) (expected cursor : ResumeCursor)
    (owner : OwnershipToken) : Except StreamsError CheckpointStore := do
  store.requireOwner key owner
  require (store.cursors.lookup key = some expected) (.checkpoint "checkpoint changed concurrently")
  require (cursor.kind = .lastSuccessful) (.checkpoint "saved checkpoint must be last-successful")
  validateAdvance expected cursor
  return { store with cursors := store.cursors.insert key cursor }

end CheckpointStore

/-- A record object as an argument: one that the log handed out, or an equal object made elsewhere.
The log hands out its own objects and no two of them are equal, so `is` compares as `=` does. -/
inductive RecordRef where
  | stored (record : StoredRecord)
  | made (record : StoredRecord)
deriving DecidableEq

def RecordRef.record : RecordRef → StoredRecord
  | .stored record => record
  | .made record => record

/-- What happened, for the statements about runs. `place` is where a cursor is kept: a store, or the
log's own table. -/
inductive Event where
  | stored (record : StoredRecord)
  | installed (key : CheckpointKey) (owner : OwnershipToken)
  | fenced (store : StoreId) (key : CheckpointKey) (owner : OwnershipToken)
  | acquired (lease : LeaseId) (key : CheckpointKey) (owner : OwnershipToken)
  | delivered (key : CheckpointKey) (owner : OwnershipToken) (record : StoredRecord)
  | handled (key : CheckpointKey) (owner : OwnershipToken) (record : StoredRecord)
  | created (place : Option StoreId) (key : CheckpointKey) (owner : OwnershipToken) (start : Nat)
  | saved (place : Option StoreId) (key : CheckpointKey) (owner : OwnershipToken)
      (record : StoredRecord) (byRunner : Bool)
deriving DecidableEq

/-- The log, the lease objects, the external stores and the trace. -/
structure Sys where
  log : Log
  objects : List Lease := []
  stores : StoreId → CheckpointStore := fun _ => {}
  trace : List Event := []

/-- The local state of an `acquire` call behind its first section. -/
structure AcquireFrame where
  subscription : Subscription
  key : CheckpointKey
  binding : StrategyBinding
  currentLease : Option LeaseId
  transferMarker : Option Marker

/-- The scope whose strategy the call has reserved. -/
def AcquireFrame.scope (f : AcquireFrame) : Scope := (f.key.stream, f.key.group)

namespace Log

/-- Refuse everyone but the owner of a key (`_require_owner_locked`). -/
def requireOwner (log : Log) (key : CheckpointKey) (owner : OwnershipToken) :
    Except StreamsError Unit := do
  log.requireOpen
  require (log.owners.lookup key = some owner) (.ownership "partition ownership has been lost")

/-- The limits of a subscription (`_validate_subscription`). -/
def validateSubscription (definition : StreamDefinition) (subscription : Subscription) :
    Except StreamsError Unit := do
  let limits := definition.limits
  require (subscription.group.length ≤ limits.maxGroupChars)
    (.resourceLimit "group name exceeds stream limit")
  require (subscription.ownerId.length ≤ limits.maxOwnerChars)
    (.resourceLimit "owner name exceeds stream limit")
  match subscription.start with
  | .relativeTime age =>
    require (age ≤ limits.maxRelativeAgeDays * 86400000000)
      (.resourceLimit "relative time exceeds stream limit")
  | _ => return ()

/-- Reserve a strategy for a scope (`_reserve_strategy`). -/
def reserveStrategy (log : Log) (scope : Scope) (binding : StrategyBinding) :
    Except StreamsError Log := do
  require (∀ current ∈ log.groupStrategies.lookup scope, current = binding)
    (.checkpointStrategy "consumer group checkpoint strategy is fixed")
  let pending := log.pendingGroupStrategies.lookup scope
  require (∀ reserved ∈ pending, reserved.1 = binding)
    (.checkpointStrategy "consumer group checkpoint strategy initialization is in progress")
  return { log with
    pendingGroupStrategies :=
      log.pendingGroupStrategies.insert scope
        (binding, match pending with | none => 1 | some (_, count) => count + 1) }

/-- The pending table after one reservation was given back. -/
def withoutReservation (pending : Dict Scope (StrategyBinding × Nat)) (scope : Scope)
    (binding : StrategyBinding) : Dict Scope (StrategyBinding × Nat) :=
  match pending.lookup scope with
  | none => pending
  | some (reserved, count) =>
    if reserved ≠ binding then pending
    else if count = 1 then pending.erase scope
    else pending.insert scope (binding, count - 1)

/-- Give one reservation back (`_release_strategy_reservation`). -/
def releaseStrategyReservation (log : Log) (scope : Scope) (binding : StrategyBinding) : Log :=
  { log with
    pendingGroupStrategies := withoutReservation log.pendingGroupStrategies scope binding }

end Log

/-- The first offset at or after an instant, if no removed record could be there. -/
def PartitionState.firstAt (part : PartitionState) (stream : String) (partition : Nat)
    (target : Instant) : Except StreamsError Nat :=
  if ∃ removed ∈ part.removedThrough, target ≤ removed then do
    let bounds ← part.bounds
    .error (.retentionGap stream partition none (some target) bounds none)
  else
    match part.records.find? (target ≤ ·.appendedAt) with
    | some record => .ok record.offset
    | none => .ok part.nextOffset

/-- Where a group without a cursor starts (`_resolve_start_locked`). -/
def PartitionState.resolveStart (part : PartitionState) (start : StartPosition) (stream : String)
    (partition : Nat) (clock : ClockReading) : Except StreamsError Nat :=
  match start with
  | .beginning => .ok part.earliestOffset
  | .end => .ok part.nextOffset
  | .exactOffset offset => do
    requireRetained stream partition offset part none
    return offset
  | .timestamp target => part.firstAt stream partition target
  | .relativeTime age => do
    let instant ← now clock
    require (minInstant ≤ instant - age) (.validation "relative time exceeds the clock range")
    part.firstAt stream partition (instant - age)

namespace Sys

def modify (s : Sys) (id : LeaseId) (f : Lease → Lease) : Sys :=
  { s with objects := s.objects.modify id f }

def setStore (s : Sys) (id : StoreId) (store : CheckpointStore) : Sys :=
  { s with stores := Function.update s.stores id store }

def emit (s : Sys) (e : Event) : Sys := { s with trace := s.trace ++ [e] }

def cursor (s : Sys) : Option StoreId → CheckpointKey → Option ResumeCursor
  | none, key => s.log.brokerCursors.lookup key
  | some id, key => (s.stores id).cursors.lookup key

/-- The checks at the start of `acquire`; returns the key. -/
def acquireChecks (s : Sys) (subscription : Subscription) (partition : Int) :
    Except StreamsError CheckpointKey := do
  s.log.requireOpen
  let state ← s.log.stream subscription.stream
  let (index, _) ← state.partition partition
  Log.validateSubscription state.definition subscription
  require (startModeCapabilities.supports subscription.start = true)
    (.validation "start position is not supported")
  return ⟨subscription.stream, subscription.group, index⟩

/-- The first section of `acquire`: checks, the strategy reservation, and for a transfer the marker
and the request to revoke. -/
def acquireEnter (s : Sys) (subscription : Subscription) (partition : Int)
    (binding : StrategyBinding) (transfer : Bool) (marker : Marker) :
    Except StreamsError AcquireFrame × Sys :=
  match s.acquireChecks subscription partition with
  | .error e => (.error e, s)
  | .ok key =>
    match s.log.reserveStrategy (key.stream, key.group) binding with
    | .error e => (.error e, s)
    | .ok log =>
      let givenBack : Sys :=
        { s with log := log.releaseStrategyReservation (key.stream, key.group) binding }
      match log.leases.lookup key with
      | some current =>
        if transfer = false then (.error (.ownership "partition is already owned"), givenBack)
        else
          match log.transfers.lookup key with
          | some _ =>
            (.error (.ownership "partition transfer is already in progress"), givenBack)
          | none =>
            (.ok ⟨subscription, key, binding, some current, some marker⟩,
              { s with log := { log with transfers := log.transfers.insert key marker } }.modify
                current fun lease => { lease with revocationRequested := true })
      | none =>
        if log.maxActiveLeases ≤ Dict.size log.owners then
          (.error (.resourceLimit "active lease limit reached"), givenBack)
        else (.ok ⟨subscription, key, binding, none, none⟩, { s with log := log })

/-- What the second section of `acquire` does to the tables before it installs the new lease. -/
def makeRoom (s : Sys) (f : AcquireFrame) : Except StreamsError Log :=
  match f.transferMarker with
  | some marker => do
    require (s.log.transfers.lookup f.key = some marker)
      (.ownership "partition transfer was superseded")
    if s.log.leases.lookup f.key = f.currentLease then do
      require (∀ id ∈ f.currentLease, ∀ lease ∈ s.objects[id]?, lease.inFlight = none)
        (.ownership "previous delivery is still in flight")
      return { s.log with
        leases := s.log.leases.erase f.key
        owners := s.log.owners.erase f.key
        transfers := s.log.transfers.erase f.key }
    else
      return { s.log with transfers := s.log.transfers.erase f.key }
  | none => do
    require (s.log.leases.lookup f.key = none) (.ownership "partition is already owned")
    return s.log

/-- The second section of `acquire`: install a lease with the next generation. -/
def install (s : Sys) (f : AcquireFrame) : Except StreamsError Sys := do
  s.log.requireOpen
  let log ← s.makeRoom f
  let generation := (log.generations.lookup f.key).getD 0 + 1
  let token : OwnershipToken := ⟨f.subscription.ownerId, generation⟩
  let lease : Lease :=
    { subscription := f.subscription, key := f.key, owner := token, store := f.binding.store }
  return { s with
    log := { log with
      generations := log.generations.insert f.key generation
      owners := log.owners.insert f.key token
      leases := log.leases.insert f.key s.objects.length }
    objects := s.objects ++ [lease]
    trace := s.trace ++ [.installed f.key token] }

/-- Whether the marker of a transfer is still the one in the table. -/
def holdsMarker (s : Sys) (f : AcquireFrame) : Bool :=
  f.transferMarker.isSome && s.log.transfers.lookup f.key = f.transferMarker

/-- Undo the first section of an `acquire` that did not install (`_cancel_acquire`). -/
def cancelAcquire (s : Sys) (f : AcquireFrame) : Sys :=
  { s with
    log := { s.log with
      transfers :=
        if s.holdsMarker f then s.log.transfers.erase f.key
        else s.log.transfers }.releaseStrategyReservation f.scope f.binding
    objects :=
      match f.currentLease with
      | some id =>
        if s.holdsMarker f ∧ s.log.leases.lookup f.key = some id then
          s.objects.modify id fun lease => { lease with revocationRequested := false }
        else s.objects
      | none => s.objects }

/-- `fence` of a lease's store. -/
def fence (s : Sys) (lease : Lease) (id : StoreId) : Sys :=
  (s.setStore id ((s.stores id).fence lease.key lease.owner)).emit
    (.fenced id lease.key lease.owner)

/-- Resolve the start of a lease's partition (`_resolved_cursor`). -/
def resolvedStart (s : Sys) (lease : Lease) (clock : ClockReading) : Except StreamsError Nat := do
  s.log.requireOwner lease.key lease.owner
  let state ← s.log.stream lease.key.stream
  let part ← state.partitionAt lease.key.partition
  part.resolveStart lease.subscription.start lease.key.stream lease.key.partition clock

/-- The section of `_initialize` for broker-managed checkpoints. -/
def initBroker (s : Sys) (lease : Lease) (clock : ClockReading) : Except StreamsError Sys := do
  s.log.requireOwner lease.key lease.owner
  match s.log.brokerCursors.lookup lease.key with
  | some _ => return s
  | none => do
    let start ← s.resolvedStart lease clock
    return { s with
      log := { s.log with
        brokerCursors := s.log.brokerCursors.insert lease.key (.initialized start) }
      trace := s.trace ++ [.created none lease.key lease.owner start] }

/-- `compare_and_create` of a lease's store. -/
def createCursor (s : Sys) (lease : Lease) (id : StoreId) (cursor : ResumeCursor) :
    Except StreamsError Sys := do
  let (_, store) ← (s.stores id).compareAndCreate lease.key cursor lease.owner
  match (s.stores id).cursors.lookup lease.key with
  | some _ => return s
  | none =>
    return (s.setStore id store).emit (.created (some id) lease.key lease.owner cursor.offset)

/-- The last section of `acquire`: fix the strategy and give the reservation back. -/
def finishAcquire (s : Sys) (f : AcquireFrame) (id : LeaseId) (lease : Lease) : Sys :=
  { s with
    log := { s.log with
      groupStrategies := s.log.groupStrategies.insert f.scope f.binding }.releaseStrategyReservation
        f.scope f.binding
    trace := s.trace ++ [.acquired id lease.key lease.owner] }

/-- Give a reservation back, in the cleanup of a failed initialization. -/
def unreserve (s : Sys) (f : AcquireFrame) : Sys :=
  { s with log := s.log.releaseStrategyReservation f.scope f.binding }

/-- `_stop`. -/
def stop (s : Sys) (id : LeaseId) : Sys := s.modify id Lease.stop

/-- `release`: `_release`, unless the lease was released before. -/
def release (s : Sys) (id : LeaseId) (lease : Lease) : Sys :=
  if lease.released then s
  else
    { s with
      objects := s.objects.modify id Lease.release
      log :=
        if s.log.leases.lookup lease.key = some id then
          { s.log with
            leases := s.log.leases.erase lease.key
            owners := s.log.owners.erase lease.key }
        else s.log }

/-- `close`. -/
def close (s : Sys) : Sys :=
  { s with
    log := { s.log with
      closed := true, owners := ∅, leases := ∅, transfers := ∅ }
    objects := s.objects.mapIdx fun id lease =>
      if id ∈ Dict.values s.log.leases then lease.release else lease }

/-- `_load_cursor` for broker-managed checkpoints. -/
def loadBroker (s : Sys) (lease : Lease) : Except StreamsError ResumeCursor := do
  s.log.requireOwner lease.key lease.owner
  match s.log.brokerCursors.lookup lease.key with
  | some cursor => return cursor
  | none => .error (.checkpoint "checkpoint was not initialized")

/-- The last section of `_next`: choose the first record after the loaded cursor and reserve it. -/
def deliver (s : Sys) (id : LeaseId) (lease : Lease) (cursor : ResumeCursor) :
    Except StreamsError (Option StoredRecord × Sys) := do
  s.log.requireOwner lease.key lease.owner
  require (lease.revocationRequested = false) (.ownership "partition ownership is being revoked")
  require (lease.inFlight = none) (.lifecycle "a delivery is already in flight")
  let state ← s.log.stream lease.key.stream
  let part ← state.partitionAt lease.key.partition
  requireRetained lease.key.stream lease.key.partition cursor.offset part (some lease.key.group)
  match part.records.find? fun record => cursor.Admits record.offset with
  | some record =>
    return (some record,
      (s.modify id (·.deliver record)).emit (.delivered lease.key lease.owner record))
  | none => return (none, s)

/-- What `checkpoint` checks before it loads the cursor. -/
def checkpointChecks (s : Sys) (lease : Lease) (ref : RecordRef) :
    Except StreamsError StoredRecord := do
  s.log.requireOwner lease.key lease.owner
  require (lease.inFlight.map RecordRef.stored = some ref)
    (.checkpoint "record is not the current in-flight delivery")
  return ref.record

/-- The last section of `_checkpoint` for broker-managed checkpoints. -/
def commitBroker (s : Sys) (id : LeaseId) (lease : Lease) (record : StoredRecord)
    (expected : ResumeCursor) (byRunner : Bool) : Except StreamsError Sys := do
  s.log.requireOwner lease.key lease.owner
  require (s.log.brokerCursors.lookup lease.key = some expected)
    (.checkpoint "checkpoint changed concurrently")
  validateAdvance expected (.lastSuccessful record.offset)
  return { s.modify id Lease.completeDelivery with
    log := { s.log with
      brokerCursors := s.log.brokerCursors.insert lease.key (.lastSuccessful record.offset) }
    trace := s.trace ++ [.saved none lease.key lease.owner record byRunner] }

/-- `save` of a lease's store. -/
def saveCursor (s : Sys) (lease : Lease) (id : StoreId) (record : StoredRecord)
    (expected : ResumeCursor) (byRunner : Bool) : Except StreamsError Sys := do
  let store ← (s.stores id).save lease.key expected (.lastSuccessful record.offset) lease.owner
  return (s.setStore id store).emit (.saved (some id) lease.key lease.owner record byRunner)

/-- The last section of `_checkpoint` for an external store. -/
def complete (s : Sys) (id : LeaseId) (lease : Lease) : Except StreamsError Sys := do
  s.log.requireOwner lease.key lease.owner
  return s.modify id Lease.completeDelivery

end Sys

end ToriPy.PersistentStreams
