import ToriPy.Base.Paging
import ToriPy.Base.Transition
import ToriPy.EventSourcing.Events

/-!
# The in-memory event store

`InMemoryEventStore` with `_InMemoryTransaction`. `Db` has the store and every transaction made from
it, in the order of their creation; `Db.perform` is what one call does.

`__aenter__` and `commit` wait for the store's lock, so each of them is two steps here: the call,
which leaves the transaction `entering` or `committing`, and `proceed`, which is the section under
the lock. In between other transactions may do anything, and the call may be cancelled.
-/

namespace ToriPy.EventSourcing

/-- A read position is not negative (`_position`). -/
def position (value : Int) (fieldName : String) : Except EventSourcingError Nat := do
  require (0 ≤ value) (.eventStoreTransaction (fieldName ++ " must be a non-negative integer"))
  return value.toNat

/-- A page has between one and `maximum` events (`_limit`). -/
def pageLimit (value : Int) (maximum : ℕ+) : Except EventSourcingError Nat := do
  require (1 ≤ value) (.resourceLimit "read limit must be a positive integer")
  require (value ≤ (maximum : Nat))
    (.resourceLimit ("read limit cannot exceed " ++ toString (maximum : Nat)))
  return value.toNat

inductive TransactionState where
  | new
  | entering
  | active
  | committing
  | committed
  | rolledBack
deriving DecidableEq

def TransactionState.value : TransactionState → String
  | .new => "new"
  | .entering => "entering"
  | .active => "active"
  | .committing => "committing"
  | .committed => "committed"
  | .rolledBack => "rolled_back"

/-- One staged batch. -/
structure StagedAppend where
  streamId : StreamId
  expectedVersion : Nat
  events : List AppendEvent

/-- The committed events, three times: by stream, in global order, and their ids. -/
structure StoreState where
  streams : Dict StreamId (List StoredEvent) := ∅
  events : List StoredEvent := []
  eventIds : Finset UUID := ∅

/-- The committed events of a stream (`streams.get(stream_id, ())`). -/
def StoreState.stream (s : StoreState) (streamId : StreamId) : List StoredEvent :=
  (s.streams.lookup streamId).getD []

structure Transaction where
  state : TransactionState := .new
  snapshot : Dict StreamId (List StoredEvent) := ∅
  staged : List StagedAppend := []
  stagedStreams : Finset StreamId := ∅
  stagedEventIds : Finset UUID := ∅
  stagedEventCount : Nat := 0
  stagedBytes : Nat := 0

namespace EventSourcingLimits

/-- The limits of a header mapping, the same in the codec and in the store. -/
def validateHeaders (limits : EventSourcingLimits) (headers : Dict String String) :
    Except EventSourcingError Unit := do
  require (Dict.size headers ≤ limits.maxHeaders)
    (.resourceLimit "event header count limit exceeded")
  headers.entries.forM fun header => do
    require (header.1.utf8ByteSize ≤ limits.maxHeaderNameBytes)
      (.resourceLimit "event header name byte limit exceeded")
    require (header.2.utf8ByteSize ≤ limits.maxHeaderValueBytes)
      (.resourceLimit "event header value byte limit exceeded")

def validatePayload (limits : EventSourcingLimits) (payload : Bytes) :
    Except EventSourcingError Unit :=
  require (payload.length ≤ limits.maxPayloadBytes)
    (.resourceLimit "event payload byte limit exceeded")

/-- `_validate_event_limits`. -/
def validateEvent (limits : EventSourcingLimits) (event : AppendEvent) :
    Except EventSourcingError Unit := do
  limits.validatePayload event.encoded.payload
  limits.validateHeaders event.metadata.headers

end EventSourcingLimits

/-- What an event counts towards the bytes of a transaction (`_encoded_size`). -/
def AppendEvent.encodedSize (event : AppendEvent) : Nat :=
  event.encoded.eventType.utf8ByteSize + event.encoded.payload.length +
    (event.metadata.headers.entries.map fun h => h.1.utf8ByteSize + h.2.utf8ByteSize).sum

/-- Add the ids of a batch to those seen, unless one of them was seen before. -/
def addEventIds (seen : Finset UUID) : List AppendEvent → Except EventSourcingError (Finset UUID)
  | [] => .ok seen
  | event :: events => do
    require (event.eventId ∉ seen) (.duplicateEventId event.eventId)
    addEventIds (insert event.eventId seen) events

/-- Check the events of a batch and count their bytes. -/
def batchBytes (limits : EventSourcingLimits) : List AppendEvent → Except EventSourcingError Nat
  | [] => .ok 0
  | event :: events => do
    limits.validateEvent event
    let rest ← batchBytes limits events
    return event.encodedSize + rest

namespace StoreState

/-- Every batch meets the version it expects, and no event id is known (`_validate_commit`). -/
def validateCommit (s : StoreState) (seen : Finset UUID) :
    List StagedAppend → Except EventSourcingError Unit
  | [] => .ok ()
  | batch :: batches => do
    let actualVersion := (s.stream batch.streamId).length
    require (actualVersion = batch.expectedVersion)
      (.optimisticConcurrency batch.streamId batch.expectedVersion actualVersion)
    let seen ← addEventIds seen batch.events
    validateCommit s seen batches

/-- Number the events of a batch behind a version and a global position. -/
def numberBatch (streamId : StreamId) : Nat → Nat → List AppendEvent → List StoredEvent
  | _, _, [] => []
  | version, globalPosition, event :: events =>
    ⟨streamId, version + 1, globalPosition + 1, event⟩ ::
      numberBatch streamId (version + 1) (globalPosition + 1) events

/-- Number all batches behind a global position (`_build_committed_events`). -/
def numberBatches : Nat → List StagedAppend → List StoredEvent
  | _, [] => []
  | globalPosition, batch :: batches =>
    numberBatch batch.streamId batch.expectedVersion globalPosition batch.events ++
      numberBatches (globalPosition + batch.events.length) batches

/-- The state with the events added to all three representations (`_build_store_state`). -/
def withCommitted (s : StoreState) (committed : List StoredEvent) : StoreState where
  streams := Dict.mergeWith (fun old new => old.getD [] ++ new) s.streams
    (Dict.group StoredEvent.streamId committed)
  events := s.events ++ committed
  eventIds := s.eventIds ∪ (committed.map StoredEvent.eventId).toFinset

end StoreState

namespace Transaction

/-- `_require_active`. -/
def requireActive (tx : Transaction) (operation : String) : Except EventSourcingError Unit :=
  require (tx.state = .active)
    (.eventStoreTransaction
      ("cannot " ++ operation ++ " transaction in " ++ tx.state.value ++ " state"))

/-- `_clear_staged`. -/
def clearStaged (tx : Transaction) : Transaction :=
  { tx with
    staged := [], stagedStreams := ∅, stagedEventIds := ∅, stagedEventCount := 0, stagedBytes := 0 }

/-- `__aenter__` up to its wait for the lock. -/
def enter (tx : Transaction) : Except EventSourcingError Transaction := do
  require (tx.state = .new)
    (.eventStoreTransaction ("cannot enter transaction in " ++ tx.state.value ++ " state"))
  return { tx with state := .entering }

/-- The committed events of a stream when the transaction was entered. -/
def stream (tx : Transaction) (streamId : StreamId) : List StoredEvent :=
  (tx.snapshot.lookup streamId).getD []

/-- `read_stream` of a transaction: one page of its snapshot. -/
def readStream (limits : EventSourcingLimits) (tx : Transaction) (streamId : StreamId)
    (afterVersion limit : Int) : Except EventSourcingError (List StoredEvent) := do
  tx.requireActive "read"
  let after ← position afterVersion "after_version"
  let pageSize ← pageLimit limit limits.readPageSize
  return ((tx.stream streamId).drop after).take pageSize

/-- `append`: stage one batch for a stream. -/
def append (limits : EventSourcingLimits) (tx : Transaction) (streamId : StreamId)
    (expectedVersion : Int) (batch : List AppendEvent) : Except EventSourcingError Transaction := do
  tx.requireActive "append"
  let expected ← position expectedVersion "expected_version"
  require (streamId ∉ tx.stagedStreams) (.duplicateStreamAppend streamId)
  require (batch ≠ []) (.eventStoreTransaction "append batch cannot be empty")
  require (batch.length ≤ limits.maxEventsPerAppend)
    (.resourceLimit "append event count limit exceeded")
  let stagedEventIds ← addEventIds tx.stagedEventIds batch
  let eventCount := tx.stagedEventCount + batch.length
  require (eventCount ≤ limits.maxEventsPerTransaction)
    (.resourceLimit "transaction event count limit exceeded")
  let bytes ← batchBytes limits batch
  let transactionBytes := tx.stagedBytes + bytes
  require (transactionBytes ≤ limits.maxTransactionBytes)
    (.resourceLimit "transaction byte limit exceeded")
  return { tx with
    staged := tx.staged ++ [⟨streamId, expected, batch⟩]
    stagedStreams := insert streamId tx.stagedStreams
    stagedEventIds := stagedEventIds
    stagedEventCount := eventCount
    stagedBytes := transactionBytes }

/-- `commit` up to its wait for the lock. -/
def commit (tx : Transaction) : Except EventSourcingError Transaction := do
  tx.requireActive "commit"
  return { tx with state := .committing }

/-- The section of `commit` under the lock. -/
def commitLocked (s : StoreState) (tx : Transaction) :
    Except EventSourcingError (CommitResult × StoreState) := do
  s.validateCommit s.eventIds tx.staged
  let committed := StoreState.numberBatches s.events.length tx.staged
  return (⟨committed⟩, s.withCommitted committed)

/-- `rollback`. -/
def rollback (tx : Transaction) : Except EventSourcingError Transaction :=
  if tx.state = .rolledBack then .ok tx
  else do
    require (tx.state = .active)
      (.eventStoreTransaction ("cannot rollback transaction in " ++ tx.state.value ++ " state"))
    return { tx.clearStaged with state := .rolledBack }

/-- `__aexit__`. -/
def exit (tx : Transaction) : Except EventSourcingError Transaction :=
  if tx.state = .active then tx.rollback else .ok tx

end Transaction

/-- The store and the transactions made from it. -/
structure Db where
  limits : EventSourcingLimits
  state : StoreState := {}
  transactions : List Transaction := []

/-- A call on the store or on a transaction, or the rest of a call that waits for the lock. -/
inductive DbAction where
  | readStream (streamId : StreamId) (afterVersion limit : Int)
  | readAll (afterPosition limit : Int)
  | transaction
  | enter (t : Nat)
  | read (t : Nat) (streamId : StreamId) (afterVersion limit : Int)
  | append (t : Nat) (streamId : StreamId) (expectedVersion : Int) (events : List AppendEvent)
  | commit (t : Nat)
  | rollback (t : Nat)
  | exit (t : Nat)
  | proceed (t : Nat)
  | cancel (t : Nat)

/-- How a call ends, or that it waits for the lock. -/
inductive DbReply where
  | returned
  | waits
  | page (events : List StoredEvent)
  | committed (result : CommitResult)
  | raised (error : EventSourcingError)
deriving DecidableEq

def DbReply.ofPage : Except EventSourcingError (List StoredEvent) → DbReply
  | .ok events => .page events
  | .error e => .raised e

namespace Db

def start (limits : EventSourcingLimits) : Db := { limits := limits }

/-- `read_stream` of the store. -/
def readStream (db : Db) (streamId : StreamId) (afterVersion limit : Int) :
    Except EventSourcingError (List StoredEvent) := do
  let after ← position afterVersion "after_version"
  let pageSize ← pageLimit limit db.limits.readPageSize
  return ((db.state.stream streamId).drop after).take pageSize

/-- `read_all`. -/
def readAll (db : Db) (afterPosition limit : Int) :
    Except EventSourcingError (List StoredEvent) := do
  let after ← position afterPosition "after_position"
  let pageSize ← pageLimit limit db.limits.readPageSize
  return (db.state.events.drop after).take pageSize

def set (db : Db) (t : Nat) (tx : Transaction) : Db :=
  { db with transactions := db.transactions.set t tx }

/-- A call that only changes its transaction, and leaves it when it raises. -/
def update (db : Db) (t : Nat) (reply : DbReply) :
    Except EventSourcingError Transaction → DbReply × Db
  | .ok tx => (reply, db.set t tx)
  | .error e => (.raised e, db)

/-- The section under the lock of a call that waits for it. -/
def proceed (db : Db) (t : Nat) (tx : Transaction) : Option (DbReply × Db) :=
  match tx.state with
  | .entering =>
    some (.returned, db.set t { tx with state := .active, snapshot := db.state.streams })
  | .committing =>
    match tx.commitLocked db.state with
    | .ok (result, state) =>
      some (.committed result,
        { db with state := state }.set t { tx.clearStaged with state := .committed })
    | .error e => some (.raised e, db.set t { tx.clearStaged with state := .rolledBack })
  | _ => none

/-- `asyncio.CancelledError` in the wait for the lock. -/
def cancel (db : Db) (t : Nat) (tx : Transaction) : Option (DbReply × Db) :=
  match tx.state with
  | .entering => some (.raised .cancelled, db.set t { tx with state := .rolledBack })
  | .committing =>
    some (.raised .cancelled, db.set t { tx.clearStaged with state := .rolledBack })
  | _ => none

def perform (db : Db) : DbAction → Option (DbReply × Db)
  | .readStream streamId afterVersion limit =>
    some (DbReply.ofPage (db.readStream streamId afterVersion limit), db)
  | .readAll afterPosition limit => some (DbReply.ofPage (db.readAll afterPosition limit), db)
  | .transaction => some (.returned, { db with transactions := db.transactions ++ [{}] })
  | .enter t => do
    let tx ← db.transactions[t]?
    return db.update t .waits tx.enter
  | .read t streamId afterVersion limit => do
    let tx ← db.transactions[t]?
    return (DbReply.ofPage (tx.readStream db.limits streamId afterVersion limit), db)
  | .append t streamId expectedVersion events => do
    let tx ← db.transactions[t]?
    return db.update t .returned (tx.append db.limits streamId expectedVersion events)
  | .commit t => do
    let tx ← db.transactions[t]?
    return db.update t .waits tx.commit
  | .rollback t => do
    let tx ← db.transactions[t]?
    return db.update t .returned tx.rollback
  | .exit t => do
    let tx ← db.transactions[t]?
    return db.update t .returned tx.exit
  | .proceed t => do
    let tx ← db.transactions[t]?
    db.proceed t tx
  | .cancel t => do
    let tx ← db.transactions[t]?
    db.cancel t tx

def step (db : Db) (a : DbAction) : Option Db := (db.perform a).map (·.2)

end Db

end ToriPy.EventSourcing
