import ToriPy.Base.Effects
import ToriPy.EventSourcing.Codec

/-!
# Aggregates

`AggregateRoot` of `aggregate.py`. `raiseEvent` and `replay` may fault the aggregate and raise, so
they are methods on it; the others change nothing when they raise and return the changed aggregate.
What a raising `_apply` leaves of the application's state is not kept: the aggregate is faulted
then.

Units of work are known by number. A prepared commit is known by its value, as nobody prepares the
same commit twice: its owner is in it, and an owner prepares an aggregate at most once.
-/

namespace ToriPy.EventSourcing

variable {app : App}

/-- The seal that a unit of work puts on an aggregate. -/
structure Enlistment (app : App) where
  owner : Nat
  streamId : StreamId
  events : List (PendingEvent app)

/-- A validated local transition. -/
structure PreparedCommit (app : App) where
  owner : Nat
  events : List (PendingEvent app)
  version : Nat
deriving DecidableEq

/-- An aggregate; `initial` is the state that its constructor made. -/
structure Aggregate (app : App) where
  aggregateType : app.AggregateType
  id : app.Id
  initial : app.State
  state : app.State
  version : Nat := 0
  streamId : Option StreamId := none
  pendingEvents : List (PendingEvent app) := []
  faulted : Bool := false
  enlistment : Option (Enlistment app) := none
  preparedCommit : Option (PreparedCommit app) := none

namespace Aggregate

def construct (aggregateType : app.AggregateType) (id : app.Id) (initial : app.State) :
    Aggregate app :=
  { aggregateType := aggregateType, id := id, initial := initial, state := initial }

/-- `_require_mutable`. -/
def requireMutable (agg : Aggregate app) : Except EventSourcingError Unit := do
  require (agg.faulted = false) (.aggregateFaulted "aggregate is faulted and must be reloaded")
  require (agg.enlistment.isNone) (.aggregateEnlisted "aggregate is enlisted and cannot be mutated")

/-- Set `_faulted` and raise. -/
def faultWith {α : Type} (e : EventSourcingError) :
    EStateM EventSourcingError (Aggregate app) α := do
  modify fun agg => { agg with faulted := true }
  throw e

/-- Call `_apply`; the aggregate is faulted when it raises. -/
def applyEvent (event : app.Event) : EStateM EventSourcingError (Aggregate app) Unit := do
  let agg ← get
  match app.apply agg.aggregateType agg.state event with
  | none => faultWith .application
  | some state => modify fun agg => { agg with state := state }

/-- `raise_event`. -/
def raiseEvent (event : app.Event) (metadata : EventMetadata) :
    EStateM EventSourcingError (Aggregate app) Unit := do
  check (← get).requireMutable
  applyEvent event
  modify fun agg => { agg with pendingEvents := agg.pendingEvents ++ [⟨event, metadata⟩] }

/-- The checks of `_replay` on a page: one stream, and its versions in order. -/
def validatePage (stream : StreamId) :
    Nat → List (RecordedEvent app) → Except EventSourcingError Unit
  | _, [] => .ok ()
  | version, record :: page => do
    require (record.streamId = stream) (.aggregateStreamMismatch stream record.streamId)
    require (record.streamVersion = version) (.aggregateReplayVersion version record.streamVersion)
    validatePage stream (version + 1) page

def replayRecord (record : RecordedEvent app) :
    EStateM EventSourcingError (Aggregate app) Unit := do
  applyEvent record.event
  modify fun agg => { agg with version := record.streamVersion }

/-- `_replay`. -/
def replay (page : List (RecordedEvent app)) : EStateM EventSourcingError (Aggregate app) Unit := do
  let agg ← get
  check agg.requireMutable
  check (require (agg.pendingEvents = []) (.aggregateReplay "cannot replay with pending events"))
  match page with
  | [] => pure ()
  | first :: _ =>
    let expectedStream := agg.streamId.getD first.streamId
    match validatePage expectedStream (agg.version + 1) page with
    | .error e => faultWith e
    | .ok () => do
      modify fun agg => { agg with streamId := some expectedStream }
      page.forM replayRecord

/-- The check of `_enlist` and `_validate_staging` on the stream. -/
def requireStream (agg : Aggregate app) (streamId : StreamId) : Except EventSourcingError Unit :=
  match agg.streamId with
  | none => .ok ()
  | some expected => require (expected = streamId) (.aggregateStreamMismatch expected streamId)

/-- `_enlist`. The second check on the enlistment repeats one of `_require_mutable`. -/
def enlist (agg : Aggregate app) (owner : Nat) (streamId : StreamId)
    (events : List (PendingEvent app)) : Except EventSourcingError (Aggregate app) := do
  agg.requireMutable
  require (agg.enlistment.isNone) (.aggregateEnlisted "aggregate is already enlisted")
  require (events ≠ [] ∧ events = agg.pendingEvents)
    (.aggregateCommitState "enlistment must contain the complete pending event snapshot")
  agg.requireStream streamId
  return { agg with
    streamId := some streamId
    enlistment := some ⟨owner, streamId, events⟩
    preparedCommit := none }

/-- `_owned_enlistment`. -/
def ownedEnlistment (agg : Aggregate app) (owner : Nat) :
    Except EventSourcingError (Enlistment app) :=
  match agg.enlistment with
  | none => .error (.aggregateOwnership "aggregate is not enlisted")
  | some enlistment => do
    require (enlistment.owner = owner)
      (.aggregateOwnership "aggregate belongs to another Unit of Work")
    return enlistment

/-- `_prepare_commit`; the prepared commit it returns is the one it notes. -/
def prepareCommit (agg : Aggregate app) (owner : Nat) (events : List (PendingEvent app))
    (version : Nat) : Except EventSourcingError (Aggregate app) := do
  let enlistment ← agg.ownedEnlistment owner
  require (events = enlistment.events ∧ events = agg.pendingEvents)
    (.aggregateCommitState "pending events changed after enlistment")
  require (version = agg.version + events.length)
    (.committedVersion (agg.version + events.length) version)
  return { agg with preparedCommit := some ⟨owner, events, version⟩ }

/-- `_mark_committed`. -/
def markCommitted (agg : Aggregate app) (prepared : PreparedCommit app) :
    Except EventSourcingError (Aggregate app) := do
  require (agg.preparedCommit = some prepared)
    (.aggregateCommitState "commit transition was not prepared")
  return { agg with
    version := prepared.version, pendingEvents := [], enlistment := none, preparedCommit := none }

/-- `_release`. -/
def release (agg : Aggregate app) (owner : Nat) : Except EventSourcingError (Aggregate app) := do
  let _ ← agg.ownedEnlistment owner
  return { agg with enlistment := none, preparedCommit := none }

/-- `_fault`. -/
def fault (agg : Aggregate app) (owner : Nat) : Except EventSourcingError (Aggregate app) := do
  let _ ← agg.ownedEnlistment owner
  return { agg with faulted := true, enlistment := none, preparedCommit := none }

/-- `_validate_staging`. -/
def validateStaging (agg : Aggregate app) (streamId : StreamId) :
    Except EventSourcingError Unit := do
  agg.requireMutable
  agg.requireStream streamId

end Aggregate

end ToriPy.EventSourcing
