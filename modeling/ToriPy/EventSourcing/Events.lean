import ToriPy.Base.Dict
import ToriPy.Base.Except
import ToriPy.Base.Values

/-!
# Event-sourcing values

The value classes of `events.py` that do not depend on the application's event classes, the limits
of `codec.py` and the errors of `errors.py`. Of a text that an error message quotes the error keeps
the text itself.
-/

namespace ToriPy.EventSourcing

/-- Resource limits of codecs, stores and repositories; each is a positive integer. -/
structure EventSourcingLimits where
  maxPayloadBytes : ℕ+ := 1048576
  maxHeaders : ℕ+ := 64
  maxHeaderNameBytes : ℕ+ := 256
  maxHeaderValueBytes : ℕ+ := 4096
  maxUpcastSteps : ℕ+ := 32
  readPageSize : ℕ+ := 500
  maxEventsPerAppend : ℕ+ := 1000
  maxEventsPerTransaction : ℕ+ := 10000
  maxTransactionBytes : ℕ+ := 16777216

/-- The category and key of one event stream. -/
structure StreamId where
  category : String
  key : String
deriving DecidableEq

/-- Identity and context of an event occurrence. -/
structure EventMetadata where
  eventId : UUID
  occurredAt : Instant
  correlationId : Option UUID := none
  causationId : Option UUID := none
  headers : Dict String String := ∅
deriving DecidableEq

/-- A schema identity and an encoded payload. -/
structure EncodedEvent where
  eventType : String
  schemaVersion : ℕ+
  payload : Bytes
deriving DecidableEq

/-- An encoded event with its metadata, to be appended. -/
structure AppendEvent where
  encoded : EncodedEvent
  metadata : EventMetadata
deriving DecidableEq

def AppendEvent.eventId (e : AppendEvent) : UUID := e.metadata.eventId

/-- A committed event with its positions in its stream and in the store, both from 1 on. -/
structure StoredEvent where
  streamId : StreamId
  streamVersion : Nat
  globalPosition : Nat
  event : AppendEvent
deriving DecidableEq

def StoredEvent.eventId (e : StoredEvent) : UUID := e.event.eventId

/-- The committed events of a transaction in staging order. -/
structure CommitResult where
  events : List StoredEvent
deriving DecidableEq

/-- The errors of `errors.py` that the modelled code raises or distinguishes. `cancelled` is
`asyncio.CancelledError`, `application` whatever else application code raises. -/
inductive EventSourcingError where
  | invalidStreamId (message : String)
  | aggregateFaulted (message : String)
  | aggregateEnlisted (message : String)
  | aggregateOwnership (message : String)
  | aggregateReplay (message : String)
  | aggregateReplayVersion (expected got : Nat)
  | aggregateStreamMismatch (expected actual : StreamId)
  | aggregateTypeMismatch
  | aggregateCommitState (message : String)
  | committedVersion (expected got : Nat)
  | schemaRegistryFrozen (message : String)
  | schemaRegistryNotFrozen (message : String)
  | upcastSteps (eventAlias : String)
  | duplicateEventAlias (eventAlias : String)
  | duplicateEventClass
  | unknownEventClass
  | unknownEventAlias (eventAlias : String)
  | futureSchemaVersion (eventAlias : String) (stored current : Nat)
  | encoderFailed (eventAlias : String)
  | decoderFailed (eventAlias : String)
  | decodedOtherType (eventAlias : String)
  | missingUpcaster (eventAlias : String) (version : Nat)
  | upcasterFailed (eventAlias : String) (version : Nat)
  | resourceLimit (message : String)
  | eventStoreTransaction (message : String)
  | duplicateStreamAppend (streamId : StreamId)
  | optimisticConcurrency (streamId : StreamId) (expectedVersion actualVersion : Nat)
  | duplicateEventId (eventId : UUID)
  | indeterminateCommit (message : String)
  | confirmedCommit (message : String)
  | confirmedCommitCleanup (result : CommitResult)
  | repository (message : String)
  | aggregateNotFound (streamId : StreamId)
  | unitOfWorkLifecycle (message : String)
  | duplicateAggregateSave (message : String)
  | duplicateStreamAggregate (streamId : StreamId)
  | commitResultMismatch (message : String)
  | assertion
  | cancelled
  | application
deriving DecidableEq

end ToriPy.EventSourcing
