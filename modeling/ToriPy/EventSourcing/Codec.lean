import ToriPy.EventSourcing.Store

/-!
# Event schemas

`EventSchema` and `EventSchemaRegistry` of `codec.py`, with the records of `events.py` that hold
decoded events. What the application brings is an `App`: its aggregate and event classes and what
`_apply` makes of an event. Encoders, decoders, upcasters and `_apply` are functions of the
application that may raise, which is `none`.

The registry carries the coherence of its two tables, so that an event that was encoded under its
class is decoded by the same schema under its alias (`decode_encode`).
-/

namespace ToriPy.EventSourcing

/-- The application's classes and functions, and Python's `str.strip` and `str.isprintable`. -/
structure App where
  AggregateType : Type
  Id : Type
  EventType : Type
  Event : Type
  State : Type
  [decEqAggregateType : DecidableEq AggregateType]
  [decEqId : DecidableEq Id]
  [decEqEventType : DecidableEq EventType]
  [decEqEvent : DecidableEq Event]
  typeOf : Event → EventType
  /-- `_apply` of an aggregate class, a function of the state and the event. -/
  apply : AggregateType → State → Event → Option State
  strip : String → String
  isPrintable : String → Bool

attribute [instance] App.decEqAggregateType App.decEqId App.decEqEventType App.decEqEvent

variable {app : App}

/-- An event that an aggregate recorded and that is not committed. -/
structure PendingEvent (app : App) where
  event : app.Event
  metadata : EventMetadata
deriving DecidableEq

/-- A decoded committed event. -/
structure RecordedEvent (app : App) where
  streamId : StreamId
  streamVersion : Nat
  globalPosition : Nat
  eventType : String
  schemaVersion : ℕ+
  event : app.Event
  metadata : EventMetadata

/-- One event alias and its current codec. The upcasters are for the source versions before the
current one. -/
structure EventSchema (app : App) where
  eventAlias : String
  version : ℕ+
  eventType : app.EventType
  encoder : app.Event → Option Bytes
  decoder : Bytes → Option app.Event
  upcasters : Dict Nat (Bytes → Option Bytes) := ∅
  sources : upcasters.keys.Perm (List.range' 1 (version - 1)) := by decide

/-- The schemas by alias and by class. -/
structure EventSchemaRegistry (app : App) where
  limits : EventSourcingLimits := {}
  byAlias : Dict String (EventSchema app) := ∅
  byClass : Dict app.EventType (EventSchema app) := ∅
  frozen : Bool := false
  aliased : ∀ {eventAlias : String} {schema : EventSchema app},
    byAlias.lookup eventAlias = some schema →
      schema.eventAlias = eventAlias ∧ schema.version - 1 ≤ (limits.maxUpcastSteps : Nat) := by
    exact nofun
  classed : ∀ {eventType : app.EventType} {schema : EventSchema app},
    byClass.lookup eventType = some schema →
      schema.eventType = eventType ∧ byAlias.lookup schema.eventAlias = some schema := by
    exact nofun

namespace EventSchemaRegistry

/-- `register`. -/
def register (schemas : EventSchemaRegistry app) (schema : EventSchema app) :
    Except EventSourcingError (EventSchemaRegistry app) :=
  if schemas.frozen then .error (.schemaRegistryFrozen "event schema registry is frozen")
  else if steps : schema.version - 1 > (schemas.limits.maxUpcastSteps : Nat) then
    .error (.upcastSteps schema.eventAlias)
  else if fresh : schema.eventAlias ∈ schemas.byAlias then
    .error (.duplicateEventAlias schema.eventAlias)
  else if schema.eventType ∈ schemas.byClass then .error .duplicateEventClass
  else .ok
    { schemas with
      byAlias := schemas.byAlias.insert schema.eventAlias schema
      byClass := schemas.byClass.insert schema.eventType schema
      aliased := by
        intro eventAlias schema' h
        rw [Dict.lookup_insert_ite] at h
        split at h
        · rename_i same
          cases h
          exact ⟨same.symm, Nat.le_of_not_lt steps⟩
        · exact schemas.aliased h
      classed := by
        intro eventType schema' h
        rw [Dict.lookup_insert_ite] at h
        split at h
        · rename_i same
          cases h
          exact ⟨same.symm, AList.lookup_insert _⟩
        · obtain ⟨ofType, known⟩ := schemas.classed h
          refine ⟨ofType, ?_⟩
          rw [Dict.lookup_insert_ite, if_neg, known]
          rintro same
          rw [same] at known
          exact fresh (AList.lookup_isSome.mp (by rw [known]; rfl)) }

/-- `freeze`. -/
def freeze (schemas : EventSchemaRegistry app) : EventSchemaRegistry app :=
  { schemas with frozen := true }

/-- `_require_frozen`. -/
def requireFrozen (schemas : EventSchemaRegistry app) : Except EventSourcingError Unit :=
  require schemas.frozen
    (.schemaRegistryNotFrozen "event schema registry must be frozen before use")

/-- `encode`. -/
def encode (schemas : EventSchemaRegistry app) (pending : PendingEvent app) :
    Except EventSourcingError AppendEvent := do
  schemas.requireFrozen
  match schemas.byClass.lookup (app.typeOf pending.event) with
  | none => .error .unknownEventClass
  | some schema => do
    schemas.limits.validateHeaders pending.metadata.headers
    match schema.encoder pending.event with
    | none => .error (.encoderFailed schema.eventAlias)
    | some payload => do
      schemas.limits.validatePayload payload
      return ⟨⟨schema.eventAlias, schema.version, payload⟩, pending.metadata⟩

/-- The loop of `decode` over the upcasters, with the number of versions that are left. -/
def upcast (limits : EventSourcingLimits) (schema : EventSchema app) :
    Nat → Nat → Nat → Bytes → Except EventSourcingError Bytes
  | 0, _, _, payload => .ok payload
  | left + 1, version, steps, payload => do
    require (steps + 1 ≤ limits.maxUpcastSteps) (.resourceLimit "event upcast step limit exceeded")
    match schema.upcasters.lookup version with
    | none => .error (.missingUpcaster schema.eventAlias version)
    | some upcaster =>
      match upcaster payload with
      | none => .error (.upcasterFailed schema.eventAlias version)
      | some payload => do
        limits.validatePayload payload
        upcast limits schema left (version + 1) (steps + 1) payload

/-- `decode`. -/
def decode (schemas : EventSchemaRegistry app) (stored : StoredEvent) :
    Except EventSourcingError (RecordedEvent app) := do
  schemas.requireFrozen
  let encoded := stored.event.encoded
  match schemas.byAlias.lookup encoded.eventType with
  | none => .error (.unknownEventAlias encoded.eventType)
  | some schema => do
    require (encoded.schemaVersion ≤ schema.version)
      (.futureSchemaVersion schema.eventAlias encoded.schemaVersion schema.version)
    schemas.limits.validateHeaders stored.event.metadata.headers
    schemas.limits.validatePayload encoded.payload
    let version : Nat := encoded.schemaVersion
    let payload ← upcast schemas.limits schema (schema.version - version) version 0 encoded.payload
    match schema.decoder payload with
    | none => .error (.decoderFailed schema.eventAlias)
    | some event => do
      require (app.typeOf event = schema.eventType) (.decodedOtherType schema.eventAlias)
      return {
        streamId := stored.streamId
        streamVersion := stored.streamVersion
        globalPosition := stored.globalPosition
        eventType := schema.eventAlias
        schemaVersion := schema.version
        event := event
        metadata := stored.event.metadata }

def RoundTrips (schemas : EventSchemaRegistry app) : Prop :=
  ∀ eventType schema, schemas.byClass.lookup eventType = some schema →
    ∀ event payload, app.typeOf event = eventType → schema.encoder event = some payload →
      schema.decoder payload = some event

variable {schemas : EventSchemaRegistry app} {pending : PendingEvent app}

lemma encode_ok {event} (h : schemas.encode pending = .ok event) :
    ∃ schema payload, schemas.frozen ∧
      schemas.byClass.lookup (app.typeOf pending.event) = some schema ∧
      schemas.limits.validateHeaders pending.metadata.headers = .ok () ∧
      schema.encoder pending.event = some payload ∧
      schemas.limits.validatePayload payload = .ok () ∧
      event = ⟨⟨schema.eventAlias, schema.version, payload⟩, pending.metadata⟩ := by
  simp only [encode, requireFrozen, bind_ok, require_ok] at h
  obtain ⟨_, frozen, h⟩ := h
  split at h
  · cases h
  rename_i schema known
  simp only [bind_ok] at h
  obtain ⟨_, headers, h⟩ := h
  split at h
  · cases h
  rename_i payload encoded
  simp only [bind_ok] at h
  obtain ⟨_, bytes, h⟩ := h
  cases h
  exact ⟨schema, payload, frozen, known, headers, encoded, bytes, rfl⟩

lemma decode_encode (trips : schemas.RoundTrips) {stored}
    (h : schemas.encode pending = .ok stored.event) :
    ∃ recorded, schemas.decode stored = .ok recorded ∧ recorded.event = pending.event := by
  obtain ⟨schema, _, frozen, known, headers, encoded, bytes, same⟩ := encode_ok h
  obtain ⟨ofType, named⟩ := schemas.classed known
  have decoded := trips _ _ known _ _ rfl encoded
  obtain ⟨streamId, streamVersion, globalPosition, event⟩ := stored
  cases same
  refine ⟨⟨streamId, streamVersion, globalPosition, schema.eventAlias, schema.version,
    pending.event, pending.metadata⟩, ?_, rfl⟩
  -- it has the current version, so nothing is upcast
  simp [decode, requireFrozen, require, frozen, named, headers, bytes, upcast, decoded, ofType]

lemma decode_ok {stored recorded} (h : schemas.decode stored = .ok recorded) :
    recorded.streamId = stored.streamId ∧ recorded.streamVersion = stored.streamVersion := by
  simp only [decode, bind_ok] at h
  obtain ⟨_, -, h⟩ := h
  split at h
  · cases h
  simp only [bind_ok] at h
  obtain ⟨_, -, _, -, _, -, _, -, h⟩ := h
  split at h
  · cases h
  · simp only [bind_ok] at h
    obtain ⟨_, -, h⟩ := h
    cases h
    exact ⟨rfl, rfl⟩

end EventSchemaRegistry

end ToriPy.EventSourcing
