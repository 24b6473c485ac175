import ToriPy.Base.Dict
import ToriPy.Base.Except
import ToriPy.Base.Values

/-!
# Persistent-stream values

The value classes of `models.py`, `errors.py` and `validation.py`. A dataclass whose `__post_init__`
rejects some values is a structure that carries what it checks as proof fields, so that only
accepted values exist; a check the code makes on arguments at run time stays a check in `Except`.

A `timedelta` is a number of microseconds; the other builtin values are those of `Base/Values.lean`.
-/

namespace ToriPy.PersistentStreams

/-- `datetime.min` in UTC (0001-01-01), the earliest instant a clock subtraction may reach. -/
def minInstant : Instant := -62135596800000000

/-- Resource limits fixed by a stream definition (`StreamLimits`); each is a positive integer. -/
structure StreamLimits where
  maxNameChars : ℕ+ := 128
  maxGroupChars : ℕ+ := 128
  maxOwnerChars : ℕ+ := 128
  maxProducerChars : ℕ+ := 128
  maxHeaderNameChars : ℕ+ := 128
  maxPartitions : ℕ+ := 1024
  maxPayloadBytes : ℕ+ := 1048576
  maxPartitionKeyBytes : ℕ+ := 4096
  maxHeaders : ℕ+ := 64
  maxHeaderValueBytes : ℕ+ := 16384
  maxHeaderBytes : ℕ+ := 65536
  maxReadRecords : ℕ+ := 1000
  maxRelativeAgeDays : ℕ+ := 365000
deriving DecidableEq

/-- A stream definition (`StreamDefinition`). The router is application code: the definition keeps
the identity and the compatibility key that are compared on redeclaration; what the router answers
is an input of each `append`. -/
structure StreamDefinition where
  name : String
  partitionCount : Nat
  limits : StreamLimits := {}
  routerIdentity : String := "sha256-v1"
  routerCompatibilityKey : List String := ["sha256-v1"]
  name_ne : name ≠ ""
  name_le : name.length ≤ limits.maxNameChars
  count_pos : 0 < partitionCount
  count_le : partitionCount ≤ limits.maxPartitions
  identity_ne : routerIdentity ≠ ""

def StreamDefinition.standard (name : String) (partitionCount : Nat)
    (valid : (name ≠ "" ∧ name.length ≤ 128) ∧ 0 < partitionCount ∧ partitionCount ≤ 1024) :
    StreamDefinition where
  name := name
  partitionCount := partitionCount
  limits := {}
  name_ne := valid.1.1
  name_le := valid.1.2
  count_pos := valid.2.1
  count_le := valid.2.2
  identity_ne := by decide

/-- What a redeclaration has to agree on (`compatibility_key`). -/
def StreamDefinition.compatibilityKey (d : StreamDefinition) :
    Nat × StreamLimits × String × List String :=
  (d.partitionCount, d.limits, d.routerIdentity, d.routerCompatibilityKey)

/-- An append request (`AppendRequest`). `producer_name` and `publishing_id` must be supplied
together, so they are one optional pair. -/
structure AppendRequest where
  recordId : UUID
  partitionKey : Bytes
  payload : Bytes := []
  headers : List (String × Bytes) := []
  producer : Option (String × Nat) := none
  key_ne : partitionKey ≠ []
  names_nodup : (headers.map Prod.fst).Nodup
  names_ne : ∀ h ∈ headers, h.1 ≠ ""
  producer_ne : ∀ p ∈ producer, p.1 ≠ ""

/-- Equality of requests. Headers are a mapping, so their order does not count. -/
def AppendRequest.eq (a b : AppendRequest) : Bool :=
  a.recordId = b.recordId ∧ a.partitionKey = b.partitionKey ∧ a.payload = b.payload
    ∧ a.headers.Perm b.headers ∧ a.producer = b.producer

/-- Outcomes of a publication (`PublishOutcome`). -/
inductive PublishOutcome where
  | confirmed
  | deduplicated
  | rejected
  | timedOut
  | closed
  | backpressured
  | indeterminate
deriving DecidableEq

/-- A publication receipt (`PublishReceipt`). -/
structure PublishReceipt where
  recordId : UUID
  partition : Nat
  outcome : PublishOutcome
  confirmationFacts : List String := []
deriving DecidableEq

/-- A record in a partition (`StoredRecord`). -/
structure StoredRecord where
  recordId : UUID
  stream : String
  partitionKey : Bytes
  payload : Bytes
  headers : List (String × Bytes)
  partition : Nat
  offset : Nat
  appendedAt : Instant
deriving DecidableEq

/-- The offsets available for reading (`AvailableBounds`). -/
structure AvailableBounds where
  earliestOffset : Nat
  endOffset : Nat
deriving DecidableEq

/-- The kind of a resume cursor (`CursorKind`). -/
inductive CursorKind where
  | initialized
  | lastSuccessful
deriving DecidableEq

/-- A resume cursor (`ResumeCursor`). -/
structure ResumeCursor where
  kind : CursorKind
  offset : Nat
deriving DecidableEq

/-- The cursor before any record succeeded: an inclusive start (`ResumeCursor.initialized`). -/
def ResumeCursor.initialized (offset : Nat) : ResumeCursor := ⟨.initialized, offset⟩

/-- The cursor behind a processed record (`ResumeCursor.last_successful`). -/
def ResumeCursor.lastSuccessful (offset : Nat) : ResumeCursor := ⟨.lastSuccessful, offset⟩

/-- The offsets still to be processed under a cursor. -/
def ResumeCursor.Admits (c : ResumeCursor) (offset : Nat) : Prop :=
  match c.kind with
  | .initialized => c.offset ≤ offset
  | .lastSuccessful => c.offset < offset

instance (c : ResumeCursor) (offset : Nat) : Decidable (c.Admits offset) :=
  match c with
  | ⟨.initialized, o⟩ => inferInstanceAs (Decidable (o ≤ offset))
  | ⟨.lastSuccessful, o⟩ => inferInstanceAs (Decidable (o < offset))

/-- The scope of one resume cursor and of one owner (`CheckpointKey`). -/
structure CheckpointKey where
  stream : String
  group : String
  partition : Nat
deriving DecidableEq

/-- An ownership token (`OwnershipToken`). -/
structure OwnershipToken where
  ownerId : String
  generation : Nat
deriving DecidableEq

/-- Where a group without a checkpoint starts (`StartPosition`). -/
inductive StartPosition where
  | beginning
  | «end»
  | exactOffset (offset : Nat)
  | timestamp (timestamp : Instant)
  | relativeTime (age : Nat)
deriving DecidableEq

/-- Which start modes an adapter supports (`StartModeCapabilities`). -/
structure StartModeCapabilities where
  beginning : Bool := false
  «end» : Bool := false
  exactOffset : Bool := false
  timestamp : Bool := false
  relativeTime : Bool := false

def StartModeCapabilities.supports (c : StartModeCapabilities) : StartPosition → Bool
  | .beginning => c.beginning
  | .end => c.end
  | .exactOffset _ => c.exactOffset
  | .timestamp _ => c.timestamp
  | .relativeTime _ => c.relativeTime

/-- A subscription of an owner in a group (`Subscription`). -/
structure Subscription where
  stream : String
  group : String
  ownerId : String
  start : StartPosition
  stream_ne : stream ≠ ""
  group_ne : group ≠ ""
  owner_ne : ownerId ≠ ""

/-- The typed failures of `errors.py`. `foreign` is an exception raised by application code (a
router, a clock, a checkpoint store or a handler), `value` is a `ValueError` and `cancelled` is
`asyncio.CancelledError`. -/
inductive StreamsError where
  | validation (message : String)
  | resourceLimit (message : String)
  | unknownStream (name : String)
  | incompatibleStream (name : String)
  | invalidPartition (message : String)
  | publishingConflict (message : String)
  | stalePublishingId (message : String)
  | retentionGap (stream : String) (partition : Nat) (requestedOffset : Option Nat)
      (requestedTimestamp : Option Instant) (bounds : AvailableBounds) (group : Option String)
  | ownership (message : String)
  | checkpoint (message : String)
  | checkpointPersistence (cursor : Option ResumeCursor) (cause : StreamsError)
  | checkpointStrategy (message : String)
  | lifecycle (message : String)
  | poisonRecord (key : CheckpointKey) (offset : Nat) (recordId : UUID) (cause : StreamsError)
  | adapterContract (message : String)
  | value (message : String)
  | foreign
  | cancelled
deriving DecidableEq

/-- Bounds are rejected when the end precedes the start (`AvailableBounds.__post_init__`). -/
def AvailableBounds.make (earliest stop : Nat) : Except StreamsError AvailableBounds := do
  require (earliest ≤ stop) (.validation "end_offset precedes earliest_offset")
  return ⟨earliest, stop⟩

/-- One page of records with the bounds seen when it was read (`RecordPage`). -/
structure RecordPage where
  records : List StoredRecord
  bounds : AvailableBounds

/-- A page is rejected unless its offsets strictly increase (`RecordPage.__post_init__`). -/
def RecordPage.make (records : List StoredRecord) (bounds : AvailableBounds) :
    Except StreamsError RecordPage := do
  require (records.IsChain (·.offset < ·.offset))
    (.validation "records must have strictly increasing offsets")
  return ⟨records, bounds⟩

/-- The header loop of `validate_append_request_limits`: each name and value within its own limit;
returns the aggregate size. -/
def validateHeaders (limits : StreamLimits) : Nat → List (String × Bytes) → Except StreamsError Nat
  | aggregate, [] => return aggregate
  | aggregate, (name, value) :: rest => do
    require (name.length ≤ limits.maxHeaderNameChars)
      (.resourceLimit "header name exceeds stream limit")
    require (value.length ≤ limits.maxHeaderValueBytes)
      (.resourceLimit "header value exceeds stream limit")
    validateHeaders limits (aggregate + (name.utf8ByteSize + value.length)) rest

/-- Validate an append against the limits of its stream (`validate_append_request_limits`). -/
def validateAppendRequestLimits (definition : StreamDefinition) (request : AppendRequest) :
    Except StreamsError Unit := do
  let limits := definition.limits
  require (request.partitionKey.length ≤ limits.maxPartitionKeyBytes)
    (.resourceLimit "partition key exceeds stream limit")
  require (request.payload.length ≤ limits.maxPayloadBytes)
    (.resourceLimit "payload exceeds stream limit")
  require (request.headers.length ≤ limits.maxHeaders)
    (.resourceLimit "header count exceeds stream limit")
  let aggregate ← validateHeaders limits 0 request.headers
  require (aggregate ≤ limits.maxHeaderBytes)
    (.resourceLimit "aggregate headers exceed stream limit")
  require (∀ p ∈ request.producer, p.1.length ≤ limits.maxProducerChars)
    (.resourceLimit "producer_name exceeds stream limit")

lemma validateHeaders_ok
    {limits headers acc total} : validateHeaders limits acc headers = .ok total ↔
      (∀ h ∈ headers, h.1.length ≤ limits.maxHeaderNameChars ∧
        h.2.length ≤ limits.maxHeaderValueBytes) ∧
      total = acc + (headers.map fun h => h.1.utf8ByteSize + h.2.length).sum := by
  induction headers generalizing acc with
  | nil =>
    simp only [validateHeaders, List.not_mem_nil, false_implies, implies_true, true_and,
      List.map_nil, List.sum_nil, Nat.add_zero]
    exact ⟨fun h => by cases h; rfl, fun h => by rw [h]; rfl⟩
  | cons h rest ih =>
    obtain ⟨name, value⟩ := h
    simp only [validateHeaders, bind_ok, require_ok, ih, List.mem_cons, forall_eq_or_imp,
      List.map_cons, List.sum_cons]
    constructor
    · rintro ⟨_, hn, _, hv, hrest, rfl⟩
      exact ⟨⟨⟨hn, hv⟩, hrest⟩, by omega⟩
    · rintro ⟨⟨⟨hn, hv⟩, hrest⟩, rfl⟩
      exact ⟨(), hn, (), hv, hrest, by omega⟩

lemma validateAppendRequestLimits_ok {definition request} :
    validateAppendRequestLimits definition request = .ok () ↔
      request.partitionKey.length ≤ definition.limits.maxPartitionKeyBytes ∧
      request.payload.length ≤ definition.limits.maxPayloadBytes ∧
      request.headers.length ≤ definition.limits.maxHeaders ∧
      (∀ h ∈ request.headers, h.1.length ≤ definition.limits.maxHeaderNameChars ∧
        h.2.length ≤ definition.limits.maxHeaderValueBytes) ∧
      (request.headers.map fun h => h.1.utf8ByteSize + h.2.length).sum ≤
        definition.limits.maxHeaderBytes ∧
      ∀ p ∈ request.producer, p.1.length ≤ definition.limits.maxProducerChars := by
  simp only [validateAppendRequestLimits, bind_ok, require_ok, validateHeaders_ok, exists_const]
  constructor
  · rintro ⟨key, payload, count, total, ⟨headers, rfl⟩, aggregate, producer⟩
    exact ⟨key, payload, count, headers, by omega, producer⟩
  · rintro ⟨key, payload, count, headers, aggregate, producer⟩
    exact ⟨key, payload, count, _, ⟨headers, rfl⟩, by omega, producer⟩

lemma AppendRequest.eq_iff {a b : AppendRequest} :
    a.eq b = true ↔ a.recordId = b.recordId ∧ a.partitionKey = b.partitionKey ∧
      a.payload = b.payload ∧ a.headers.Perm b.headers ∧ a.producer = b.producer := by
  simp [AppendRequest.eq]

end ToriPy.PersistentStreams
