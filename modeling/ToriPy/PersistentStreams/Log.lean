import ToriPy.PersistentStreams.Models

/-!
# The in-memory log: streams and partitions

The storage half of `InMemoryPersistentLog` (`inmemory.py`): declaring streams, appending, reading
and trimming. Each of these methods is one critical section that raises before it changes anything,
so a method is a function into `Except` whose error case leaves the log as it was.

What the application code behind a call answers is an argument of the call: `RouterAnswer` for
`router.route` and `ClockReading` for the clock. Nothing is assumed of either.
-/

namespace ToriPy.PersistentStreams

/-- What the clock of the log answers when it is read. -/
inductive ClockReading where
  | aware (instant : Instant)
  | notAware
  | raised

/-- What the router answers when it is asked for a partition. -/
inductive RouterAnswer where
  | returned (value : Int)
  | notInteger
  | raised

/-- One partition (`_PartitionState`). -/
structure PartitionState where
  records : List StoredRecord := []
  nextOffset : Nat := 0
  earliestOffset : Nat := 0
  lastTimestamp : Option Instant := none
  removedThrough : Option Instant := none

/-- The latest accepted publication of one producer in one partition (`_ProducerState`). -/
structure ProducerState where
  publishingId : Nat
  request : AppendRequest
  receipt : PublishReceipt

/-- A declared stream (`_StreamState`), with as many partitions as its definition says. -/
structure StreamState where
  definition : StreamDefinition
  partitions : List PartitionState
  producers : Dict (Nat × String) ProducerState := ∅
  count : partitions.length = definition.partitionCount

abbrev LeaseId := Nat

/-- An external checkpoint store object, by its identity. -/
abbrev StoreId := Nat

/-- The marker object of a transfer in progress: the call that made it. -/
abbrev Marker := Nat

/-- The scope a checkpoint strategy is fixed for: a stream and a group. -/
abbrev Scope := String × String

/-- The checkpoint strategy of a group (`_StrategyBinding`): equal when the mode, the identity and
the store object are. -/
inductive StrategyBinding where
  | brokerManaged
  | external (identity : String) (store : StoreId)
deriving DecidableEq

/-- The checkpoint store a strategy keeps its cursors in; `none` is the log's own table. -/
def StrategyBinding.store : StrategyBinding → Option StoreId
  | .brokerManaged => none
  | .external _ store => some store

/-- The fields of `InMemoryPersistentLog` that a method reads. -/
structure Log where
  maxActiveLeases : ℕ+ := 4096
  streams : Dict String StreamState := ∅
  owners : Dict CheckpointKey OwnershipToken := ∅
  leases : Dict CheckpointKey LeaseId := ∅
  transfers : Dict CheckpointKey Marker := ∅
  generations : Dict CheckpointKey Nat := ∅
  brokerCursors : Dict CheckpointKey ResumeCursor := ∅
  groupStrategies : Dict Scope StrategyBinding := ∅
  pendingGroupStrategies : Dict Scope (StrategyBinding × Nat) := ∅
  closed : Bool := false

/-- `start_mode_capabilities` of the in-memory log. -/
def startModeCapabilities : StartModeCapabilities := ⟨true, true, true, true, true⟩

/-- Read the clock (`_now`). -/
def now : ClockReading → Except StreamsError Instant
  | .aware instant => .ok instant
  | .notAware => .error (.validation "clock must return an aware datetime")
  | .raised => .error .foreign

/-- The available offsets of a partition (`_bounds`). -/
def PartitionState.bounds (part : PartitionState) : Except StreamsError AvailableBounds :=
  AvailableBounds.make part.earliestOffset part.nextOffset

/-- Refuse an offset below the retained history (`_require_retained`). -/
def requireRetained (stream : String) (partition offset : Nat) (part : PartitionState)
    (group : Option String) : Except StreamsError Unit :=
  if offset < part.earliestOffset then do
    let bounds ← part.bounds
    .error (.retentionGap stream partition (some offset) none bounds group)
  else .ok ()

/-- The offset and limit checks of a read (`_validate_read`). -/
def validateRead (definition : StreamDefinition) (fromOffset limit : Int) :
    Except StreamsError Unit := do
  require (0 ≤ fromOffset) (.validation "from_offset must be a non-negative integer")
  require (0 < limit) (.validation "limit must be a positive integer")
  require (limit ≤ definition.limits.maxReadRecords)
    (.resourceLimit "read limit exceeds stream limit")

def StreamState.partitionAt (state : StreamState) (index : Nat) :
    Except StreamsError PartitionState :=
  match state.partitions[index]? with
  | some part => .ok part
  | none => .error (.invalidPartition "partition is out of range")

/-- The partition named by an argument, with its index (`_partition`). -/
def StreamState.partition (state : StreamState) : Int → Except StreamsError (Nat × PartitionState)
  | .ofNat index => do
    let part ← state.partitionAt index
    return (index, part)
  | .negSucc _ => .error (.invalidPartition "partition is out of range")

def StreamState.setPartition (state : StreamState) (index : Nat) (part : PartitionState) :
    StreamState :=
  { state with
    partitions := state.partitions.set index part
    count := by rw [List.length_set, state.count] }

/-- The partition the router answered, if it is one of the stream. -/
def routedPartition (definition : StreamDefinition) : RouterAnswer → Except StreamsError Nat
  | .returned (.ofNat index) => do
    require (index < definition.partitionCount)
      (.invalidPartition "router returned an invalid partition")
    return index
  | .returned (.negSucc _) => .error (.invalidPartition "router returned an invalid partition")
  | .notInteger => .error (.invalidPartition "router returned an invalid partition")
  | .raised => .error .foreign

/-- The named-producer check of `append`: the receipt of an equal retry, or `none` to go on. -/
def StreamState.producerCheck (state : StreamState) (partition : Nat) (request : AppendRequest) :
    Except StreamsError (Option PublishReceipt) :=
  match request.producer with
  | none => .ok none
  | some (name, publishingId) =>
    match state.producers.lookup (partition, name) with
    | none => .ok none
    | some existing =>
      if publishingId = existing.publishingId then
        if request.eq existing.request then
          .ok (some ⟨existing.receipt.recordId, partition, .deduplicated,
            existing.receipt.confirmationFacts⟩)
        else .error (.publishingConflict "publishing ID request differs")
      else if publishingId < existing.publishingId then
        .error (.stalePublishingId "publishing ID is stale")
      else .ok none

/-- The append time of a record: the clock, but never before the previous record. -/
def PartitionState.appendedAt (part : PartitionState) (clock : Instant) : Instant :=
  match part.lastTimestamp with
  | some last => if clock < last then last else clock
  | none => clock

def PartitionState.nextRecord (part : PartitionState) (stream : String) (partition : Nat)
    (request : AppendRequest) (clock : Instant) : StoredRecord where
  recordId := request.recordId
  stream := stream
  partitionKey := request.partitionKey
  payload := request.payload
  headers := request.headers
  partition := partition
  offset := part.nextOffset
  appendedAt := part.appendedAt clock

/-- A partition after a record was put at its end. Offsets are sparse: each takes two. -/
def PartitionState.push (part : PartitionState) (record : StoredRecord) : PartitionState :=
  { part with
    nextOffset := part.nextOffset + 2
    records := part.records ++ [record]
    lastTimestamp := some record.appendedAt }

/-- The producers table after a request was accepted. -/
def StreamState.remember (state : StreamState) (partition : Nat) (request : AppendRequest)
    (receipt : PublishReceipt) : StreamState :=
  match request.producer with
  | none => state
  | some (name, publishingId) =>
    { state with
      producers := state.producers.insert (partition, name) ⟨publishingId, request, receipt⟩ }

/-- Remove the records below a boundary from a partition; their number comes first (`trim`). -/
def PartitionState.trim (part : PartitionState) (beforeOffset : Nat) : Nat × PartitionState :=
  let boundary := min beforeOffset part.nextOffset
  let removed := part.records.filter (·.offset < boundary)
  (removed.length,
    { part with
      records := part.records.filter (boundary ≤ ·.offset)
      earliestOffset := max part.earliestOffset boundary
      removedThrough :=
        match removed.getLast? with
        | some last => some last.appendedAt
        | none => part.removedThrough })

namespace Log

/-- Refuse every operation on a closed log (`_require_open`). -/
def requireOpen (log : Log) : Except StreamsError Unit :=
  require (log.closed = false) (.lifecycle "persistent log is closed")

/-- The state of a declared stream (`_stream`). -/
def stream (log : Log) (name : String) : Except StreamsError StreamState :=
  match log.streams.lookup name with
  | some state => .ok state
  | none => .error (.unknownStream name)

def setStream (log : Log) (name : String) (state : StreamState) : Log :=
  { log with streams := log.streams.insert name state }

/-- Declare a stream, or check a redeclaration against the first (`declare_stream`). -/
def declareStream (log : Log) (definition : StreamDefinition) : Except StreamsError Log := do
  log.requireOpen
  match log.streams.lookup definition.name with
  | some current =>
    require (current.definition.compatibilityKey = definition.compatibilityKey)
      (.incompatibleStream definition.name)
    return log
  | none =>
    return log.setStream definition.name
      { definition := definition
        partitions := List.replicate definition.partitionCount {}
        count := List.length_replicate }

/-- What a returning `append` leaves: its receipt, the record it stored (none for an equal retry)
and the log after it. -/
structure Appended where
  receipt : PublishReceipt
  stored : Option StoredRecord
  log : Log

/-- Append one request (`append`). -/
def append (log : Log) (clock : ClockReading) (answer : RouterAnswer) (stream : String)
    (request : AppendRequest) : Except StreamsError Appended := do
  log.requireOpen
  let state ← log.stream stream
  validateAppendRequestLimits state.definition request
  let partition ← routedPartition state.definition answer
  match ← state.producerCheck partition request with
  | some receipt => return ⟨receipt, none, log⟩
  | none =>
    let part ← state.partitionAt partition
    let instant ← now clock
    let record := part.nextRecord stream partition request instant
    let receipt : PublishReceipt :=
      ⟨request.recordId, partition, .confirmed, ["in-memory-accepted"]⟩
    let state := state.setPartition partition (part.push record)
    let state := state.remember partition request receipt
    return ⟨receipt, some record, log.setStream stream state⟩

/-- The available offsets (`bounds`). -/
def bounds (log : Log) (stream : String) (partition : Int) :
    Except StreamsError AvailableBounds := do
  log.requireOpen
  let state ← log.stream stream
  let (_, part) ← state.partition partition
  part.bounds

/-- Read one page (`read`). -/
def read (log : Log) (stream : String) (partition fromOffset limit : Int) :
    Except StreamsError RecordPage := do
  log.requireOpen
  let state ← log.stream stream
  let (index, part) ← state.partition partition
  validateRead state.definition fromOffset limit
  requireRetained stream index fromOffset.toNat part none
  let records := (part.records.filter (fromOffset.toNat ≤ ·.offset)).take limit.toNat
  let bounds ← part.bounds
  RecordPage.make records bounds

/-- Remove the records below an offset; returns how many (`trim`). -/
def trim (log : Log) (stream : String) (partition beforeOffset : Int) :
    Except StreamsError (Nat × Log) := do
  log.requireOpen
  let state ← log.stream stream
  let (index, part) ← state.partition partition
  validateRead state.definition beforeOffset 1
  let (removed, part) := part.trim beforeOffset.toNat
  return (removed, log.setStream stream (state.setPartition index part))

def partition? (log : Log) (stream : String) (index : Nat) : Option PartitionState :=
  (log.streams.lookup stream).bind (·.partitions[index]?)

end Log

end ToriPy.PersistentStreams
