import ToriPy.Base.Struct
import ToriPy.PersistentStreams.Models

/-!
# The record envelope of the RabbitMQ log

`_envelope.py`: the body of a message is a fixed start with the lengths of what follows, the partition
key, the headers in the order of their UTF-8 names, and the payload. Below are the two directions as
the code computes them and what their loops do: a round of either loop succeeds on the same headers,
with the same bytes (`encodeHeader_ok`, `decodeHeader_ok`).

A position in the view is the list of the bytes that are left. The content type of an envelope can
only be the canonical one and is left out. A `str` here is one that has a UTF-8 encoding.
-/

namespace ToriPy.PersistentStreams.RabbitMq

open List

/-- What encoding and decoding raise: `EnvelopeError` and `struct.error`. -/
inductive EnvelopeFailure where
  | envelope (message : String)
  | struct
deriving DecidableEq

/-- `EnvelopeKind`. -/
inductive EnvelopeKind where
  | record
  | barrier
deriving DecidableEq

def EnvelopeKind.code : EnvelopeKind → Nat
  | .record => 1
  | .barrier => 2

/-- `EnvelopeKind(raw_kind)`. -/
def EnvelopeKind.ofCode : Nat → Except EnvelopeFailure EnvelopeKind
  | 1 => .ok .record
  | 2 => .ok .barrier
  | _ => .error (.envelope "unsupported envelope kind")

lemma EnvelopeKind.ofCode_ok {n kind} : EnvelopeKind.ofCode n = .ok kind ↔ n = kind.code := by
  constructor
  · intro h
    unfold EnvelopeKind.ofCode at h
    split at h <;> cases h <;> rfl
  · rintro rfl
    cases kind <;> rfl

/-- `EnvelopeLimits`; each is a positive integer. -/
structure EnvelopeLimits where
  maxMessageBytes : ℕ+ := 2097152
  maxPayloadBytes : ℕ+ := 1048576
  maxPartitionKeyBytes : ℕ+ := 4096
  maxHeaders : ℕ+ := 64
  maxHeaderNameBytes : ℕ+ := 256
  maxHeaderValueBytes : ℕ+ := 16384
  maxHeaderBytes : ℕ+ := 65536

/-- The limits of the envelopes of a stream (`envelope_limits`). -/
def envelopeLimits (definition : StreamDefinition) : EnvelopeLimits where
  maxMessageBytes := definition.limits.maxPayloadBytes + definition.limits.maxHeaderBytes
    + definition.limits.maxPartitionKeyBytes + 4096
  maxPayloadBytes := definition.limits.maxPayloadBytes
  maxPartitionKeyBytes := definition.limits.maxPartitionKeyBytes
  maxHeaders := definition.limits.maxHeaders
  maxHeaderNameBytes := definition.limits.maxHeaderNameChars * 4
  maxHeaderValueBytes := definition.limits.maxHeaderValueBytes
  maxHeaderBytes := definition.limits.maxHeaderBytes

/-! ### Envelopes -/

/-- The assignment `headers[name] = value` on the items of a `dict`. -/
def setItem (name : String) (value : Bytes) : List (String × Bytes) → List (String × Bytes)
  | [] => [(name, value)]
  | (n, v) :: rest => if n = name then (n, value) :: rest else (n, v) :: setItem name value rest

variable {limits : EnvelopeLimits} {previousName : Option Bytes} {name : String}
  {value data : Bytes} {aggregate : Nat} {rest : Bytes}

lemma setItem_of_notMem {items} (fresh : name ∉ items.map Prod.fst) :
    setItem name value items = items ++ [(name, value)] := by
  induction items with
  | nil => rfl
  | cons item items ih =>
    rw [map_cons, mem_cons, not_or] at fresh
    rw [setItem, if_neg (Ne.symm fresh.1), ih fresh.2, cons_append]

lemma names_setItem (items : List (String × Bytes)) :
    (setItem name value items).map Prod.fst =
      if name ∈ items.map Prod.fst then items.map Prod.fst else items.map Prod.fst ++ [name] := by
  induction items with
  | nil => rfl
  | cons item items ih =>
    unfold setItem
    by_cases same : item.1 = name
    · rw [if_pos same, if_pos (by simp [same])]
      rfl
    · rw [if_neg same, map_cons, ih, map_cons]
      by_cases mem : name ∈ items.map Prod.fst
      · rw [if_pos mem, if_pos (mem_cons_of_mem _ mem)]
      · rw [if_neg mem, if_neg (by simp_all [Ne.symm same]), cons_append]

/-- Headers: the items of a `dict` in the order of their insertion. -/
structure Headers where
  items : List (String × Bytes) := []
  nodup : (items.map Prod.fst).Nodup := by simp

/-- `headers[name] = value`. -/
def Headers.set (headers : Headers) (name : String) (value : Bytes) : Headers where
  items := setItem name value headers.items
  nodup := by
    rw [names_setItem]
    split
    · exact headers.nodup
    rename_i fresh
    rw [nodup_append]
    refine ⟨headers.nodup, nodup_singleton _, ?_⟩
    intro n mem m last
    rw [mem_singleton.mp last]
    exact fun same => fresh (same ▸ mem)

lemma Headers.ext {a b : Headers} (same : a.items = b.items) : a = b := by
  cases a
  cases b
  cases same
  rfl

/-- The partition key of a barrier, `b"_psrm"`. -/
def barrierKey : Bytes := encodeUtf8 "_psrm"

/-- An envelope (`RecordEnvelope`). -/
structure RecordEnvelope where
  recordId : UUID
  partitionKey : Bytes
  headers : Headers
  payload : Bytes
  kind : EnvelopeKind := .record
  key_ne : partitionKey ≠ []
  names_ne : ∀ h ∈ headers.items, h.1 ≠ ""
  bare : kind = .barrier → partitionKey = barrierKey ∧ headers.items = [] ∧ payload = []

/-- `RecordEnvelope(...)` with the checks of its `__post_init__`. -/
def RecordEnvelope.make (recordId : UUID) (partitionKey : Bytes) (headers : Headers)
    (payload : Bytes) (kind : EnvelopeKind) : Except EnvelopeFailure RecordEnvelope :=
  if key_ne : partitionKey ≠ [] then
    if names_ne : ∀ h ∈ headers.items, h.1 ≠ "" then
      if bare : kind = .barrier → partitionKey = barrierKey ∧ headers.items = [] ∧ payload = [] then
        .ok { recordId, partitionKey, headers, payload, kind, key_ne, names_ne, bare }
      else .error (.envelope "barrier envelope has invalid application fields")
    else .error (.envelope "header names must be non-empty strings")
  else .error (.envelope "partition_key must not be empty")

lemma RecordEnvelope.make_ok {recordId key headers payload kind e} :
    RecordEnvelope.make recordId key headers payload kind = .ok e ↔
      recordId = e.recordId ∧ key = e.partitionKey ∧ headers = e.headers ∧ payload = e.payload ∧
        kind = e.kind := by
  unfold RecordEnvelope.make
  constructor
  · intro h
    split at h
    · split at h
      · split at h
        · cases h
          exact ⟨rfl, rfl, rfl, rfl, rfl⟩
        · cases h
      · cases h
    · cases h
  · rintro ⟨rfl, rfl, rfl, rfl, rfl⟩
    rw [dif_pos e.key_ne, dif_pos e.names_ne, dif_pos e.bare]

/-- Equality of envelopes. Headers are a mapping, so their order does not count. -/
def RecordEnvelope.eq (a b : RecordEnvelope) : Bool :=
  a.recordId = b.recordId ∧ a.partitionKey = b.partitionKey ∧ a.headers.items.Perm b.headers.items
    ∧ a.payload = b.payload ∧ a.kind = b.kind

/-- The envelope that `append` makes of a request. -/
def RecordEnvelope.ofRequest (request : AppendRequest) : RecordEnvelope where
  recordId := request.recordId
  partitionKey := request.partitionKey
  headers := ⟨request.headers, request.names_nodup⟩
  payload := request.payload
  key_ne := request.key_ne
  names_ne := request.names_ne
  bare barrier := by cases barrier

/-! ### Encoding -/

/-- `MAGIC`. -/
def magic : Bytes := encodeUtf8 "PSRM"

/-- `VERSION`. -/
def version : Nat := 2

/-- `_PREFIX`, `>4sBB16sIH`: the magic, the version, the kind, the record ID, the length of the
partition key and the number of headers. -/
def prefixStruct : Struct (Bytes × Nat × Nat × Bytes × Nat × Nat) :=
  (Struct.raw 4).pair <| (Struct.uint 1).pair <| (Struct.uint 1).pair <| (Struct.raw 16).pair <|
    (Struct.uint 4).pair (Struct.uint 2)

/-- `_HEADER`, `>HI`: the lengths of a name and of its value. -/
def headerStruct : Struct (Nat × Nat) := (Struct.uint 2).pair (Struct.uint 4)

/-- `_PAYLOAD_LENGTH`, `>Q`. -/
def payloadLengthStruct : Struct Nat := Struct.uint 8

instance {p : Bytes × Nat × Nat × Bytes × Nat × Nat} : Decidable (prefixStruct.Fits p) := by
  unfold prefixStruct
  infer_instance

instance {p : Nat × Nat} : Decidable (headerStruct.Fits p) := by
  unfold headerStruct
  infer_instance

instance {n : Nat} : Decidable (payloadLengthStruct.Fits n) := by
  unfold payloadLengthStruct
  infer_instance

/-- `UUID.bytes`. -/
def uuidBytes (id : UUID) : Bytes := bigEndian 16 id.toNat

/-- `UUID(bytes=...)`. -/
def uuidOfBytes (data : Bytes) : UUID := BitVec.ofNat 128 (ofBigEndian data)

/-- The order of the headers in an envelope: that of the bytes of their names. -/
def nameOrder (a b : String × Bytes) : Bool := encodeUtf8 a.1 ≤ encodeUtf8 b.1

def sortedHeaders (headers : Headers) : List (String × Bytes) := headers.items.mergeSort nameOrder

/-- One round of the loop of `encode_envelope`: the bytes of the header and the new aggregate. -/
def encodeHeader (limits : EnvelopeLimits) (previousName : Option Bytes) (aggregate : Nat)
    (name : String) (value : Bytes) : Except EnvelopeFailure (Bytes × Nat) := do
  let nameBytes := encodeUtf8 name
  require (nameBytes ≠ [] ∧ previousName ≠ some nameBytes)
    (.envelope "header names must be non-empty and unique")
  require (nameBytes.length ≤ limits.maxHeaderNameBytes ∧ value.length ≤ limits.maxHeaderValueBytes)
    (.envelope "header exceeds limit")
  let aggregate := aggregate + (nameBytes.length + value.length)
  require (aggregate ≤ limits.maxHeaderBytes) (.envelope "aggregate headers exceed limit")
  let lengths ← headerStruct.pack .struct (nameBytes.length, value.length)
  return (lengths ++ nameBytes ++ value, aggregate)

/-- The loop of `encode_envelope` over the headers. -/
def encodeHeaders (limits : EnvelopeLimits) :
    Option Bytes → Nat → List (String × Bytes) → Except EnvelopeFailure Bytes
  | _, _, [] => return []
  | previousName, aggregate, (name, value) :: rest => do
    let (field, aggregate) ← encodeHeader limits previousName aggregate name value
    let fields ← encodeHeaders limits (some (encodeUtf8 name)) aggregate rest
    return field ++ fields

/-- `encode_envelope`. -/
def encodeEnvelope (envelope : RecordEnvelope) (limits : EnvelopeLimits) :
    Except EnvelopeFailure Bytes := do
  let headers := sortedHeaders envelope.headers
  require (envelope.partitionKey.length ≤ limits.maxPartitionKeyBytes)
    (.envelope "partition key exceeds limit")
  require (envelope.payload.length ≤ limits.maxPayloadBytes ∧ headers.length ≤ limits.maxHeaders)
    (.envelope "payload or header count exceeds limit")
  let start ← prefixStruct.pack .struct (magic, version, envelope.kind.code,
    uuidBytes envelope.recordId, envelope.partitionKey.length, headers.length)
  let fields ← encodeHeaders limits none 0 headers
  let length ← payloadLengthStruct.pack .struct envelope.payload.length
  let output := start ++ (envelope.partitionKey ++ (fields ++ (length ++ envelope.payload)))
  require (output.length ≤ limits.maxMessageBytes)
    (.envelope "encoded envelope exceeds message limit")
  return output

/-! ### Decoding -/

/-- `_take`. -/
def takeField (length : Nat) (data : Bytes) : Except EnvelopeFailure (Bytes × Bytes) :=
  takeBytes (.envelope "truncated envelope field") length data

def decodeName (nameBytes : Bytes) : Except EnvelopeFailure String :=
  (decodeUtf8 nameBytes).elim (.error (.envelope "header name is not UTF-8")) .ok

/-- One round of the loop of `decode_envelope`: the header, the new aggregate and the bytes that are
left. -/
def decodeHeader (limits : EnvelopeLimits) (previousName : Option Bytes) (aggregate : Nat)
    (data : Bytes) : Except EnvelopeFailure ((String × Bytes) × Nat × Bytes) := do
  require (headerStruct.size ≤ data.length) (.envelope "truncated header lengths")
  let ((nameLength, valueLength), data) ← headerStruct.unpackFrom .struct data
  require (nameLength ≠ 0 ∧ nameLength ≤ limits.maxHeaderNameBytes ∧
    valueLength ≤ limits.maxHeaderValueBytes) (.envelope "header exceeds limit")
  let aggregate := aggregate + (nameLength + valueLength)
  require (aggregate ≤ limits.maxHeaderBytes) (.envelope "aggregate headers exceed limit")
  let (nameBytes, data) ← takeField nameLength data
  let (value, data) ← takeField valueLength data
  require (∀ previous ∈ previousName, previous < nameBytes)
    (.envelope "header names are not in unique canonical order")
  let name ← decodeName nameBytes
  return ((name, value), aggregate, data)

/-- The loop of `decode_envelope` over the headers. -/
def decodeHeaders (limits : EnvelopeLimits) : Nat → Headers → Option Bytes → Nat → Bytes →
    Except EnvelopeFailure (Headers × Bytes)
  | 0, headers, _, _, data => return (headers, data)
  | count + 1, headers, previousName, aggregate, data => do
    let ((name, value), aggregate, data) ← decodeHeader limits previousName aggregate data
    decodeHeaders limits count (headers.set name value) (some (encodeUtf8 name)) aggregate data

def decodePayload (limits : EnvelopeLimits) (data : Bytes) : Except EnvelopeFailure Bytes := do
  require (payloadLengthStruct.size ≤ data.length) (.envelope "truncated payload length")
  let (payloadLength, data) ← payloadLengthStruct.unpackFrom .struct data
  require (payloadLength ≤ limits.maxPayloadBytes) (.envelope "payload exceeds limit")
  let (payload, data) ← takeField payloadLength data
  require (data = []) (.envelope "trailing envelope bytes")
  return payload

/-- `decode_envelope`. -/
def decodeEnvelope (data : Bytes) (limits : EnvelopeLimits) :
    Except EnvelopeFailure RecordEnvelope := do
  require (data.length ≤ limits.maxMessageBytes ∧ prefixStruct.size ≤ data.length)
    (.envelope "envelope is oversized or truncated")
  let ((start, versionByte, rawKind, recordId, partitionLength, headerCount), data) ←
    prefixStruct.unpackFrom .struct data
  require (start = magic ∧ versionByte = version)
    (.envelope "unsupported envelope magic or version")
  let kind ← EnvelopeKind.ofCode rawKind
  require (partitionLength ≠ 0 ∧ partitionLength ≤ limits.maxPartitionKeyBytes ∧
    headerCount ≤ limits.maxHeaders) (.envelope "envelope component exceeds limit")
  let (partitionKey, data) ← takeField partitionLength data
  let (headers, data) ← decodeHeaders limits headerCount {} none 0 data
  let payload ← decodePayload limits data
  RecordEnvelope.make (uuidOfBytes recordId) partitionKey headers payload kind

/-! ### The bytes of an envelope -/

def headerBytes (h : String × Bytes) : Bytes :=
  headerStruct.put (h.1.utf8ByteSize, h.2.length) ++ (encodeUtf8 h.1 ++ h.2)

def headersSize (headers : List (String × Bytes)) : Nat :=
  (headers.map fun h => h.1.utf8ByteSize + h.2.length).sum

/-- A header that the format and the limits have room for. -/
structure HeaderFits (limits : EnvelopeLimits) (h : String × Bytes) : Prop where
  name_ne : h.1 ≠ ""
  name_le : h.1.utf8ByteSize ≤ limits.maxHeaderNameBytes
  value_le : h.2.length ≤ limits.maxHeaderValueBytes
  lengths : headerStruct.Fits (h.1.utf8ByteSize, h.2.length)

/-- The names of the headers strictly increase, from the name of the header before them. -/
def Ascends : Option Bytes → List (String × Bytes) → Prop
  | _, [] => True
  | previousName, h :: rest =>
    (∀ previous ∈ previousName, previous < encodeUtf8 h.1) ∧ Ascends (some (encodeUtf8 h.1)) rest

lemma decodeName_ok {nameBytes} :
    decodeName nameBytes = .ok name ↔ nameBytes = encodeUtf8 name := by
  rw [← decodeUtf8_eq_some, decodeName]
  cases decodeUtf8 nameBytes <;> simp

lemma encodeHeader_ok {out total} :
    encodeHeader limits previousName aggregate name value = .ok (out, total) ↔
      HeaderFits limits (name, value) ∧ previousName ≠ some (encodeUtf8 name) ∧
      total = aggregate + (name.utf8ByteSize + value.length) ∧ total ≤ limits.maxHeaderBytes ∧
      out = headerBytes (name, value) := by
  simp only [encodeHeader, bind_ok, require_ok, Struct.pack_ok, exists_const, length_encodeUtf8, ne_eq,
    encodeUtf8_eq_nil]
  constructor
  · rintro ⟨⟨nonempty, fresh⟩, ⟨name_le, value_le⟩, bounded, _, ⟨fits, rfl⟩, same⟩
    cases same
    exact ⟨⟨nonempty, name_le, value_le, fits⟩, fresh, rfl, bounded, append_assoc _ _ _⟩
  · rintro ⟨⟨nonempty, name_le, value_le, fits⟩, fresh, rfl, bounded, rfl⟩
    refine ⟨⟨nonempty, fresh⟩, ⟨name_le, value_le⟩, bounded, _, ⟨fits, rfl⟩, ?_⟩
    rw [append_assoc]
    rfl

lemma decodeHeader_ok {total h} :
    decodeHeader limits previousName aggregate data = .ok (h, total, rest) ↔
      HeaderFits limits h ∧ (∀ previous ∈ previousName, previous < encodeUtf8 h.1) ∧
      total = aggregate + (h.1.utf8ByteSize + h.2.length) ∧ total ≤ limits.maxHeaderBytes ∧
      data = headerBytes h ++ rest := by
  simp only [decodeHeader, bind_ok, require_ok, exists_const, Struct.unpackFrom_ok, takeField,
    takeBytes_ok, decodeName_ok, Prod.exists]
  constructor
  · rintro ⟨-, _, _, _, ⟨fits, rfl⟩, ⟨nonempty, name_le, value_le⟩, bounded, _, _, ⟨rfl, rfl⟩, _,
      _, ⟨rfl, rfl⟩, ascends, _, rfl, same⟩
    cases same
    rw [length_encodeUtf8] at nonempty name_le bounded fits
    refine ⟨⟨?_, name_le, value_le, fits⟩, ascends, ?_, ?_, ?_⟩
    · rintro rfl
      exact nonempty rfl
    · rw [length_encodeUtf8]
    · rw [length_encodeUtf8]
      exact bounded
    · simp only [headerBytes, length_encodeUtf8, append_assoc]
  · rintro ⟨⟨_, name_le, value_le, fits⟩, ascends, rfl, bounded, rfl⟩
    have bytes : headerBytes h ++ rest = headerStruct.put (h.1.utf8ByteSize, h.2.length) ++
        (encodeUtf8 h.1 ++ (h.2 ++ rest)) := by
      simp only [headerBytes, append_assoc]
    rw [bytes]
    refine ⟨Struct.size_le fits, _, _, _, ⟨fits, rfl⟩, ⟨?_, name_le, value_le⟩, bounded, _, _,
      ⟨length_encodeUtf8, rfl⟩, _, _, ⟨rfl, rfl⟩, ascends, _, rfl, rfl⟩
    rwa [← length_encodeUtf8, ne_eq, length_eq_zero_iff, encodeUtf8_eq_nil]

lemma Ascends.ne {rest} (ascends : Ascends previousName ((name, value) :: rest)) :
    previousName ≠ some (encodeUtf8 name) := by
  rintro rfl
  exact List.lt_irrefl _ (ascends.1 _ rfl)

lemma encodeHeaders_ok {headers out} (ascends : Ascends previousName headers)
    (bounded : aggregate ≤ limits.maxHeaderBytes) :
    encodeHeaders limits previousName aggregate headers = .ok out ↔
      (∀ h ∈ headers, HeaderFits limits h) ∧
      aggregate + headersSize headers ≤ limits.maxHeaderBytes ∧
      headers.flatMap headerBytes = out := by
  induction headers generalizing previousName aggregate out with
  | nil =>
    constructor
    · intro encoded
      cases encoded
      exact ⟨nofun, bounded, rfl⟩
    · rintro ⟨-, -, rfl⟩
      rfl
  | cons h rest ih =>
    obtain ⟨_, _⟩ := h
    simp only [encodeHeaders, bind_ok, Prod.exists, encodeHeader_ok, headersSize, map_cons,
      sum_cons, forall_mem_cons, flatMap_cons]
    constructor
    · rintro ⟨_, _, ⟨fits, -, rfl, total_le, rfl⟩, _, encoded, same⟩
      cases same
      obtain ⟨rest_fit, rest_le, rfl⟩ := (ih ascends.2 total_le).mp encoded
      refine ⟨⟨fits, rest_fit⟩, ?_, rfl⟩
      rw [← Nat.add_assoc]
      exact rest_le
    · rintro ⟨⟨fits, rest_fit⟩, total_le, rfl⟩
      rw [← Nat.add_assoc] at total_le
      have sum_le := (Nat.le_add_right _ _).trans total_le
      exact ⟨_, _, ⟨fits, ascends.ne, rfl, sum_le, rfl⟩, _,
        (ih ascends.2 sum_le).mpr ⟨rest_fit, total_le, rfl⟩, rfl⟩

lemma decodeHeaders_ok {count} {headers decoded : Headers}
    (before : ∀ h ∈ headers.items, ∃ previous ∈ previousName, encodeUtf8 h.1 ≤ previous)
    (bounded : aggregate ≤ limits.maxHeaderBytes) :
    decodeHeaders limits count headers previousName aggregate data = .ok (decoded, rest) ↔
      ∃ items, items.length = count ∧ decoded.items = headers.items ++ items ∧
        Ascends previousName items ∧ (∀ h ∈ items, HeaderFits limits h) ∧
        aggregate + headersSize items ≤ limits.maxHeaderBytes ∧
        data = items.flatMap headerBytes ++ rest := by
  induction count generalizing headers previousName aggregate data with
  | zero =>
    constructor
    · intro h
      cases h
      exact ⟨[], rfl, (append_nil _).symm, trivial, nofun, bounded, rfl⟩
    · rintro ⟨items, none, same, -, -, -, rfl⟩
      cases length_eq_zero_iff.mp none
      rw [decodeHeaders, Headers.ext (same.trans (append_nil _))]
      rfl
  | succ count ih =>
    simp only [decodeHeaders, bind_ok, Prod.exists, decodeHeader_ok]
    -- The name that is read is above those before, so that the assignment adds it at the end.
    have fresh : ∀ name : String, (∀ previous ∈ previousName, previous < encodeUtf8 name) →
        ∀ value, (headers.set name value).items = headers.items ++ [(name, value)] := by
      intro name above value
      refine setItem_of_notMem fun named => ?_
      obtain ⟨h, mem, rfl⟩ := mem_map.mp named
      obtain ⟨previous, same, le⟩ := before h mem
      exact List.lt_irrefl _ (List.lt_of_le_of_lt le (above previous same))
    have next : ∀ name : String, (∀ previous ∈ previousName, previous < encodeUtf8 name) →
        ∀ value, ∀ h ∈ (headers.set name value).items,
          ∃ previous ∈ some (encodeUtf8 name), encodeUtf8 h.1 ≤ previous := by
      intro name above value h mem
      rw [fresh name above value, mem_append, mem_singleton] at mem
      obtain mem | rfl := mem
      · obtain ⟨previous, same, le⟩ := before h mem
        exact ⟨_, rfl, List.le_of_lt (List.lt_of_le_of_lt le (above previous same))⟩
      · exact ⟨_, rfl, List.le_refl _⟩
    constructor
    · rintro ⟨name, value, _, _, ⟨fits, above, rfl, total_le, rfl⟩, h⟩
      obtain ⟨items, rfl, same, ascends, rest_fit, rest_le, rfl⟩ :=
        (ih (next name above value) total_le).mp h
      refine ⟨(name, value) :: items, rfl, ?_, ⟨above, ascends⟩,
        forall_mem_cons.mpr ⟨fits, rest_fit⟩, ?_, ?_⟩
      · rw [same, fresh name above value, append_assoc]
        rfl
      · rw [headersSize, map_cons, sum_cons, ← Nat.add_assoc]
        exact rest_le
      · rw [flatMap_cons, append_assoc]
    · rintro ⟨items, length, same, ascends, fit, total_le, rfl⟩
      obtain ⟨⟨name, value⟩, items, rfl⟩ := exists_cons_of_length_eq_add_one length
      rw [headersSize, map_cons, sum_cons, ← Nat.add_assoc] at total_le
      obtain ⟨fits, rest_fit⟩ := forall_mem_cons.mp fit
      have sum_le := (Nat.le_add_right _ _).trans total_le
      refine ⟨name, value, _, _, ⟨fits, ascends.1, rfl, sum_le, ?_⟩,
        (ih (next name ascends.1 value) sum_le).mpr
          ⟨items, Nat.succ.inj length, ?_, ascends.2, rest_fit, total_le, rfl⟩⟩
      · rw [flatMap_cons, append_assoc]
      · rw [same, fresh name ascends.1 value, append_assoc]
        rfl

lemma decodeHeaders_start {count decoded} :
    decodeHeaders limits count {} none 0 data = .ok (decoded, rest) ↔
      decoded.items.length = count ∧ Ascends none decoded.items ∧
        (∀ h ∈ decoded.items, HeaderFits limits h) ∧
        headersSize decoded.items ≤ limits.maxHeaderBytes ∧
        data = decoded.items.flatMap headerBytes ++ rest := by
  rw [decodeHeaders_ok (fun h mem => absurd mem not_mem_nil) (Nat.zero_le _)]
  simp only [nil_append, Nat.zero_add]
  constructor
  · rintro ⟨_, length, rfl, rest⟩
    exact ⟨length, rest⟩
  · rintro ⟨length, rest⟩
    exact ⟨_, length, rfl, rest⟩

lemma decodePayload_ok {payload} :
    decodePayload limits data = .ok payload ↔
      payloadLengthStruct.Fits payload.length ∧ payload.length ≤ limits.maxPayloadBytes ∧
      data = payloadLengthStruct.put payload.length ++ payload := by
  simp only [decodePayload, bind_ok, require_ok, exists_const, Struct.unpackFrom_ok, takeField,
    takeBytes_ok, Prod.exists]
  constructor
  · rintro ⟨-, _, _, ⟨fits, rfl⟩, bounded, _, _, ⟨rfl, rfl⟩, rfl, same⟩
    cases same
    exact ⟨fits, bounded, by rw [append_nil]⟩
  · rintro ⟨fits, bounded, rfl⟩
    exact ⟨Struct.size_le fits, _, _, ⟨fits, rfl⟩, bounded, payload, [],
      ⟨rfl, (append_nil _).symm⟩, rfl, rfl⟩

end ToriPy.PersistentStreams.RabbitMq
