import ToriPy.PersistentStreams.Envelope

/-!
# Round trips of the record envelope

`layout` is the byte string of an envelope and `Fits` the room that the format and the limits leave.
Encoding succeeds on the envelopes that fit and gives their layout (`encodeEnvelope_ok`); decoding
succeeds on the layouts of the envelopes that fit and whose headers are in order
(`decodeEnvelope_ok`). Both round trips follow.

The limits of a stream are positive integers of any size, but the lengths in the format are not, and
`envelope_limits` reserves a fixed number of bytes for any number of header lengths. Accepted requests
that the format has no room for are the only ones that do not come back (`envelope_round_trip`).
-/

namespace ToriPy.PersistentStreams.RabbitMq

open List

def prefixOf (e : RecordEnvelope) : Bytes × Nat × Nat × Bytes × Nat × Nat :=
  (magic, version, e.kind.code, uuidBytes e.recordId, e.partitionKey.length, e.headers.items.length)

def layout (e : RecordEnvelope) : Bytes :=
  prefixStruct.put (prefixOf e) ++ (e.partitionKey ++ ((sortedHeaders e.headers).flatMap headerBytes ++
    (payloadLengthStruct.put e.payload.length ++ e.payload)))

/-- An envelope that the format and the limits have room for. -/
structure Fits (limits : EnvelopeLimits) (e : RecordEnvelope) : Prop where
  key_le : e.partitionKey.length ≤ limits.maxPartitionKeyBytes
  payload_le : e.payload.length ≤ limits.maxPayloadBytes
  count_le : e.headers.items.length ≤ limits.maxHeaders
  start : prefixStruct.Fits (prefixOf e)
  headers : ∀ h ∈ e.headers.items, HeaderFits limits h
  aggregate : headersSize e.headers.items ≤ limits.maxHeaderBytes
  length : payloadLengthStruct.Fits e.payload.length
  size : (layout e).length ≤ limits.maxMessageBytes

variable {limits : EnvelopeLimits} {a b : RecordEnvelope} {data : Bytes}
  {previousName : Option Bytes} {headers : Headers} {e : RecordEnvelope}

lemma ascends_iff {headers} :
    Ascends previousName headers ↔
      (∀ previous ∈ previousName, ∀ h ∈ headers, previous < encodeUtf8 h.1) ∧
        headers.Pairwise fun a b => encodeUtf8 a.1 < encodeUtf8 b.1 := by
  induction headers generalizing previousName with
  | nil => exact ⟨fun _ => ⟨nofun, List.Pairwise.nil⟩, fun _ => trivial⟩
  | cons h rest ih =>
    rw [Ascends, ih, pairwise_cons]
    constructor
    · rintro ⟨first, others, ordered⟩
      have above := others _ rfl
      refine ⟨fun previous same h' mem => ?_, above, ordered⟩
      obtain rfl | mem := mem_cons.mp mem
      · exact first previous same
      · exact List.lt_trans (first previous same) (above h' mem)
    · rintro ⟨first, above, ordered⟩
      refine ⟨fun previous same => first previous same h mem_cons_self, ?_, ordered⟩
      rintro _ ⟨⟩ h' mem
      exact above h' mem

lemma sortedHeaders_perm (headers : Headers) : (sortedHeaders headers).Perm headers.items :=
  mergeSort_perm _ _

lemma sortedHeaders_pairwise (headers : Headers) :
    (sortedHeaders headers).Pairwise fun a b => nameOrder a b = true := by
  apply pairwise_mergeSort
  · intro a b c
    simp only [nameOrder, decide_eq_true_eq]
    exact List.le_trans
  · intro a b
    simp only [nameOrder, Bool.or_eq_true, decide_eq_true_eq]
    exact List.le_total _ _

lemma sortedHeaders_ascends (headers : Headers) : Ascends none (sortedHeaders headers) := by
  rw [ascends_iff]
  refine ⟨nofun, ?_⟩
  have distinct : ((sortedHeaders headers).map Prod.fst).Nodup :=
    ((sortedHeaders_perm headers).map _).nodup_iff.mpr headers.nodup
  have pairs := (sortedHeaders_pairwise headers).and (pairwise_map.mp distinct)
  refine pairs.imp ?_
  rintro a b ⟨le, ne⟩
  rw [← List.not_le]
  intro ge
  exact ne (encodeUtf8_injective (List.le_antisymm (of_decide_eq_true le) ge))

lemma sortedHeaders_of_ascends (ascends : Ascends none headers.items) :
    sortedHeaders headers = headers.items := by
  apply mergeSort_of_pairwise
  refine (ascends_iff.mp ascends).2.imp ?_
  intro a b lt
  exact decide_eq_true (List.le_of_lt lt)

lemma sortedHeaders_congr {a b} (same : a.items.Perm b.items) :
    sortedHeaders a = sortedHeaders b := by
  refine List.Perm.eq_of_pairwise ?_ (ascends_iff.mp (sortedHeaders_ascends a)).2
    (ascends_iff.mp (sortedHeaders_ascends b)).2
    ((sortedHeaders_perm a).trans (same.trans (sortedHeaders_perm b).symm))
  intro x y _ _ lt gt
  exact absurd (List.lt_trans lt gt) (List.lt_irrefl _)

lemma headersSize_sorted (headers : Headers) :
    headersSize (sortedHeaders headers) = headersSize headers.items :=
  ((sortedHeaders_perm headers).map _).sum_nat

/-- Encoding succeeds on the envelopes that fit, with their bytes. -/
theorem encodeEnvelope_ok {limits out} :
    encodeEnvelope e limits = .ok out ↔ Fits limits e ∧ layout e = out := by
  have perm := sortedHeaders_perm e.headers
  have ascends := sortedHeaders_ascends e.headers
  simp only [encodeEnvelope, bind_ok, require_ok, exists_const, Struct.pack_ok, perm.length_eq,
    encodeHeaders_ok ascends (Nat.zero_le _), headersSize_sorted, Nat.zero_add]
  constructor
  · rintro ⟨key_le, ⟨payload_le, count_le⟩, _, ⟨start, rfl⟩, _, ⟨headers, aggregate, rfl⟩, _,
      ⟨length, rfl⟩, size, same⟩
    cases same
    refine ⟨⟨key_le, payload_le, count_le, start, ?_, aggregate, length, size⟩, rfl⟩
    exact fun h mem => headers h (perm.mem_iff.mpr mem)
  · rintro ⟨fits, rfl⟩
    exact ⟨fits.key_le, ⟨fits.payload_le, fits.count_le⟩, _, ⟨fits.start, rfl⟩, _,
      ⟨fun h mem => fits.headers h (perm.mem_iff.mp mem), fits.aggregate, rfl⟩, _,
      ⟨fits.length, rfl⟩, fits.size, rfl⟩

lemma uuidOfBytes_uuidBytes (id : UUID) : uuidOfBytes (uuidBytes id) = id := by
  rw [uuidOfBytes, uuidBytes, ofBigEndian_bigEndian (lt_of_lt_of_eq id.isLt (by decide))]
  exact BitVec.ofNat_toNat _ _

lemma uuidBytes_uuidOfBytes (length : data.length = 16) : uuidBytes (uuidOfBytes data) = data := by
  have bound := ofBigEndian_lt data
  rw [length] at bound
  rw [uuidBytes, uuidOfBytes, BitVec.toNat_ofNat, Nat.mod_eq_of_lt (lt_of_lt_of_eq bound (by decide)),
    ← length]
  exact bigEndian_ofBigEndian data

lemma layout_of_ascends (ascends : Ascends none e.headers.items) :
    layout e = prefixStruct.put (prefixOf e) ++ (e.partitionKey ++
      (e.headers.items.flatMap headerBytes ++
        (payloadLengthStruct.put e.payload.length ++ e.payload))) := by
  rw [layout, sortedHeaders_of_ascends ascends]

/-- Decoding succeeds on the bytes of the envelopes that fit and have their headers in order. -/
theorem decodeEnvelope_ok {limits data} :
    decodeEnvelope data limits = .ok e ↔
      Fits limits e ∧ layout e = data ∧ Ascends none e.headers.items := by
  simp only [decodeEnvelope, bind_ok, require_ok, exists_const, Struct.unpackFrom_ok, takeField,
    takeBytes_ok, EnvelopeKind.ofCode_ok, decodeHeaders_start, decodePayload_ok, RecordEnvelope.make_ok,
    Prod.exists]
  constructor
  · rintro ⟨⟨size, -⟩, _, _, _, recordId, _, _, _, ⟨fits, rfl⟩, ⟨rfl, rfl⟩, _, rfl,
      ⟨-, key_le, count_le⟩, _, _, ⟨rfl, rfl⟩, _, _, ⟨rfl, ascends, header_fits, aggregate, rfl⟩, _,
      ⟨length, payload_le, rfl⟩, id, rfl, rfl, rfl, rfl⟩
    obtain rfl : uuidBytes e.recordId = recordId := by
      rw [← id]
      exact uuidBytes_uuidOfBytes fits.2.2.2.1
    have whole := layout_of_ascends ascends
    refine ⟨⟨key_le, payload_le, count_le, fits, header_fits, aggregate, length, ?_⟩, whole, ascends⟩
    rw [whole]
    exact size
  · rintro ⟨fits, rfl, ascends⟩
    rw [layout_of_ascends ascends]
    refine ⟨⟨layout_of_ascends ascends ▸ fits.size, Struct.size_le fits.start⟩, _, _, _, _, _, _, _,
      ⟨fits.start, rfl⟩, ⟨rfl, rfl⟩, e.kind, rfl, ⟨?_, fits.key_le, fits.count_le⟩, e.partitionKey, _,
      ⟨rfl, rfl⟩, e.headers, _, ⟨rfl, ascends, fits.headers, fits.aggregate, rfl⟩, e.payload,
      ⟨fits.length, fits.payload_le, rfl⟩, uuidOfBytes_uuidBytes _, rfl, rfl, rfl, rfl⟩
    exact fun empty => e.key_ne (length_eq_zero_iff.mp empty)

/-! ### What decoding raises -/

/-- A failure of the format, not of a `struct`. -/
def IsEnvelopeError (f : EnvelopeFailure) : Prop := ∃ message, f = .envelope message

lemma unpackFrom_ensures {α : Type} {s : Struct α} (long : s.size ≤ data.length) :
    Ensures IsEnvelopeError (fun _ => True) (s.unpackFrom .struct data) := by
  rw [Struct.unpackFrom, if_pos long]
  exact .ok trivial

lemma takeField_ensures {length} :
    Ensures IsEnvelopeError (fun _ => True) (takeField length data) := by
  unfold takeField takeBytes
  split
  · exact .error ⟨_, rfl⟩
  · exact .ok trivial

lemma decodeHeader_ensures {aggregate} :
    Ensures IsEnvelopeError (fun _ => True) (decodeHeader limits previousName aggregate data) := by
  refine .require_bind ⟨_, rfl⟩ fun long => .bind (unpackFrom_ensures long) fun _ _ => ?_
  refine .require_bind ⟨_, rfl⟩ fun _ => .require_bind ⟨_, rfl⟩ fun _ => ?_
  refine .bind takeField_ensures fun _ _ => .bind takeField_ensures fun _ _ => ?_
  refine .require_bind ⟨_, rfl⟩ fun _ => .bind (Q := fun _ => True) ?_ fun _ _ => .ok trivial
  unfold decodeName
  cases decodeUtf8 _ with
  | none => exact .error ⟨_, rfl⟩
  | some => exact .ok trivial

lemma decodeHeaders_ensures {count aggregate} :
    Ensures IsEnvelopeError (fun _ => True)
      (decodeHeaders limits count headers previousName aggregate data) := by
  induction count generalizing headers previousName aggregate data with
  | zero => exact .ok trivial
  | succ count ih => exact .bind decodeHeader_ensures fun _ _ => ih

lemma decodePayload_ensures :
    Ensures IsEnvelopeError (fun _ => True) (decodePayload limits data) := by
  refine .require_bind ⟨_, rfl⟩ fun long => .bind (unpackFrom_ensures long) fun _ _ => ?_
  refine .require_bind ⟨_, rfl⟩ fun _ => .bind takeField_ensures fun _ _ => ?_
  exact .require_bind ⟨_, rfl⟩ fun _ => .ok trivial

lemma RecordEnvelope.make_ensures {recordId key payload kind} :
    Ensures IsEnvelopeError (fun _ => True)
      (RecordEnvelope.make recordId key headers payload kind) := by
  unfold RecordEnvelope.make
  split
  · split
    · split
      · exact .ok trivial
      · exact .error ⟨_, rfl⟩
    · exact .error ⟨_, rfl⟩
  · exact .error ⟨_, rfl⟩

lemma EnvelopeKind.ofCode_ensures {n} :
    Ensures IsEnvelopeError (fun _ => True) (EnvelopeKind.ofCode n) := by
  unfold EnvelopeKind.ofCode
  split
  · exact .ok trivial
  · exact .ok trivial
  · exact .error ⟨_, rfl⟩

lemma decodeEnvelope_ensures :
    Ensures IsEnvelopeError (fun _ => True) (decodeEnvelope data limits) := by
  refine .require_bind ⟨_, rfl⟩ fun sized => .bind (unpackFrom_ensures sized.2) fun _ _ => ?_
  refine .require_bind ⟨_, rfl⟩ fun _ => .bind EnvelopeKind.ofCode_ensures fun _ _ => ?_
  refine .require_bind ⟨_, rfl⟩ fun _ => .bind takeField_ensures fun _ _ => ?_
  refine .bind decodeHeaders_ensures fun _ _ => .bind decodePayload_ensures fun _ _ => ?_
  exact RecordEnvelope.make_ensures

/-! ### Round trips -/

lemma RecordEnvelope.eq_iff :
    a.eq b = true ↔ a.recordId = b.recordId ∧ a.partitionKey = b.partitionKey ∧
      a.headers.items.Perm b.headers.items ∧ a.payload = b.payload ∧ a.kind = b.kind := by
  simp [RecordEnvelope.eq]

lemma layout_congr (same : a.eq b = true) : layout a = layout b := by
  obtain ⟨id, key, headers, payload, kind⟩ := RecordEnvelope.eq_iff.mp same
  rw [layout, layout, prefixOf, prefixOf, id, key, headers.length_eq, sortedHeaders_congr headers,
    payload, kind]

lemma encodeEnvelope_congr (same : a.eq b = true) (limits : EnvelopeLimits) :
    encodeEnvelope a limits = encodeEnvelope b limits := by
  obtain ⟨id, key, headers, payload, kind⟩ := RecordEnvelope.eq_iff.mp same
  rw [encodeEnvelope, encodeEnvelope, id, key, sortedHeaders_congr headers, payload, kind]

def RecordEnvelope.sorted (e : RecordEnvelope) : RecordEnvelope where
  recordId := e.recordId
  partitionKey := e.partitionKey
  headers := ⟨sortedHeaders e.headers,
    ((sortedHeaders_perm e.headers).map Prod.fst).nodup_iff.mpr e.headers.nodup⟩
  payload := e.payload
  kind := e.kind
  key_ne := e.key_ne
  names_ne h mem := e.names_ne h ((sortedHeaders_perm e.headers).mem_iff.mp mem)
  bare barrier := by
    obtain ⟨key, none, payload⟩ := e.bare barrier
    refine ⟨key, List.Perm.eq_nil ?_, payload⟩
    rw [← none]
    exact sortedHeaders_perm e.headers

lemma RecordEnvelope.sorted_eq (e : RecordEnvelope) : e.sorted.eq e = true :=
  RecordEnvelope.eq_iff.mpr ⟨rfl, rfl, sortedHeaders_perm e.headers, rfl, rfl⟩

lemma decodeEnvelope_encodeEnvelope
    (encoded : encodeEnvelope e limits = .ok data) : decodeEnvelope data limits = .ok e.sorted := by
  rw [← encodeEnvelope_congr e.sorted_eq] at encoded
  obtain ⟨fits, bytes⟩ := encodeEnvelope_ok.mp encoded
  exact decodeEnvelope_ok.mpr ⟨fits, bytes, sortedHeaders_ascends e.headers⟩

/-- The lengths of an accepted request that the format has room for. -/
structure Packable (definition : StreamDefinition) (request : AppendRequest) : Prop where
  key : request.partitionKey.length < 2 ^ 32
  count : request.headers.length < 2 ^ 16
  names : ∀ h ∈ request.headers, h.1.utf8ByteSize < 2 ^ 16
  values : ∀ h ∈ request.headers, h.2.length < 2 ^ 32
  payload : request.payload.length < 2 ^ 64
  size : 36 + request.partitionKey.length + request.payload.length +
      (request.headers.map fun h => 6 + (h.1.utf8ByteSize + h.2.length)).sum ≤
    definition.limits.maxPayloadBytes + definition.limits.maxHeaderBytes +
      definition.limits.maxPartitionKeyBytes + 4096

lemma length_headerBytes (h : String × Bytes) :
    (headerBytes h).length = 6 + (h.1.utf8ByteSize + h.2.length) := by
  simp only [headerBytes, headerStruct, Struct.pair, Struct.uint, length_append, length_bigEndian,
    length_encodeUtf8]

lemma length_layout (e : RecordEnvelope) :
    (layout e).length = 36 + e.partitionKey.length + e.payload.length +
      (e.headers.items.map fun h => 6 + (h.1.utf8ByteSize + h.2.length)).sum := by
  have fields : ((sortedHeaders e.headers).flatMap headerBytes).length =
      (e.headers.items.map fun h => 6 + (h.1.utf8ByteSize + h.2.length)).sum := by
    rw [length_flatMap, ← ((sortedHeaders_perm e.headers).map _).sum_nat]
    exact congrArg List.sum (map_congr_left fun h _ => length_headerBytes h)
  have start : (prefixStruct.put (prefixOf e)).length = 28 := by
    simp only [prefixOf, prefixStruct, Struct.pair, Struct.uint, Struct.raw, uuidBytes,
      length_append, length_bigEndian, magic, length_encodeUtf8]
    rfl
  have length : (payloadLengthStruct.put e.payload.length).length = 8 := length_bigEndian
  simp only [layout, length_append, start, fields, length]
  omega

lemma fits_ofRequest {definition request}
    (accepted : validateAppendRequestLimits definition request = .ok ()) :
    Fits (envelopeLimits definition) (.ofRequest request) ↔ Packable definition request := by
  obtain ⟨key_le, payload_le, count_le, header_le, aggregate, -⟩ :=
    validateAppendRequestLimits_ok.mp accepted
  have size : (layout (.ofRequest request)).length = _ := length_layout (.ofRequest request)
  constructor
  · intro fits
    have start := fits.start
    refine ⟨start.2.2.2.2.1, start.2.2.2.2.2, fun h mem => (fits.headers h mem).lengths.1,
      fun h mem => (fits.headers h mem).lengths.2, fits.length, ?_⟩
    have le := fits.size
    rw [size] at le
    exact le
  · intro packable
    refine ⟨key_le, payload_le, count_le, ?_, ?_, aggregate, packable.payload, ?_⟩
    · exact ⟨rfl, show version < 256 ^ 1 by decide, show EnvelopeKind.record.code < 256 ^ 1 by decide,
        length_bigEndian, packable.key, packable.count⟩
    · intro h mem
      obtain ⟨name_le, value_le⟩ := header_le h mem
      refine ⟨request.names_ne h mem, ?_, value_le, packable.names h mem, packable.values h mem⟩
      have bytes := utf8ByteSize_le h.1
      have four : ((envelopeLimits definition).maxHeaderNameBytes : Nat) =
        definition.limits.maxHeaderNameChars * 4 := rfl
      omega
    · rw [size]
      exact packable.size

/-- A request that a stream accepts comes back from its envelope exactly when the format has room for
it. A byte string that decodes is the encoding of what it decodes to, so that no two decode to equal
envelopes; anything else raises `EnvelopeError`. The order of the headers does not change the bytes. -/
theorem envelope_round_trip (definition : StreamDefinition) (limits : EnvelopeLimits) :
    (∀ request : AppendRequest, validateAppendRequestLimits definition request = .ok () →
      ((∃ data decoded,
          encodeEnvelope (.ofRequest request) (envelopeLimits definition) = .ok data ∧
          decodeEnvelope data (envelopeLimits definition) = .ok decoded ∧
          decoded.eq (.ofRequest request) = true) ↔ Packable definition request)) ∧
    (∀ data : Bytes,
      (∃ message, decodeEnvelope data limits = .error (.envelope message)) ∨
      ∃ e, decodeEnvelope data limits = .ok e ∧ encodeEnvelope e limits = .ok data) ∧
    (∀ (limits' : EnvelopeLimits) (data data' : Bytes) (e e' : RecordEnvelope),
      decodeEnvelope data limits = .ok e → decodeEnvelope data' limits' = .ok e' →
      e.eq e' = true → data = data') ∧
    ∀ e e' : RecordEnvelope, e.eq e' = true →
      encodeEnvelope e limits = encodeEnvelope e' limits := by
  refine ⟨?_, ?_, ?_, fun e e' same => encodeEnvelope_congr same limits⟩
  · intro request accepted
    rw [← fits_ofRequest accepted]
    constructor
    · rintro ⟨data, decoded, encoded, -⟩
      exact (encodeEnvelope_ok.mp encoded).1
    · intro fits
      have encoded := encodeEnvelope_ok.mpr ⟨fits, rfl⟩
      exact ⟨_, _, encoded, decodeEnvelope_encodeEnvelope encoded, RecordEnvelope.sorted_eq _⟩
  · intro data
    cases decoded : decodeEnvelope data limits with
    | error failure =>
      have raised : Ensures _ _ (Except.error failure) := decoded ▸ decodeEnvelope_ensures
      cases raised with
      | error envelope =>
        obtain ⟨message, rfl⟩ := envelope
        exact Or.inl ⟨message, rfl⟩
    | ok e =>
      obtain ⟨fits, bytes, -⟩ := decodeEnvelope_ok.mp decoded
      exact Or.inr ⟨e, rfl, encodeEnvelope_ok.mpr ⟨fits, bytes⟩⟩
  · intro limits' data data' e e' decoded decoded' same
    obtain ⟨-, rfl, -⟩ := decodeEnvelope_ok.mp decoded
    obtain ⟨-, rfl, -⟩ := decodeEnvelope_ok.mp decoded'
    exact layout_congr same

def ordersStream : StreamDefinition := .standard "orders" 4 (by decide)

/-- An order with two headers that are not in the order of their names. -/
def tracedOrder : AppendRequest where
  recordId := 7#128
  partitionKey := [1, 2]
  payload := [9, 9, 9]
  headers := [("trace", [1]), ("kind", [])]
  key_ne := by decide
  names_nodup := by decide
  names_ne := by decide
  producer_ne := by decide

/-- The order is accepted, and comes back from its envelope. -/
theorem traced_order_returns :
    validateAppendRequestLimits ordersStream tracedOrder = .ok () ∧
    ∃ data decoded,
      encodeEnvelope (.ofRequest tracedOrder) (envelopeLimits ordersStream) = .ok data ∧
      decodeEnvelope data (envelopeLimits ordersStream) = .ok decoded ∧
      decoded.eq (.ofRequest tracedOrder) = true := by
  have accepted : validateAppendRequestLimits ordersStream tracedOrder = .ok () := by
    rw [validateAppendRequestLimits_ok]
    decide +kernel
  refine ⟨accepted, ((envelope_round_trip _ {}).1 _ accepted).mpr ⟨?_, ?_, ?_, ?_, ?_, ?_⟩⟩ <;>
    decide +kernel

def longNames : StreamDefinition :=
  { ordersStream with limits := { maxHeaderNameChars := 65536 } }

/-- A header name of `n` characters. -/
def nameOfLength (n : Nat) : String := String.ofList (List.replicate n 'a')

lemma nameOfLength_length (n : Nat) : (nameOfLength n).length = n := by
  rw [nameOfLength, String.length_ofList, length_replicate]

lemma nameOfLength_bytes (n : Nat) : (nameOfLength n).utf8ByteSize = n := by
  rw [nameOfLength, utf8ByteSize_ofList, map_replicate, sum_replicate]
  exact Nat.mul_one n

/-- A request with one header, whose name has `n` characters. -/
def namedOfLength (n : ℕ+) : AppendRequest where
  recordId := 7#128
  partitionKey := [1]
  headers := [(nameOfLength n, [])]
  key_ne := by decide
  names_nodup := nodup_singleton _
  names_ne h mem := by
    rw [mem_singleton.mp mem]
    intro empty
    have length := nameOfLength_length n
    rw [show nameOfLength n = "" from empty] at length
    exact n.ne_zero length.symm
  producer_ne p named := by cases named

lemma namedOfLength_accepted {n} (short : n ≤ 65536) :
    validateAppendRequestLimits longNames (namedOfLength n) = .ok () := by
  rw [validateAppendRequestLimits_ok]
  refine ⟨show 1 ≤ 4096 by decide, Nat.zero_le _, show 1 ≤ 64 by decide, ?_, ?_, ?_⟩
  · intro h mem
    rw [mem_singleton.mp mem]
    exact ⟨(nameOfLength_length n).trans_le short, Nat.zero_le _⟩
  · exact (nameOfLength_bytes n).trans_le short
  · intro p named
    cases named

/-- A request with a header name of 65536 characters is accepted, but the length of the name does not
fit into two bytes. -/
theorem long_name_not_packed :
    validateAppendRequestLimits longNames (namedOfLength 65536) = .ok () ∧
    ¬ ∃ data, encodeEnvelope (.ofRequest (namedOfLength 65536)) (envelopeLimits longNames) =
      .ok data := by
  have accepted := namedOfLength_accepted (n := 65536) (le_refl _)
  refine ⟨accepted, ?_⟩
  rintro ⟨_, encoded⟩
  have packable := (fits_ofRequest accepted).mp (encodeEnvelope_ok.mp encoded).1
  have short := packable.names _ mem_cons_self
  rw [nameOfLength_bytes] at short
  exact absurd short (by decide)

end ToriPy.PersistentStreams.RabbitMq
