import ToriPy.Microservices.Canonical

/-!
# The wire codec round trip

What is decoded from the bytes of an encoded envelope. `msgspec` and `json` are assumed to be
faithful (`Libraries.Faithful`): `json.loads` reads the value that `msgspec` wrote, and both readers
agree on documents without duplicate members. Then the decoder undoes the encoder field by field,
and a request or a response always comes back.

An event comes back if and only if its headers are within the default limits: `decode_event` checks
the headers against the limits of the codec, but constructs the envelope without limits.
-/

namespace ToriPy.Microservices

open List

open Json (All Plain Increasing sortMembers)

/-- `msgspec` and `json` write and read finite JSON values faithfully. -/
structure Libraries.Faithful (lib : Libraries) : Prop where
  reads : ∀ {j : Json} {data : Bytes}, Plain j → lib.encode j = some data → lib.loads data = some j
  agrees : ∀ {j : Json} {data : Bytes}, lib.loads data = some j → Plain j → lib.decode data = some j

/-- `msgspec` and `json` on the documents of a table, and on values that are builtins already. -/
def Libraries.table (documents : List (Json × Bytes)) : Libraries where
  encode j := documents.lookup j
  decode data := (documents.find? (·.2 = data)).map Prod.fst
  toBuiltins value := some value
  loads data := (documents.find? (·.2 = data)).map Prod.fst

lemma Libraries.table_faithful {documents : List (Json × Bytes)}
    (distinct : (documents.map Prod.snd).Nodup) : (Libraries.table documents).Faithful := by
  refine ⟨?_, fun h _ => h⟩
  intro j data _ h
  change (documents.find? (·.2 = data)).map Prod.fst = some j
  change documents.lookup j = some data at h
  induction documents with
  | nil => cases h
  | cons document documents ih =>
    obtain ⟨new, distinct⟩ := nodup_cons.mp distinct
    rw [lookup_cons] at h
    split at h
    · rename_i same
      cases h
      simp [eq_of_beq same]
    · have other : document.2 ≠ data := by
        rintro rfl
        obtain ⟨_, _, rfl, -⟩ := lookup_eq_some_iff.mp h
        simp at new
      rw [find?_cons_of_neg (by simpa using other)]
      exact ih distinct h

/-! ### Fields -/

lemma uuidField_text (id : UUID) (field : String) :
    uuidField (.str (uuidText id)) field = .ok id := by
  simp [uuidField, stringField, parseUuid_text]

lemma optionalUuidField_text (id : Option UUID) (field : String) :
    optionalUuidField (optionalUuid id) field = .ok id := by
  cases id with
  | none => rfl
  | some => rw [optionalUuid, optionalUuidField, uuidField_text]; rfl; nofun

lemma timestamp_toList (time : DateTime) :
    (timestamp time).toList = time.isoText ++ "Z".toList := by
  have sign : '+' ∉ time.isoText := fun mem => (time.isoText_chars _ mem).1 rfl
  rw [timestamp, String.toList_ofList, DateTime.isoformat,
    show "+00:00".toList = '+' :: "00:00".toList by rfl, replaceAll_append sign]
  rfl

lemma timestampField_timestamp (time : DateTime) (field : String) :
    timestampField (.str (timestamp time)) field = .ok ⟨time, some 0⟩ := by
  have letter : 'Z' ∉ time.isoText := fun mem => (time.isoText_chars _ mem).2 rfl
  have text : replaceAll "Z".toList "+00:00".toList (timestamp time).toList = time.isoformat := by
    rw [timestamp_toList, show "Z".toList = ['Z'] by rfl, replaceAll_append letter]
    rfl
  rw [timestampField, stringField, ok_bind, text, time.fromIsoformat_isoformat]
  rfl

lemma serviceMake (service : ServiceIdentity) :
    ServiceIdentity.make service.nameSpace service.name service.contractVersion = .ok service := by
  have pos : (0 : Int) < service.contractVersion := by exact_mod_cast service.version_pos
  rw [ServiceIdentity.make, dif_pos service.nameSpace_alias, dif_pos service.name_alias,
    dif_pos pos, dif_pos (by simpa using service.label_bounded)]
  simp

lemma targetMake (target : RpcTarget) :
    RpcTarget.make target.service target.method target.schemaVersion = .ok target := by
  have pos : (0 : Int) < target.schemaVersion := by exact_mod_cast target.version_pos
  rw [RpcTarget.make, dif_pos target.method_alias, dif_pos pos, dif_pos target.routingKey_bounded]
  simp

lemma identityMake (identity : EventIdentity) :
    EventIdentity.make identity.source identity.event identity.schemaVersion = .ok identity := by
  have pos : (0 : Int) < identity.schemaVersion := by exact_mod_cast identity.version_pos
  rw [EventIdentity.make, dif_pos identity.event_alias, dif_pos pos,
    dif_pos identity.exchangeName_bounded, dif_pos (by simpa using identity.routingKey_bounded)]
  simp

lemma positiveIntField_natCast {n : Nat} (pos : 0 < n) (field : String) :
    positiveIntField (.int n) field = .ok n := by
  rw [positiveIntField, if_pos (by exact_mod_cast pos)]

/-! ### Headers -/

/-- The members of headers in order, at every depth. -/
def Headers.sorted (headers : Headers) : Headers :=
  sortMembers (Json.arrangeMembers sortMembers headers)

section
variable {lib : Libraries} {limits : MessageLimits}

def Headers.WithinLimits (lib : Libraries) (limits : MessageLimits) (headers : Headers) : Prop :=
  headers.length ≤ limits.maxHeaderCount ∧
    Copyable limits.maxNestingDepth limits.maxCollectionItems 0 (.object headers) ∧
    ∃ data, lib.encode (.object headers) = some data ∧ data.length ≤ limits.maxHeaderBytes

variable {headers : Headers} {data : Bytes} {members : List (String × Json)}
  {value : List (String × Json)}

lemma freezeHeaders_ofJson {kind : SequenceKind} (hk : kind ≠ .other) {frozen : Headers}
    {selected : Option MessageLimits} :
    freezeHeaders lib (.ofJson kind (.object headers)) selected = .ok frozen ↔
      frozen = headers ∧ headers.WithinLimits lib (selected.getD {}) := by
  have source : (if (Value.ofJson kind (.object headers)).truthy then
      Value.ofJson kind (.object headers) else .mapping []) =
        .mapping (Value.ofMembers kind headers) := by
    cases headers with
    | nil | cons => rfl
  have copy : ∀ {maxDepth maxItems : Nat} {j},
      freezeValue "headers" maxDepth maxItems 0 (.mapping (Value.ofMembers kind headers)) = .ok j ↔
        j = .object headers ∧ Copyable maxDepth maxItems 0 (.object headers) := by
    intro maxDepth maxItems j
    change freezeValue _ _ _ _ (.ofJson kind (.object headers)) = .ok j ↔ _
    exact freezeValue_ofJson hk
  unfold freezeHeaders
  dsimp only
  rw [source]
  dsimp only
  rw [then_ok, require_ok, length_ofMembers, bind_ok]
  simp only [copy]
  constructor
  · rintro ⟨count, j, ⟨rfl, copyable⟩, h⟩
    split at h
    · cases h
    rename_i data encoded
    rw [then_ok, require_ok] at h
    obtain ⟨bytes, h⟩ := h
    cases h
    exact ⟨rfl, count, copyable, data, encoded, bytes⟩
  · rintro ⟨rfl, count, copyable, _, encoded, bytes⟩
    refine ⟨count, _, ⟨rfl, copyable⟩, ?_⟩
    rw [encoded]
    dsimp only
    rw [then_ok, require_ok]
    exact ⟨bytes, rfl⟩

lemma length_arrangeMembers (f : List (String × Json) → List (String × Json))
    (ms : List (String × Json)) : (Json.arrangeMembers f ms).length = ms.length := by
  induction ms with
  | nil => rfl
  | cons m ms ih => rw [Json.arrangeMembers, length_cons, length_cons, ih]

lemma plainHeaders_ok {plain : Json} (h : plainHeaders lib limits headers = .ok plain) :
    plain = .object headers.sorted ∧ Canonical limits 0 plain ∧
      headers.sorted.length ≤ limits.maxHeaderCount := by
  rw [plainHeaders, then_ok, require_ok] at h
  obtain ⟨count, h⟩ := h
  have canonical := canonical_ok h
  change canonicalBuiltins _ _ _ (.ofJson .tuple (.object headers)) = _ at h
  have sorted : plain = (Json.object headers).sorted := (canonicalBuiltins_ofJson.mp h).1
  refine ⟨sorted, canonical, ?_⟩
  have := Json.length_sortMembers_le (Json.arrangeMembers sortMembers headers)
  rw [length_arrangeMembers] at this
  exact this.trans count

lemma plainHeaders_canonical (canonical : Canonical limits 0 (.object headers))
    (count : headers.length ≤ limits.maxHeaderCount) :
    plainHeaders lib limits headers = .ok (.object headers) := by
  rw [plainHeaders, then_ok, require_ok]
  refine ⟨count, ?_⟩
  change canonicalBuiltins _ _ _ (.ofJson .tuple (.object headers)) = _
  exact canonicalBuiltins_ofJson.mpr ⟨canonical.sorted.symm, canonical.copyable⟩

lemma checkedHeaders_ok {plain : Json} (h : checkedHeaders lib limits headers = .ok plain) :
    plain = .object headers.sorted ∧ Canonical limits 0 plain ∧
      headers.sorted.WithinLimits lib limits := by
  rw [checkedHeaders] at h
  obtain ⟨_, hplain, h⟩ := bind_ok.mp h
  obtain ⟨rfl, canonical, count⟩ := plainHeaders_ok hplain
  split at h
  · cases h
  rename_i data encoded
  rw [then_ok, require_ok] at h
  obtain ⟨bytes, h⟩ := h
  cases h
  exact ⟨rfl, canonical, count, canonical.copyable, data, encoded, bytes⟩

lemma headersField_canonical (canonical : Canonical limits 0 (.object headers))
    (within : headers.WithinLimits lib limits) :
    headersField lib limits (.object headers) = .ok headers := by
  have frozen : freezeHeaders lib (.ofJson .list (.object headers)) limits = .ok headers :=
    (freezeHeaders_ofJson (by decide)).mpr ⟨rfl, within⟩
  obtain ⟨count, -, _, encoded, bytes⟩ := within
  rw [headersField, frozen, translated, ok_bind, plainHeaders_canonical canonical count, ok_bind,
    encoded]
  dsimp only
  rw [then_ok, require_ok]
  exact ⟨bytes, rfl⟩

/-! ### Documents -/

lemma decodeJson_encodeJson (faithful : lib.Faithful) (plain : Plain (.object members))
    (h : encodeJson lib limits (.object members) = .ok data) :
    decodeJson lib limits data = .ok members := by
  rw [encodeJson, then_ok] at h
  obtain ⟨checked, h⟩ := h
  split at h
  · cases h
  rename_i bytes encoded
  rw [then_ok, require_ok] at h
  obtain ⟨short, h⟩ := h
  cases h
  have loaded := faithful.reads plain encoded
  rw [decodeJson, then_ok, require_ok, loaded, faithful.agrees loaded plain, Option.bind_some,
    strict_some.mpr ⟨rfl, plain⟩]
  dsimp only
  rw [then_ok]
  exact ⟨short, checked, rfl⟩

lemma plain_object (names : (members.map Prod.fst).Nodup)
    (h : ∀ j ∈ members.map Prod.snd, Plain j) : Plain (.object members) :=
  plain_node.mpr ⟨⟨nofun, names⟩, h⟩

@[simp] lemma plain_str (text : String) : Plain (.str text) := (plain_scalar rfl rfl).mpr fun _ h => by cases h

@[simp] lemma plain_int (n : Int) : Plain (.int n) := (plain_scalar rfl rfl).mpr fun _ h => by cases h

@[simp] lemma plain_bool (b : Bool) : Plain (.bool b) := (plain_scalar rfl rfl).mpr fun _ h => by cases h

@[simp] lemma plain_optionalUuid (id : Option UUID) : Plain (optionalUuid id) := by
  cases id with
  | none => exact (plain_scalar rfl rfl).mpr nofun
  | some => exact plain_str _

/-! ### Envelopes -/

/-- Headers that are equal as mappings, whatever the order of their members. -/
def Headers.Same (headers headers' : Headers) : Prop :=
  (Json.object headers).sorted = (Json.object headers').sorted

/-- An object that is the canonical JSON form of another. -/
def CanonicalOf (lib : Libraries) (limits : MessageLimits) (field : String)
    (value value' : Value) : Prop :=
  ∃ j, canonical lib limits value field = .ok j ∧ value' = .ofJson .list j

lemma same_sorted (canonical : Canonical limits 0 (.object headers.sorted)) :
    headers.Same headers.sorted :=
  canonical.sorted.symm

lemma freezeHeaders_toValue (within : headers.WithinLimits lib limits) :
    freezeHeaders lib headers.toValue limits = .ok headers :=
  (freezeHeaders_ofJson (by decide)).mpr ⟨rfl, within⟩

lemma requireFields_ok {required : List String} {field : String}
    (h : value.map Prod.fst = required) : requireFields value required field = .ok () := by
  subst h
  simp [requireFields]

/-- A decoded request is the request that was encoded. -/
structure RpcRequestEnvelope.Matches (lib : Libraries) (limits : MessageLimits)
    (envelope decoded : RpcRequestEnvelope) : Prop where
  messageId : decoded.messageId = envelope.messageId
  target : decoded.target = envelope.target
  createdAt : decoded.createdAt = envelope.createdAt
  deadlineAt : decoded.deadlineAt = envelope.deadlineAt
  correlationId : decoded.correlationId = envelope.correlationId
  causationId : decoded.causationId = envelope.causationId
  replyTo : decoded.replyTo = envelope.replyTo
  headers : envelope.headers.Same decoded.headers
  payload : CanonicalOf lib limits "payload" envelope.payload decoded.payload

/-- The members of a service are read back behind the two that start an envelope. -/
lemma serviceField_wireService (messageId kind : Json) (service : ServiceIdentity)
    (rest : List (String × Json)) :
    serviceField ([("message_id", messageId), ("kind", kind)] ++ wireService service ++ rest) =
      .ok service := by
  generalize hv : [("message_id", messageId), ("kind", kind)] ++ wireService service ++ rest = value
  have nameSpace : getField value "namespace" = .ok (.str service.nameSpace) := by rw [← hv]; rfl
  have name : getField value "service" = .ok (.str service.name) := by rw [← hv]; rfl
  have version : getField value "contract_version" = .ok (.int service.contractVersion) := by
    rw [← hv]; rfl
  rw [serviceField, then_ok, require_ok]
  refine ⟨by simp [← hv, wireService], ?_⟩
  rw [nameSpace, ok_bind, stringField, ok_bind, name, ok_bind, stringField, ok_bind, version,
    ok_bind, positiveIntField_natCast service.version_pos, ok_bind, serviceMake]

lemma requestMembers_fields (envelope : RpcRequestEnvelope) (headers payload : Json) :
    let value := requestMembers envelope headers payload
    getField value "causation_id" = .ok (optionalUuid envelope.causationId) ∧
    getField value "kind" = .ok (.str "rpc_request") ∧
    getField value "message_id" = .ok (.str (uuidText envelope.messageId)) ∧
    getField value "method" = .ok (.str envelope.target.method) ∧
    getField value "schema_version" = .ok (.int envelope.target.schemaVersion) ∧
    getField value "created_at" = .ok (.str (timestamp envelope.createdAt)) ∧
    getField value "deadline_at" = .ok (.str (timestamp envelope.deadlineAt)) ∧
    getField value "correlation_id" = .ok (.str (uuidText envelope.correlationId)) ∧
    getField value "reply_to" = .ok (.str envelope.replyTo.value) ∧
    getField value "headers" = .ok headers ∧
    getField value "payload" = .ok payload :=
  ⟨rfl, rfl, rfl, rfl, rfl, rfl, rfl, rfl, rfl, rfl, rfl⟩

lemma decode_request (faithful : lib.Faithful) {envelope : RpcRequestEnvelope}
    (h : encodeRequest lib limits envelope = .ok data) :
    ∃ decoded, decodeRequest lib limits data = .ok decoded ∧
      envelope.Matches lib limits decoded := by
  rw [encodeRequest] at h
  obtain ⟨headers, hheaders, h⟩ := bind_ok.mp h
  obtain ⟨payload, hpayload, h⟩ := bind_ok.mp h
  obtain ⟨rfl, canonicalHeaders, within⟩ := checkedHeaders_ok hheaders
  have canonicalPayload := canonical_ok hpayload
  generalize hv : requestMembers envelope (.object envelope.headers.sorted) payload = value at h
  have names : value.map Prod.fst = requestFields := by rw [← hv]; rfl
  have plain : Plain (.object value) := by
    apply plain_object
    · rw [names]
      decide
    rw [← hv]
    simp [requestMembers, wireService, canonicalHeaders.plain, canonicalPayload.plain]
  have decoded := decodeJson_encodeJson faithful plain h
  have service : serviceField value = .ok envelope.target.service := by
    rw [← hv]
    exact serviceField_wireService _ _ _ _
  have made : RpcRequestEnvelope.make lib limits envelope.messageId envelope.target.service
      envelope.target.method envelope.target.schemaVersion ⟨envelope.createdAt, some 0⟩
      ⟨envelope.deadlineAt, some 0⟩ envelope.correlationId envelope.causationId envelope.replyTo
      envelope.headers.sorted.toValue (.ofJson .list payload) =
        .ok { envelope with headers := envelope.headers.sorted, payload := .ofJson .list payload } := by
    have later : requireFutureDeadline ⟨envelope.createdAt, some 0⟩ ⟨envelope.deadlineAt, some 0⟩ =
        .ok ⟨(envelope.createdAt, envelope.deadlineAt), envelope.deadline_later⟩ := by
      simp [requireFutureDeadline, requireUtc, envelope.deadline_later]
    rw [RpcRequestEnvelope.make, targetMake, ok_bind, later, asDeadlineError, ok_bind,
      freezeHeaders_toValue within, ok_bind]
  have route : ReplyRoute.make envelope.replyTo.value = .ok envelope.replyTo := by
    rw [ReplyRoute.make, dif_pos envelope.replyTo.valid]
  refine ⟨{ envelope with headers := envelope.headers.sorted, payload := .ofJson .list payload },
    ?_, ⟨rfl, rfl, rfl, rfl, rfl, rfl, rfl, same_sorted canonicalHeaders, payload, hpayload, rfl⟩⟩
  have fields := requestMembers_fields envelope (.object envelope.headers.sorted) payload
  rw [hv] at fields
  obtain ⟨causation, kind, messageId, method, schemaVersion, createdAt, deadlineAt, correlationId,
    replyTo, headers, payload⟩ := fields
  rw [decodeRequest, decoded, ok_bind, requireFields_ok names, ok_bind]
  simp only [causation, kind, messageId, service, method, schemaVersion, createdAt, deadlineAt,
    correlationId, replyTo, headers, payload, ok_bind, optionalUuidField_text, uuidField_text,
    stringField, positiveIntField_natCast envelope.target.version_pos, timestampField_timestamp,
    headersField_canonical canonicalHeaders within, route, made]
  rfl

/-- A decoded error is the error that was encoded. -/
structure RemoteRpcErrorData.Matches (data decoded : RemoteRpcErrorData) : Prop where
  code : decoded.code = data.code
  message : decoded.message = data.message
  retryable : decoded.retryable = data.retryable
  details : data.details.Same decoded.details

/-- A decoded outcome is the outcome that was encoded. -/
def RpcOutcome.Matches (lib : Libraries) (limits : MessageLimits) :
    RpcOutcome → RpcOutcome → Prop
  | .result value, .result value' => CanonicalOf lib limits "result" value value'
  | .error data, .error data' => data.Matches data'
  | _, _ => False

/-- A decoded response is the response that was encoded. -/
structure RpcResponseEnvelope.Matches (lib : Libraries) (limits : MessageLimits)
    (envelope decoded : RpcResponseEnvelope) : Prop where
  messageId : decoded.messageId = envelope.messageId
  correlationId : decoded.correlationId = envelope.correlationId
  completedAt : decoded.completedAt = envelope.completedAt
  outcome : envelope.outcome.Matches lib limits decoded.outcome

lemma remoteErrorField_errorMembers {data : RemoteRpcErrorData}
    (canonical : Canonical limits 0 (.object data.details.sorted))
    (within : data.details.sorted.WithinLimits lib limits) :
    remoteErrorField lib limits (.object (errorMembers data (.object data.details.sorted))) =
      .ok { data with details := data.details.sorted } := by
  have details : getField (errorMembers data (.object data.details.sorted)) "details" =
      .ok (.object data.details.sorted) := rfl
  have retryable : getField (errorMembers data (.object data.details.sorted)) "retryable" =
      .ok (.bool data.retryable) := rfl
  have code : getField (errorMembers data (.object data.details.sorted)) "code" =
      .ok (.str data.code) := rfl
  have message : getField (errorMembers data (.object data.details.sorted)) "message" =
      .ok (.str data.message) := rfl
  have made : RemoteRpcErrorData.make lib limits data.code data.message data.retryable
      data.details.sorted.toValue = .ok { data with details := data.details.sorted } := by
    rw [RemoteRpcErrorData.make, dif_pos data.code_ne, dif_pos data.message_ne,
      dif_pos data.message_bounded, freezeHeaders_toValue within, ok_bind]
  have names : (errorMembers data (.object data.details.sorted)).map Prod.fst =
      ["code", "message", "retryable", "details"] := rfl
  rw [remoteErrorField, requireFields_ok names, ok_bind, details, ok_bind]
  dsimp only
  rw [headersField_canonical canonical within, ok_bind, retryable, ok_bind]
  dsimp only
  simp only [code, message, ok_bind, stringField, made]
  rfl

lemma outcomeMember_ok {outcome : RpcOutcome} {member : String × Json}
    (h : outcomeMember lib limits outcome = .ok member) :
    Plain member.2 ∧ ∃ decoded, outcome.Matches lib limits decoded ∧
      ((∃ j, member = ("result", j) ∧ decoded = .result (.ofJson .list j)) ∨
        ∃ j data, member = ("error", j) ∧ remoteErrorField lib limits j = .ok data ∧
          decoded = .error data) := by
  cases outcome with
  | result =>
    obtain ⟨j, hj, rfl⟩ := map_ok.mp h
    exact ⟨(canonical_ok hj).plain, .result (.ofJson .list j), ⟨j, hj, rfl⟩, .inl ⟨j, rfl, rfl⟩⟩
  | error data =>
    obtain ⟨details, hdetails, rfl⟩ := map_ok.mp h
    obtain ⟨rfl, canonical, within⟩ := checkedHeaders_ok hdetails
    refine ⟨?_, .error { data with details := data.details.sorted },
      ⟨rfl, rfl, rfl, same_sorted canonical⟩,
      .inr ⟨_, _, rfl, remoteErrorField_errorMembers canonical within, rfl⟩⟩
    apply plain_object
    · exact (by decide : ["code", "message", "retryable", "details"].Nodup)
    simp [errorMembers, canonical.plain]

lemma decode_response (faithful : lib.Faithful) {envelope : RpcResponseEnvelope}
    (h : encodeResponse lib limits envelope = .ok data) :
    ∃ decoded, decodeResponse lib limits data = .ok decoded ∧
      envelope.Matches lib limits decoded := by
  rw [encodeResponse] at h
  obtain ⟨member, hmember, h⟩ := bind_ok.mp h
  obtain ⟨plainMember, outcome, hmatches, hread⟩ := outcomeMember_ok hmember
  have plain : Plain (.object (responseMembers envelope member)) := by
    apply plain_object
    · obtain ⟨j, rfl, -⟩ | ⟨j, data, rfl, -⟩ := hread
      · exact (by decide : (responseBaseFields ++ ["result"]).Nodup)
      · exact (by decide : (responseBaseFields ++ ["error"]).Nodup)
    · simp [responseMembers, plainMember]
  have decoded := decodeJson_encodeJson faithful plain h
  refine ⟨{ envelope with outcome := outcome }, ?_, ⟨rfl, rfl, rfl, hmatches⟩⟩
  have kind : getField (responseMembers envelope member) "kind" = .ok (.str "rpc_response") := rfl
  have messageId : getField (responseMembers envelope member) "message_id" =
      .ok (.str (uuidText envelope.messageId)) := rfl
  have correlationId : getField (responseMembers envelope member) "correlation_id" =
      .ok (.str (uuidText envelope.correlationId)) := rfl
  have completedAt : getField (responseMembers envelope member) "completed_at" =
      .ok (.str (timestamp envelope.completedAt)) := rfl
  have names : (∀ name ∈ responseBaseFields, name ∈ (responseMembers envelope member).map Prod.fst) ∧
      ∀ name ∈ (responseMembers envelope member).map Prod.fst,
        name ∈ responseBaseFields ++ ["result", "error"] := by
    obtain ⟨j, rfl, -⟩ | ⟨j, _, rfl, -⟩ := hread
    · simp [responseMembers, responseBaseFields]
    · simp [responseMembers, responseBaseFields]
  rw [decodeResponse, decoded, ok_bind, then_ok, require_ok]
  refine ⟨names.1, ?_⟩
  rw [then_ok, require_ok]
  refine ⟨names.2, ?_⟩
  rw [kind, ok_bind, then_ok, require_ok]
  refine ⟨rfl, ?_⟩
  simp only [messageId, correlationId, completedAt, ok_bind, uuidField_text,
    timestampField_timestamp]
  obtain ⟨j, rfl, rfl⟩ | ⟨j, _, rfl, read, rfl⟩ := hread
  · rfl
  · have error : (responseMembers envelope ("error", j)).lookup "error" = some j := rfl
    simp only [error, read]
    rfl

/-- A decoded event is the event that was encoded. -/
structure EventEnvelope.Matches (lib : Libraries) (limits : MessageLimits)
    (envelope decoded : EventEnvelope) : Prop where
  messageId : decoded.messageId = envelope.messageId
  identity : decoded.identity = envelope.identity
  occurredAt : decoded.occurredAt = envelope.occurredAt
  correlationId : decoded.correlationId = envelope.correlationId
  causationId : decoded.causationId = envelope.causationId
  headers : envelope.headers.Same decoded.headers
  payload : CanonicalOf lib limits "payload" envelope.payload decoded.payload

lemma eventMembers_fields (envelope : EventEnvelope) (headers payload : Json) :
    let value := eventMembers envelope headers payload
    getField value "correlation_id" = .ok (optionalUuid envelope.correlationId) ∧
    getField value "causation_id" = .ok (optionalUuid envelope.causationId) ∧
    getField value "kind" = .ok (.str "event") ∧
    getField value "message_id" = .ok (.str (uuidText envelope.messageId)) ∧
    getField value "event" = .ok (.str envelope.identity.event) ∧
    getField value "schema_version" = .ok (.int envelope.identity.schemaVersion) ∧
    getField value "occurred_at" = .ok (.str (timestamp envelope.occurredAt)) ∧
    getField value "headers" = .ok headers ∧
    getField value "payload" = .ok payload :=
  ⟨rfl, rfl, rfl, rfl, rfl, rfl, rfl, rfl, rfl⟩

lemma translated_ok {α : Type} {x : Except WireError α} {a : α} :
    translated x = .ok a ↔ x = .ok a := by
  rcases x with e | b
  · cases e <;> simp [translated]
  · rfl

lemma decode_event (faithful : lib.Faithful) {envelope : EventEnvelope}
    (h : encodeEvent lib limits envelope = .ok data) :
    (∃ decoded, decodeEvent lib limits data = .ok decoded ∧
      envelope.Matches lib limits decoded) ↔ envelope.headers.sorted.WithinLimits lib {} := by
  rw [encodeEvent] at h
  obtain ⟨headers, hheaders, h⟩ := bind_ok.mp h
  obtain ⟨payload, hpayload, h⟩ := bind_ok.mp h
  obtain ⟨rfl, canonicalHeaders, within⟩ := checkedHeaders_ok hheaders
  have canonicalPayload := canonical_ok hpayload
  generalize hv : eventMembers envelope (.object envelope.headers.sorted) payload = value at h
  have names : value.map Prod.fst = eventFields := by rw [← hv]; rfl
  have plain : Plain (.object value) := by
    apply plain_object
    · rw [names]
      decide
    rw [← hv]
    simp [eventMembers, wireService, canonicalHeaders.plain, canonicalPayload.plain]
  have decoded := decodeJson_encodeJson faithful plain h
  have service : serviceField value = .ok envelope.identity.source := by
    rw [← hv]
    exact serviceField_wireService _ _ _ _
  have fields := eventMembers_fields envelope (.object envelope.headers.sorted) payload
  rw [hv] at fields
  obtain ⟨correlation, causation, kind, messageId, event, schemaVersion, occurredAt, headers,
    payload'⟩ := fields
  -- Every field is read back, and what remains is the constructor with no limits.
  have read : decodeEvent lib limits data = translated (EventEnvelope.make lib none
      envelope.messageId envelope.identity.source envelope.identity.event
      envelope.identity.schemaVersion ⟨envelope.occurredAt, some 0⟩ envelope.correlationId
      envelope.causationId envelope.headers.sorted.toValue (.ofJson .list payload)) := by
    rw [decodeEvent, decoded, ok_bind, requireFields_ok names, ok_bind]
    simp only [correlation, causation, kind, messageId, service, event, schemaVersion, occurredAt,
      headers, payload', ok_bind, optionalUuidField_text, uuidField_text, stringField,
      positiveIntField_natCast envelope.identity.version_pos, timestampField_timestamp,
      headersField_canonical canonicalHeaders within]
    rfl
  have made : ∀ decoded, decodeEvent lib limits data = .ok decoded ↔
      decoded = { envelope with headers := envelope.headers.sorted,
                                payload := .ofJson .list payload } ∧
        envelope.headers.sorted.WithinLimits lib {} := by
    intro decoded
    have occurred : requireUtc ⟨envelope.occurredAt, some 0⟩ "occurred_at" =
        .ok envelope.occurredAt := rfl
    rw [read, translated_ok, EventEnvelope.make, identityMake, ok_bind, occurred, ok_bind, bind_ok]
    have frozen : ∀ headers, freezeHeaders lib envelope.headers.sorted.toValue none = .ok headers ↔
        headers = envelope.headers.sorted ∧ envelope.headers.sorted.WithinLimits lib {} :=
      fun _ => freezeHeaders_ofJson (by decide)
    simp only [frozen]
    constructor
    · rintro ⟨_, ⟨rfl, default⟩, h⟩
      cases h
      exact ⟨rfl, default⟩
    · rintro ⟨rfl, default⟩
      exact ⟨_, ⟨rfl, default⟩, rfl⟩
  constructor
  · rintro ⟨decoded, h, -⟩
    exact ((made decoded).mp h).2
  · intro default
    exact ⟨_, (made _).mpr ⟨rfl, default⟩,
      ⟨rfl, rfl, rfl, rfl, rfl, same_sorted canonicalHeaders, payload, hpayload, rfl⟩⟩

end

/-- The envelopes of the wire. -/
inductive Envelope where
  | request (envelope : RpcRequestEnvelope)
  | response (envelope : RpcResponseEnvelope)
  | event (envelope : EventEnvelope)

namespace Envelope

def encode (lib : Libraries) (limits : MessageLimits) : Envelope → Except WireError Bytes
  | request envelope => encodeRequest lib limits envelope
  | response envelope => encodeResponse lib limits envelope
  | event envelope => encodeEvent lib limits envelope

def DecodesFrom (lib : Libraries) (limits : MessageLimits) (data : Bytes) : Envelope → Prop
  | request envelope => ∃ decoded, decodeRequest lib limits data = .ok decoded ∧
      envelope.Matches lib limits decoded
  | response envelope => ∃ decoded, decodeResponse lib limits data = .ok decoded ∧
      envelope.Matches lib limits decoded
  | event envelope => ∃ decoded, decodeEvent lib limits data = .ok decoded ∧
      envelope.Matches lib limits decoded

/-- The headers of an event are within the default limits, whatever the limits of the codec. -/
def EventWithinDefaults (lib : Libraries) : Envelope → Prop
  | event envelope => envelope.headers.sorted.WithinLimits lib {}
  | _ => True

/-- What a codec encodes it decodes, up to an event with headers beyond the default limits. -/
theorem decodesFrom_encode {lib : Libraries} (faithful : lib.Faithful) {limits : MessageLimits}
    {envelope : Envelope} {data : Bytes} (h : envelope.encode lib limits = .ok data) :
    envelope.DecodesFrom lib limits data ↔ envelope.EventWithinDefaults lib := by
  cases envelope with
  | request => exact iff_of_true (decode_request faithful h) trivial
  | response => exact iff_of_true (decode_response faithful h) trivial
  | event => exact decode_event faithful h

def sampleRequest : RpcRequestEnvelope where
  messageId := 1
  target := ⟨ordersService, "place", 1, by decide, Nat.one_pos, by decide⟩
  createdAt := ⟨2026, 1, 1, 0, 0, 0, 0, by decide⟩
  deadlineAt := ⟨2026, 1, 1, 0, 0, 30, 0, by decide⟩
  correlationId := 2
  causationId := none
  replyTo := ⟨"reply.00000000000000000000000000000003", by decide⟩
  headers := []
  payload := .int 7
  deadline_later := by decide

def utf8 (pieces : List String) : Bytes := pieces.flatMap (·.toUTF8.toList)

/-- The bytes of `sampleRequest`. -/
def requestBytes : Bytes :=
  utf8 ["\x7b\"message_id\":\"00000000-0000-0000-0000-000000000001\",\"kind\":\"rpc_request\",",
    "\"namespace\":\"shop\",\"service\":\"orders\",\"contract_version\":1,",
    "\"method\":\"place\",\"schema_version\":1,\"created_at\":\"2026-01-01T00:00:00Z\",",
    "\"deadline_at\":\"2026-01-01T00:00:30Z\",",
    "\"correlation_id\":\"00000000-0000-0000-0000-000000000002\",\"causation_id\":null,",
    "\"reply_to\":\"reply.00000000000000000000000000000003\",\"headers\":\x7b\x7d,",
    "\"payload\":7\x7d"]

/-- The documents that `sampleRequest` is written with. -/
def requestLibraries : Libraries :=
  .table [(.object [], utf8 ["\x7b\x7d"]),
    (.object (requestMembers sampleRequest (.object []) (.int 7)), requestBytes)]

theorem decodesFrom_sampleRequest :
    (request sampleRequest).encode requestLibraries {} = .ok requestBytes ∧
      ((request sampleRequest).DecodesFrom requestLibraries {} requestBytes ↔
        (request sampleRequest).EventWithinDefaults requestLibraries) := by
  have faithful : requestLibraries.Faithful := Libraries.table_faithful (by decide +kernel)
  have encoded : (request sampleRequest).encode requestLibraries {} = .ok requestBytes := by
    decide +kernel
  exact ⟨encoded, decodesFrom_encode faithful encoded⟩

def nested : Nat → Json
  | 0 => .array []
  | n + 1 => .array [nested n]

/-- An event with a header of 65 lists, one more than the default limits allow. -/
def sampleEvent : EventEnvelope where
  messageId := 1
  identity := placedEvent
  occurredAt := ⟨2026, 1, 1, 0, 0, 0, 0, by decide⟩
  correlationId := none
  causationId := none
  headers := [("h", nested 64)]
  payload := .none

/-- The text of the headers of `sampleEvent`. -/
def headersText : List String :=
  ["\x7b\"h\":"] ++ List.replicate 65 "[" ++ List.replicate 65 "]" ++ ["\x7d"]

/-- The bytes of `sampleEvent`. -/
def eventBytes : Bytes :=
  utf8 (["\x7b\"message_id\":\"00000000-0000-0000-0000-000000000001\",\"kind\":\"event\",",
    "\"namespace\":\"shop\",\"service\":\"orders\",\"contract_version\":1,",
    "\"event\":\"placed\",\"schema_version\":1,\"occurred_at\":\"2026-01-01T00:00:00Z\",",
    "\"correlation_id\":null,\"causation_id\":null,\"headers\":"] ++ headersText ++
    [",\"payload\":null\x7d"])

/-- The documents that `sampleEvent` is written with. -/
def eventLibraries : Libraries :=
  .table [(.object sampleEvent.headers, utf8 headersText),
    (.object (eventMembers sampleEvent (.object sampleEvent.headers) .null), eventBytes)]

/-- A codec that allows 80 levels encodes an event with a header of 66, and rejects the bytes. -/
theorem decodeEvent_sampleEvent :
    let limits : MessageLimits := { maxNestingDepth := 80 }
    eventLibraries.Faithful ∧
      (event sampleEvent).encode eventLibraries limits = .ok eventBytes ∧
      decodeEvent eventLibraries limits eventBytes =
        .error (.wireDecoding "headers exceeds maximum nesting depth") ∧
      ¬ (event sampleEvent).DecodesFrom eventLibraries limits eventBytes := by
  intro limits
  have rejected : decodeEvent eventLibraries limits eventBytes =
      .error (.wireDecoding "headers exceeds maximum nesting depth") := by
    have error : (decodeEvent eventLibraries limits eventBytes).map (fun _ => ()) =
        .error (.wireDecoding "headers exceeds maximum nesting depth") := by
      decide +kernel
    match h : decodeEvent eventLibraries limits eventBytes with
    | .ok decoded => rw [h] at error; cases error
    | .error e => rw [h] at error; cases error; rfl
  refine ⟨Libraries.table_faithful (by decide +kernel), by decide +kernel, rejected, ?_⟩
  rintro ⟨_, h, -⟩
  rw [rejected] at h
  cases h

end Envelope

end ToriPy.Microservices
