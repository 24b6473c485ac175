import ToriPy.Microservices.Wire

/-!
# The JSON codec

`MsgspecJsonMessageCodec` of `codec.py`: the canonical form of application objects, the limits on a
wire value, the strict reading of a document, the field decoders, and the encoding and decoding of
the three envelopes. The functions raise the errors of the source at the places where the source
raises them; `translated` is the `except` clause around the construction of a decoded envelope.
-/

namespace ToriPy.Microservices

/-- `_timestamp`. -/
def timestamp (value : DateTime) : String :=
  String.ofList (replaceAll "+00:00".toList "Z".toList value.isoformat)

/-! ### The canonical form -/

/-- The rules of `_canonical_builtins`: every sequence is copied, the members are put in order. -/
def canonicalRules (field : String) (limits : MessageLimits) : CopyRules where
  maxDepth := limits.maxNestingDepth
  maxItems := limits.maxCollectionItems
  depthError := .wireSizeLimit (field ++ " exceeds the nesting depth limit")
  floatError := .wireEncoding (field ++ " contains a non-finite float")
  sizeError := .wireSizeLimit (field ++ " exceeds the collection limit")
  keyError := .wireEncoding (field ++ " keys must be non-empty strings")
  unsupportedError := .wireEncoding (field ++ " contains an unsupported value")
  sequences _ := true
  members := Json.sortMembers
  members_sub _ _ h := Json.mem_sortMembers h
  members_short := Json.length_sortMembers_le

/-- `_canonical_builtins`. -/
def canonicalBuiltins (field : String) (limits : MessageLimits) (depth : Nat) (value : Value) :
    Except WireError Json :=
  copyValue (canonicalRules field limits) depth value

section
variable (lib : Libraries) (limits : MessageLimits)

/-- `_canonical`. -/
def canonical (value : Value) (field : String) : Except WireError Json :=
  match value with
  | .mapping members => canonicalBuiltins field limits 0 (.mapping members)
  | value => match lib.toBuiltins value with
    | none => .error (.wireEncoding (field ++ " is not codec-compatible"))
    | some builtins => canonicalBuiltins field limits 0 builtins

/-- `_plain_headers`. -/
def plainHeaders (headers : Headers) : Except WireError Json := do
  require (headers.length ≤ limits.maxHeaderCount)
    (.wireSizeLimit "headers exceed the configured count limit")
  canonical lib limits (.ofJson .tuple (.object headers)) "headers"

/-- `_checked_headers`. -/
def checkedHeaders (headers : Headers) : Except WireError Json := do
  let plain ← plainHeaders lib limits headers
  match lib.encode plain with
  | none => .error (.builtin "msgspec.json.encode")
  | some data =>
    require (data.length ≤ limits.maxHeaderBytes)
      (.wireSizeLimit "headers exceed the configured byte limit")
    .ok plain

/-! ### Documents -/

mutual

/-- `_check_limits`. -/
def checkLimits (depth : Nat) (value : Json) : Except WireError Unit :=
  if limits.maxNestingDepth < depth then
    .error (.wireSizeLimit "wire value exceeds the nesting depth limit")
  else match value with
    | .float x =>
      if x.isFinite then .ok () else .error (.wireSizeLimit "wire value contains a non-finite float")
    | .object members =>
      if limits.maxCollectionItems < members.length then
        .error (.wireSizeLimit "wire object exceeds the collection limit")
      else checkMembers (depth + 1) members
    | .array items =>
      if limits.maxCollectionItems < items.length then
        .error (.wireSizeLimit "wire array exceeds the collection limit")
      else checkItems (depth + 1) items
    | _ => .ok ()

def checkItems (depth : Nat) : List Json → Except WireError Unit
  | [] => .ok ()
  | item :: items => do
    checkLimits depth item
    checkItems depth items

def checkMembers (depth : Nat) : List (String × Json) → Except WireError Unit
  | [] => .ok ()
  | (_, item) :: members => do
    checkLimits depth item
    checkMembers depth members

end

/-- `_encode_json`. -/
def encodeJson (value : Json) : Except WireError Bytes := do
  checkLimits limits 0 value
  match lib.encode value with
  | none => .error (.wireEncoding "wire envelope is not JSON encodable")
  | some data =>
    require (data.length ≤ limits.maxEnvelopeBytes)
      (.wireSizeLimit "wire envelope exceeds the configured byte limit")
    .ok data

/-- `_reject_duplicate_members`; `none` is the `ValueError`. -/
def rejectDuplicateMembers : List (String × Json) → Option (List (String × Json))
  | [] => some []
  | (key, item) :: members =>
    if key ∈ members.map Prod.fst then none
    else (rejectDuplicateMembers members).map ((key, item) :: ·)

mutual

/-- The hooks of `json.loads` applied to a document: `_reject_duplicate_members` to every object,
`_reject_non_finite` and `_finite_float` to every number. -/
def strict : Json → Option Json
  | .float x => if x.isFinite then some (.float x) else none
  | .array items => (strictItems items).map .array
  | .object members => (strictMembers members).bind fun members =>
      (rejectDuplicateMembers members).map .object
  | j => some j

def strictItems : List Json → Option (List Json)
  | [] => some []
  | item :: items => (strict item).bind fun item => (strictItems items).map (item :: ·)

def strictMembers : List (String × Json) → Option (List (String × Json))
  | [] => some []
  | (key, item) :: members =>
    (strict item).bind fun item => (strictMembers members).map ((key, item) :: ·)

end

/-- `_decode_json`. -/
def decodeJson (data : Bytes) : Except WireError (List (String × Json)) := do
  require (data.length ≤ limits.maxEnvelopeBytes)
    (.wireSizeLimit "wire envelope exceeds the configured byte limit")
  match (lib.loads data).bind strict, lib.decode data with
  | some _, some (.object members) => do
    checkLimits limits 0 (.object members)
    .ok members
  | some _, some _ => .error (.wireDecoding "wire envelope must be a JSON object")
  | _, _ => .error (.wireDecoding "wire data is not valid JSON")

/-! ### Field decoders -/

/-- `repr` of a list of field names. -/
def reprNames (names : List String) : String :=
  "[" ++ String.intercalate ", " (names.map fun name => "'" ++ name ++ "'") ++ "]"

/-- `sorted(names)`. -/
def sortNames (names : List String) : List String :=
  (Json.sortMembers (names.map fun name => (name, ()))).map Prod.fst

/-- `value[name]`. -/
def getField (value : List (String × Json)) (name : String) : Except WireError Json :=
  match value.lookup name with
  | none => .error (.builtin "KeyError")
  | some item => .ok item

/-- `_require_fields`. -/
def requireFields (value : List (String × Json)) (required : List String) (field : String) :
    Except WireError Unit := do
  let missing := required.filter (· ∉ value.map Prod.fst)
  let unknown := (value.map Prod.fst).filter (· ∉ required)
  require (missing = [])
    (.wireDecoding (field ++ " is missing fields: " ++ reprNames (sortNames missing)))
  require (unknown = [])
    (.wireDecoding (field ++ " has unknown fields: " ++ reprNames (sortNames unknown)))

/-- `_string`. -/
def stringField (value : Json) (field : String) : Except WireError String :=
  match value with
  | .str text => .ok text
  | _ => .error (.wireDecoding (field ++ " must be a string"))

/-- `_uuid`. -/
def uuidField (value : Json) (field : String) : Except WireError UUID := do
  let text ← stringField value field
  match parseUuid text with
  | none => .error (.wireDecoding (field ++ " must be a UUID"))
  | some parsed =>
    require (uuidText parsed = text) (.wireDecoding (field ++ " must use canonical UUID text"))
    .ok parsed

/-- A UUID or `null`. -/
def optionalUuidField (value : Json) (field : String) : Except WireError (Option UUID) :=
  match value with
  | .null => .ok none
  | value => (uuidField value field).map some

/-- `_timestamp_value`. -/
def timestampField (value : Json) (field : String) : Except WireError Moment := do
  let text ← stringField value field
  match fromIsoformat (replaceAll "Z".toList "+00:00".toList text.toList) with
  | none => .error (.wireDecoding (field ++ " must be an ISO-8601 timestamp"))
  | some (time, offset) =>
    require (offset = some 0) (.wireDecoding (field ++ " must be UTC"))
    .ok ⟨time, offset⟩

/-- `_positive_int`. -/
def positiveIntField (value : Json) (field : String) : Except WireError Int :=
  match value with
  | .int n =>
    if 0 < n then .ok n else .error (.wireDecoding (field ++ " must be a positive integer"))
  | _ => .error (.wireDecoding (field ++ " must be a positive integer"))

/-- `_service`. -/
def serviceField (value : List (String × Json)) : Except WireError ServiceIdentity := do
  let missing := ["namespace", "service", "contract_version"].filter (· ∉ value.map Prod.fst)
  require (missing = [])
    (.wireDecoding ("service is missing fields: " ++ reprNames (sortNames missing)))
  let nameSpace ← stringField (← getField value "namespace") "namespace"
  let name ← stringField (← getField value "service") "service"
  let version ← positiveIntField (← getField value "contract_version") "contract_version"
  ServiceIdentity.make nameSpace name version

/-- `except WireSizeLimitError: raise` and
`except (IdentityValidationError, WireValidationError) as error: raise WireDecodingError(...)`. -/
def translated {α : Type} : Except WireError α → Except WireError α
  | .error (.wireSizeLimit message) => .error (.wireSizeLimit message)
  | .error (.builtin message) => .error (.builtin message)
  | .error error => .error (.wireDecoding error.message)
  | .ok a => .ok a

/-- `_headers`. -/
def headersField (value : Json) : Except WireError Headers :=
  match value with
  | .object members => do
    let frozen ← translated (freezeHeaders lib (.ofJson .list (.object members)) limits)
    let plain ← plainHeaders lib limits frozen
    match lib.encode plain with
    | none => .error (.builtin "msgspec.json.encode")
    | some data =>
      require (data.length ≤ limits.maxHeaderBytes)
        (.wireSizeLimit "headers exceed the configured byte limit")
      .ok frozen
  | _ => .error (.wireDecoding "headers must be a JSON object")

def Headers.toValue (headers : Headers) : Value := .ofJson .tuple (.object headers)

/-- `_remote_error`. -/
def remoteErrorField (value : Json) : Except WireError RemoteRpcErrorData :=
  match value with
  | .object members => do
    requireFields members ["code", "message", "retryable", "details"] "error"
    let details ← getField members "details"
    match details with
    | .object _ =>
      let details ← headersField lib limits details
      match ← getField members "retryable" with
      | .bool retryable => translated do
        let code ← stringField (← getField members "code") "error.code"
        let message ← stringField (← getField members "message") "error.message"
        RemoteRpcErrorData.make lib limits code message retryable details.toValue
      | _ => .error (.wireDecoding "error.retryable must be boolean")
    | _ => .error (.wireDecoding "error.details must be a JSON object")
  | _ => .error (.wireDecoding "error must be a JSON object")

/-! ### Requests -/

/-- `_wire_service`. -/
def wireService (service : ServiceIdentity) : List (String × Json) :=
  [("namespace", .str service.nameSpace), ("service", .str service.name),
    ("contract_version", .int service.contractVersion)]

/-- An identifier or `None`. -/
def optionalUuid (id : Option UUID) : Json :=
  match id with
  | none => .null
  | some id => .str (uuidText id)

/-- `_REQUEST_FIELDS`. -/
def requestFields : List String :=
  ["message_id", "kind", "namespace", "service", "contract_version", "method", "schema_version",
    "created_at", "deadline_at", "correlation_id", "causation_id", "reply_to", "headers", "payload"]

def requestMembers (envelope : RpcRequestEnvelope) (headers payload : Json) :
    List (String × Json) :=
  [("message_id", .str (uuidText envelope.messageId)), ("kind", .str "rpc_request")] ++
  wireService envelope.target.service ++
  [("method", .str envelope.target.method),
    ("schema_version", .int envelope.target.schemaVersion),
    ("created_at", .str (timestamp envelope.createdAt)),
    ("deadline_at", .str (timestamp envelope.deadlineAt)),
    ("correlation_id", .str (uuidText envelope.correlationId)),
    ("causation_id", optionalUuid envelope.causationId),
    ("reply_to", .str envelope.replyTo.value),
    ("headers", headers),
    ("payload", payload)]

/-- `encode_request`. -/
def encodeRequest (envelope : RpcRequestEnvelope) : Except WireError Bytes := do
  let headers ← checkedHeaders lib limits envelope.headers
  let payload ← canonical lib limits envelope.payload "payload"
  encodeJson lib limits (.object (requestMembers envelope headers payload))

/-- `decode_request`. -/
def decodeRequest (data : Bytes) : Except WireError RpcRequestEnvelope := do
  let value ← decodeJson lib limits data
  requireFields value requestFields "RPC request"
  let causation ← optionalUuidField (← getField value "causation_id") "causation_id"
  translated do
    require ((← getField value "kind") = .str "rpc_request")
      (.wireDecoding "RPC request kind is invalid")
    let messageId ← uuidField (← getField value "message_id") "message_id"
    let service ← serviceField value
    let method ← stringField (← getField value "method") "method"
    let schemaVersion ← positiveIntField (← getField value "schema_version") "schema_version"
    let createdAt ← timestampField (← getField value "created_at") "created_at"
    let deadlineAt ← timestampField (← getField value "deadline_at") "deadline_at"
    let correlationId ← uuidField (← getField value "correlation_id") "correlation_id"
    let replyTo ← ReplyRoute.make (← stringField (← getField value "reply_to") "reply_to")
    let headers ← headersField lib limits (← getField value "headers")
    let payload ← getField value "payload"
    RpcRequestEnvelope.make lib limits messageId service method schemaVersion createdAt deadlineAt
      correlationId causation replyTo headers.toValue (.ofJson .list payload)

/-! ### Responses -/

/-- `_RESPONSE_BASE_FIELDS`. -/
def responseBaseFields : List String := ["message_id", "kind", "correlation_id", "completed_at"]

def errorMembers (data : RemoteRpcErrorData) (details : Json) : List (String × Json) :=
  [("code", .str data.code), ("message", .str data.message), ("retryable", .bool data.retryable),
    ("details", details)]

/-- The members of a response on the wire, the last one being its result or its error. -/
def responseMembers (envelope : RpcResponseEnvelope) (outcome : String × Json) :
    List (String × Json) :=
  [("message_id", .str (uuidText envelope.messageId)), ("kind", .str "rpc_response"),
    ("correlation_id", .str (uuidText envelope.correlationId)),
    ("completed_at", .str (timestamp envelope.completedAt)), outcome]

/-- The result or the error of a response on the wire. -/
def outcomeMember (outcome : RpcOutcome) : Except WireError (String × Json) :=
  match outcome with
  | .result value => (canonical lib limits value "result").map ("result", ·)
  | .error data =>
    (checkedHeaders lib limits data.details).map fun details =>
      ("error", .object (errorMembers data details))

/-- `encode_response`. -/
def encodeResponse (envelope : RpcResponseEnvelope) : Except WireError Bytes := do
  let outcome ← outcomeMember lib limits envelope.outcome
  encodeJson lib limits (.object (responseMembers envelope outcome))

/-- `decode_response`. -/
def decodeResponse (data : Bytes) : Except WireError RpcResponseEnvelope := do
  let value ← decodeJson lib limits data
  require (∀ name ∈ responseBaseFields, name ∈ value.map Prod.fst)
    (.wireDecoding "RPC response is missing required fields")
  require (∀ name ∈ value.map Prod.fst, name ∈ responseBaseFields ++ ["result", "error"])
    (.wireDecoding "RPC response has unknown fields")
  require ((← getField value "kind") = .str "rpc_response")
    (.wireDecoding "RPC response kind is invalid")
  require ((value.lookup "result").isSome ≠ (value.lookup "error").isSome)
    (.wireDecoding "RPC response must contain exactly one result/error")
  translated do
    let messageId ← uuidField (← getField value "message_id") "message_id"
    let correlationId ← uuidField (← getField value "correlation_id") "correlation_id"
    let completedAt ← timestampField (← getField value "completed_at") "completed_at"
    let error ← match value.lookup "error" with
      | none => .ok none
      | some error => (remoteErrorField lib limits error).map some
    RpcResponseEnvelope.make messageId correlationId completedAt
      ((value.lookup "result").map (.ofJson .list)) error

/-! ### Events -/

/-- `_EVENT_FIELDS`. -/
def eventFields : List String :=
  ["message_id", "kind", "namespace", "service", "contract_version", "event", "schema_version",
    "occurred_at", "correlation_id", "causation_id", "headers", "payload"]

def eventMembers (envelope : EventEnvelope) (headers payload : Json) : List (String × Json) :=
  [("message_id", .str (uuidText envelope.messageId)), ("kind", .str "event")] ++
  wireService envelope.identity.source ++
  [("event", .str envelope.identity.event),
    ("schema_version", .int envelope.identity.schemaVersion),
    ("occurred_at", .str (timestamp envelope.occurredAt)),
    ("correlation_id", optionalUuid envelope.correlationId),
    ("causation_id", optionalUuid envelope.causationId),
    ("headers", headers),
    ("payload", payload)]

/-- `encode_event`. -/
def encodeEvent (envelope : EventEnvelope) : Except WireError Bytes := do
  let headers ← checkedHeaders lib limits envelope.headers
  let payload ← canonical lib limits envelope.payload "payload"
  encodeJson lib limits (.object (eventMembers envelope headers payload))

/-- `decode_event`. The envelope is constructed without limits, that is with the default ones. -/
def decodeEvent (data : Bytes) : Except WireError EventEnvelope := do
  let value ← decodeJson lib limits data
  requireFields value eventFields "event"
  let correlation ← getField value "correlation_id"
  let causation ← getField value "causation_id"
  let correlation ← optionalUuidField correlation "correlation_id"
  let causation ← optionalUuidField causation "causation_id"
  require ((← getField value "kind") = .str "event") (.wireDecoding "event kind is invalid")
  translated do
    let messageId ← uuidField (← getField value "message_id") "message_id"
    let source ← serviceField value
    let event ← stringField (← getField value "event") "event"
    let schemaVersion ← positiveIntField (← getField value "schema_version") "schema_version"
    let occurredAt ← timestampField (← getField value "occurred_at") "occurred_at"
    let headers ← headersField lib limits (← getField value "headers")
    let payload ← getField value "payload"
    EventEnvelope.make lib none messageId source event schemaVersion occurredAt correlation
      causation headers.toValue (.ofJson .list payload)

end

end ToriPy.Microservices
