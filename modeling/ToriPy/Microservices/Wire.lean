import ToriPy.Base.DateTime
import ToriPy.Base.Json
import ToriPy.Microservices.Identities

/-!
# Envelopes

The envelopes of `wire.py`. An application object is a `Value`; freezing copies it into an immutable
tree of the JSON kind, which is a `Json` here (a `MappingProxyType` is an object, a tuple an array).
What `msgspec` and the `json` module do is a `Libraries`: functions that may raise, which is `none`.

The envelopes carry what their constructors check, so that only valid ones can be built; `make` of
each is the constructor with the limits it is called with.
-/

namespace ToriPy.Microservices

/-- The key of a mapping: a string, or some other object. -/
inductive Key where
  | str (name : String)
  | other (id : Nat)
deriving DecidableEq

/-- The sequence types that the code tells apart. -/
inductive SequenceKind where
  | list
  | tuple
  | other
deriving DecidableEq

/-- A Python object. The keys of a mapping are distinct. -/
inductive Value where
  | none
  | bool (value : Bool)
  | int (value : Int)
  | float (value : Double)
  | str (value : String)
  | mapping (members : List (Key × Value))
  | sequence (kind : SequenceKind) (items : List Value)
  | other (id : Nat)

namespace Value

mutual

/-- A tree of the JSON kind as an object, its arrays as sequences of the given type. -/
def ofJson (kind : SequenceKind) : Json → Value
  | .null => .none
  | .bool b => .bool b
  | .int n => .int n
  | .float x => .float x
  | .str s => .str s
  | .array items => .sequence kind (ofItems kind items)
  | .object members => .mapping (ofMembers kind members)

def ofItems (kind : SequenceKind) : List Json → List Value
  | [] => []
  | j :: js => ofJson kind j :: ofItems kind js

def ofMembers (kind : SequenceKind) : List (String × Json) → List (Key × Value)
  | [] => []
  | (k, j) :: ms => (.str k, ofJson kind j) :: ofMembers kind ms

end

/-- `bool(value)`; an object of an application's class is true. -/
def truthy : Value → Bool
  | none => false
  | bool b => b
  | int n => n ≠ 0
  | float x => x.toNat % 2 ^ 63 ≠ 0
  | str s => s ≠ ""
  | mapping members => members ≠ []
  | sequence _ items => ! items.isEmpty
  | other _ => true

end Value

/-- The functions of `msgspec` and of the `json` module that the codec uses. -/
structure Libraries where
  /-- `msgspec.json.encode`, on dictionaries and lists of JSON values. -/
  encode : Json → Option Bytes
  /-- `msgspec.json.decode`. -/
  decode : Bytes → Option Json
  /-- `msgspec.to_builtins`. -/
  toBuiltins : Value → Option Value
  /-- What `json.loads` reads, before its hooks see it: members in their order, also when one occurs
  twice, and numbers also when they are not finite. -/
  loads : Bytes → Option Json

/-! ### Copying objects -/

/-- What the recursive copies of an object differ in: the limits, the errors, the sequence types that
are copied, and what becomes of the members of a mapping. -/
structure CopyRules where
  maxDepth : Nat
  maxItems : Nat
  depthError : WireError
  floatError : WireError
  sizeError : WireError
  keyError : WireError
  unsupportedError : WireError
  sequences : SequenceKind → Bool
  members : List (String × Json) → List (String × Json)
  members_sub : ∀ ms, ∀ m ∈ members ms, m ∈ ms
  members_short : ∀ ms, (members ms).length ≤ ms.length

section
variable (rules : CopyRules)

mutual

/-- The copy of an object that is found at a depth, as a tree of the JSON kind. -/
def copyValue (depth : Nat) (value : Value) : Except WireError Json :=
  if rules.maxDepth < depth then .error rules.depthError
  else match value with
    | .none => .ok .null
    | .bool b => .ok (.bool b)
    | .int n => .ok (.int n)
    | .float x => if x.isFinite then .ok (.float x) else .error rules.floatError
    | .str s => .ok (.str s)
    | .mapping members =>
      if rules.maxItems < members.length then .error rules.sizeError
      else (copyMembers (depth + 1) members).map fun members => .object (rules.members members)
    | .sequence kind items =>
      if rules.sequences kind = false then .error rules.unsupportedError
      else if rules.maxItems < items.length then .error rules.sizeError
      else (copyItems (depth + 1) items).map .array
    | .other _ => .error rules.unsupportedError

def copyItems (depth : Nat) : List Value → Except WireError (List Json)
  | [] => .ok []
  | item :: items => do
    let copy ← copyValue depth item
    let rest ← copyItems depth items
    .ok (copy :: rest)

def copyMembers (depth : Nat) : List (Key × Value) → Except WireError (List (String × Json))
  | [] => .ok []
  | (.str "", _) :: _ => .error rules.keyError
  | (.other _, _) :: _ => .error rules.keyError
  | (.str key, item) :: members => do
    let copy ← copyValue depth item
    let rest ← copyMembers depth members
    .ok ((key, copy) :: rest)

end

end

/-! ### Frozen headers -/

/-- The rules of `_freeze_value`: lists and tuples are copied, the members keep their order. -/
def freezeRules (field : String) (maxDepth maxItems : Nat) : CopyRules where
  maxDepth := maxDepth
  maxItems := maxItems
  depthError := .wireValidation (field ++ " exceeds maximum nesting depth")
  floatError := .wireValidation (field ++ " contains a non-finite float")
  sizeError := .wireSizeLimit (field ++ " exceeds the collection limit")
  keyError := .wireValidation (field ++ " keys must be non-empty strings")
  unsupportedError := .wireValidation (field ++ " contains an unsupported value")
  sequences kind := kind ≠ .other
  members := id
  members_sub _ _ h := h
  members_short _ := Nat.le_refl _

/-- `_freeze_value`. -/
def freezeValue (field : String) (maxDepth maxItems depth : Nat) (value : Value) :
    Except WireError Json :=
  copyValue (freezeRules field maxDepth maxItems) depth value

abbrev Headers := List (String × Json)

/-- `freeze_headers`, with the default limits when it is given none. -/
def freezeHeaders (lib : Libraries) (headers : Value) (limits : Option MessageLimits) :
    Except WireError Headers :=
  let selected := limits.getD {}
  match if headers.truthy then headers else .mapping [] with
  | .mapping members => do
    require (members.length ≤ selected.maxHeaderCount)
      (.wireValidation "headers exceed the configured count limit")
    let frozen ← freezeValue "headers" selected.maxNestingDepth selected.maxCollectionItems 0
      (.mapping members)
    match lib.encode frozen with
    | none => .error (.builtin "msgspec.json.encode")
    | some data =>
      require (data.length ≤ selected.maxHeaderBytes)
        (.wireSizeLimit "headers exceed the configured byte limit")
      match frozen with
      | .object members => .ok members
      | _ => .error (.builtin "AssertionError")
  | _ => .error (.wireValidation "headers must be a mapping")

/-! ### Moments -/

/-- A `datetime`: its fields and its offset from UTC, which a naive one does not have. -/
structure Moment where
  time : DateTime
  utcoffset : Option Int

/-- `require_utc`. -/
def requireUtc (value : Moment) (field : String) : Except WireError DateTime :=
  match value.utcoffset with
  | none => .error (.wireValidation (field ++ " must be timezone-aware UTC"))
  | some offset =>
    if offset = 0 then .ok value.time else .error (.wireValidation (field ++ " must use UTC"))

/-- `require_future_deadline`. -/
def requireFutureDeadline (createdAt deadlineAt : Moment) :
    Except WireError {times : DateTime × DateTime // times.1.before times.2 = true} := do
  let created ← requireUtc createdAt "created_at"
  let deadline ← requireUtc deadlineAt "deadline_at"
  if later : created.before deadline = true then .ok ⟨(created, deadline), later⟩
  else .error (.wireValidation "deadline_at must be later than created_at")

/-- `str(error)`. -/
def WireError.message : WireError → String
  | .identityValidation message => message
  | .wireValidation message => message
  | .wireEncoding message => message
  | .wireDecoding message => message
  | .wireSizeLimit message => message
  | .wireDeadline message => message
  | .builtin message => message

/-- `except WireValidationError as error: raise WireDeadlineError(str(error)) from error`. -/
def asDeadlineError {α : Type} : Except WireError α → Except WireError α
  | .error (.identityValidation message) => .error (.identityValidation message)
  | .error (.builtin message) => .error (.builtin message)
  | .error error => .error (.wireDeadline error.message)
  | .ok a => .ok a

/-! ### Envelopes -/

/-- `RemoteRpcErrorData`. -/
structure RemoteRpcErrorData where
  code : String
  message : String
  retryable : Bool
  details : Headers
  code_ne : code ≠ ""
  message_ne : message ≠ ""
  message_bounded : message.length ≤ 4096

def RemoteRpcErrorData.make (lib : Libraries) (limits : Option MessageLimits)
    (code message : String) (retryable : Bool) (details : Value) :
    Except WireError RemoteRpcErrorData :=
  if code_ne : code ≠ "" then
    if message_ne : message ≠ "" then
      if bounded : message.length ≤ 4096 then do
        let details ← freezeHeaders lib details limits
        .ok ⟨code, message, retryable, details, code_ne, message_ne, bounded⟩
      else .error (.wireValidation "remote error message exceeds 4096 characters")
    else .error (.wireValidation "remote error message must be non-empty")
  else .error (.wireValidation "remote error code must be a non-empty string")

/-- `RpcRequestEnvelope`. The service, the method and the schema version are its target. -/
structure RpcRequestEnvelope where
  messageId : UUID
  target : RpcTarget
  createdAt : DateTime
  deadlineAt : DateTime
  correlationId : UUID
  causationId : Option UUID
  replyTo : ReplyRoute
  headers : Headers
  payload : Value
  deadline_later : createdAt.before deadlineAt = true

def RpcRequestEnvelope.make (lib : Libraries) (limits : Option MessageLimits) (messageId : UUID)
    (service : ServiceIdentity) (method : String) (schemaVersion : Int)
    (createdAt deadlineAt : Moment) (correlationId : UUID) (causationId : Option UUID)
    (replyTo : ReplyRoute) (headers payload : Value) : Except WireError RpcRequestEnvelope := do
  let target ← RpcTarget.make service method schemaVersion
  let times ← asDeadlineError (requireFutureDeadline createdAt deadlineAt)
  let headers ← freezeHeaders lib headers limits
  .ok ⟨messageId, target, times.1.1, times.1.2, correlationId, causationId, replyTo, headers,
    payload, times.2⟩

/-- What a response holds: exactly one of a result and an error. -/
inductive RpcOutcome where
  | result (value : Value)
  | error (data : RemoteRpcErrorData)

/-- `RpcResponseEnvelope`. -/
structure RpcResponseEnvelope where
  messageId : UUID
  correlationId : UUID
  completedAt : DateTime
  outcome : RpcOutcome

/-- The constructor; a `result` of `none` is `RESULT_MISSING`. -/
def RpcResponseEnvelope.make (messageId correlationId : UUID) (completedAt : Moment)
    (result : Option Value) (error : Option RemoteRpcErrorData) :
    Except WireError RpcResponseEnvelope := do
  let completed ← requireUtc completedAt "completed_at"
  match result, error with
  | some value, none => .ok ⟨messageId, correlationId, completed, .result value⟩
  | none, some data => .ok ⟨messageId, correlationId, completed, .error data⟩
  | _, _ => .error (.wireValidation "RPC response must contain exactly one result/error")

/-- `EventEnvelope`. The source, the event and the schema version are its identity. -/
structure EventEnvelope where
  messageId : UUID
  identity : EventIdentity
  occurredAt : DateTime
  correlationId : Option UUID
  causationId : Option UUID
  headers : Headers
  payload : Value

def EventEnvelope.make (lib : Libraries) (limits : Option MessageLimits) (messageId : UUID)
    (source : ServiceIdentity) (event : String) (schemaVersion : Int) (occurredAt : Moment)
    (correlationId causationId : Option UUID) (headers payload : Value) :
    Except WireError EventEnvelope := do
  let identity ← EventIdentity.make source event schemaVersion
  let occurred ← requireUtc occurredAt "occurred_at"
  let headers ← freezeHeaders lib headers limits
  .ok ⟨messageId, identity, occurred, correlationId, causationId, headers, payload⟩

end ToriPy.Microservices
