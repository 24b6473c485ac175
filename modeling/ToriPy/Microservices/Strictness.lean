import ToriPy.Microservices.RoundTrip

/-!
# Strict decoding

What the decoders accept and what they raise. Each field decoder has one specification: what it
returns is what the document holds, and whatever it raises is an error of the package. The
decoders translate those into `WireDecodingError`, except for `WireSizeLimitError`, so that a
decoder that is given any bytes returns the envelope that a strict document describes, or raises
one of the two.

The readers are assumed to agree on documents without duplicate members, and `msgspec` to encode
every finite JSON value (`Libraries.Reads`).
-/

namespace ToriPy.Microservices

open List

open Json (All Plain)

/-- `json.loads` and `msgspec.json.decode` agree on strict documents, and `msgspec.json.encode`
encodes every strict value. -/
structure Libraries.Reads (lib : Libraries) : Prop where
  agrees : ∀ {j : Json} {data : Bytes}, lib.loads data = some j → Plain j → lib.decode data = some j
  encodes : ∀ {j : Json}, Plain j → (lib.encode j).isSome

/-- The errors that a decoder may raise: `WireDecodingError` and `WireSizeLimitError`. -/
def WireError.Decoding : WireError → Prop
  | .wireDecoding _ => True
  | .wireSizeLimit _ => True
  | _ => False

/-- The errors of the package, unlike those of the interpreter and of the libraries. -/
def WireError.Wire : WireError → Prop
  | .builtin _ => False
  | _ => True

lemma WireError.Decoding.wire : ∀ e : WireError, e.Decoding → e.Wire
  | .wireDecoding _, _ => trivial
  | .wireSizeLimit _, _ => trivial

variable {α : Type} {Q : α → Prop} {x : Except WireError α} {name : String}

lemma ensures_translated (h : Ensures WireError.Wire Q x) :
    Ensures WireError.Decoding Q (translated x) := by
  cases h with
  | ok h => exact .ok h
  | @error e h =>
    cases e with
    | builtin => exact h.elim
    | _ => exact .error trivial

lemma ensures_wire (h : Ensures WireError.Decoding Q x) : Ensures WireError.Wire Q x :=
  h.imp WireError.Decoding.wire fun _ => id

/-! ### Fields -/

lemma stringField_ensures (value : Json) (field : String) :
    Ensures WireError.Decoding (fun text => value = .str text) (stringField value field) := by
  cases value with
  | str => exact .ok rfl
  | _ => exact .error trivial

lemma uuidField_ensures (value : Json) (field : String) :
    Ensures WireError.Decoding (fun id => value = .str (uuidText id)) (uuidField value field) := by
  apply (stringField_ensures value field).bind
  rintro text rfl
  cases parseUuid text with
  | none => exact .error trivial
  | some =>
    refine .require_bind trivial ?_
    rintro rfl
    exact .ok rfl

lemma optionalUuidField_ensures (value : Json) (field : String) :
    Ensures WireError.Decoding (fun id => value = optionalUuid id)
      (optionalUuidField value field) := by
  unfold optionalUuidField
  split
  · exact .ok rfl
  · exact (uuidField_ensures _ field).map fun _ => id

def UtcText (time : DateTime) (value : Json) : Prop :=
  ∃ text, value = .str text ∧
    fromIsoformat (replaceAll "Z".toList "+00:00".toList text.toList) = some (time, some 0)

lemma timestampField_ensures (value : Json) (field : String) :
    Ensures WireError.Decoding (fun moment => UtcText moment.time value ∧ moment.utcoffset = some 0)
      (timestampField value field) := by
  apply (stringField_ensures value field).bind
  rintro text rfl
  split
  · exact .error trivial
  · rename_i time offset parsed
    refine .require_bind trivial ?_
    rintro rfl
    exact .ok ⟨⟨text, rfl, parsed⟩, rfl⟩

lemma positiveIntField_ensures (value : Json) (field : String) :
    Ensures WireError.Decoding (fun n => value = .int n ∧ 0 < n) (positiveIntField value field) := by
  cases value with
  | int n =>
    rw [positiveIntField]
    split
    · rename_i pos
      exact .ok ⟨rfl, pos⟩
    · exact .error trivial
  | _ => exact .error trivial

lemma getField_ensures {E value} (h : name ∈ value.map Prod.fst) :
    Ensures E (fun item => value.lookup name = some item) (getField value name) := by
  unfold getField
  split
  · rename_i missing
    rw [lookup_eq_none_iff] at missing
    obtain ⟨member, mem, rfl⟩ := mem_map.mp h
    simpa using missing member mem
  · rename_i found
    exact .ok found

/-- A member that is taken and decoded. -/
lemma member_ensures {α β : Type} {value : List (String × Json)} {read : Json → Except WireError α}
    {P : Json → α → Prop} {Q : β → Prop}
    {next : α → Except WireError β} (present : name ∈ value.map Prod.fst)
    (reads : ∀ item, Ensures WireError.Decoding (P item) (read item))
    (rest : ∀ item a, value.lookup name = some item → P item a → Ensures WireError.Wire Q (next a)) :
    Ensures WireError.Wire Q (getField value name >>= fun item => read item >>= next) := by
  apply (getField_ensures present).bind
  intro item found
  exact (ensures_wire (reads item)).bind fun a => rest item a found

def HasFields (value : List (String × Json)) (fields : List String) : Prop :=
  ∀ name, name ∈ value.map Prod.fst ↔ name ∈ fields

lemma requireFields_ensures (value : List (String × Json)) (required : List String)
    (field : String) :
    Ensures WireError.Decoding (fun _ => HasFields value required)
      (requireFields value required field) := by
  refine .require_bind trivial ?_
  intro missing
  unfold require
  split
  · rename_i unknown
    rw [filter_eq_nil_iff] at missing unknown
    refine .ok fun name => ⟨fun mem => ?_, fun mem => ?_⟩
    · simpa using unknown name mem
    · simpa using missing name mem
  · exact .error trivial

/-! ### Identities -/

lemma ServiceIdentity.make_ensures (nameSpace name : String) (version : Int) :
    Ensures WireError.Wire
      (fun service => service.nameSpace = nameSpace ∧ service.name = name ∧
        (service.contractVersion : Int) = version)
      (ServiceIdentity.make nameSpace name version) := by
  unfold ServiceIdentity.make
  repeat' split
  · rename_i pos _
    exact .ok ⟨rfl, rfl, Int.toNat_of_nonneg (by omega)⟩
  all_goals exact .error trivial

lemma RpcTarget.make_ensures (service : ServiceIdentity) (method : String) (version : Int) :
    Ensures WireError.Wire
      (fun target => target.service = service ∧ target.method = method ∧
        (target.schemaVersion : Int) = version)
      (RpcTarget.make service method version) := by
  unfold RpcTarget.make
  repeat' split
  · rename_i pos _
    exact .ok ⟨rfl, rfl, Int.toNat_of_nonneg (by omega)⟩
  all_goals exact .error trivial

lemma EventIdentity.make_ensures (source : ServiceIdentity) (event : String) (version : Int) :
    Ensures WireError.Wire
      (fun identity => identity.source = source ∧ identity.event = event ∧
        (identity.schemaVersion : Int) = version)
      (EventIdentity.make source event version) := by
  unfold EventIdentity.make
  repeat' split
  · rename_i pos _ _
    exact .ok ⟨rfl, rfl, Int.toNat_of_nonneg (by omega)⟩
  all_goals exact .error trivial

lemma ReplyRoute.make_ensures (value : String) :
    Ensures WireError.Wire (fun route => route.value = value) (ReplyRoute.make value) := by
  unfold ReplyRoute.make
  split
  · exact .ok rfl
  · exact .error trivial

def AliasText (text : String) (value : Option Json) : Prop :=
  value = some (.str text) ∧ isAlias text = true

def VersionNumber (version : Nat) (value : Option Json) : Prop :=
  value = some (.int version) ∧ 0 < version

/-- The members that name a service. -/
structure ServiceMembers (value : List (String × Json)) (service : ServiceIdentity) : Prop where
  nameSpace : AliasText service.nameSpace (value.lookup "namespace")
  name : AliasText service.name (value.lookup "service")
  contractVersion : VersionNumber service.contractVersion (value.lookup "contract_version")

lemma serviceField_ensures {value : List (String × Json)}
    (present : ∀ name ∈ ["namespace", "service", "contract_version"], name ∈ value.map Prod.fst) :
    Ensures WireError.Wire (ServiceMembers value) (serviceField value) := by
  refine .require_bind trivial fun _ => ?_
  refine member_ensures (present "namespace" (by decide)) (stringField_ensures · _) ?_
  rintro _ nameSpace nameSpaceMember rfl
  refine member_ensures (present "service" (by decide)) (stringField_ensures · _) ?_
  rintro _ name nameMember rfl
  refine member_ensures (present "contract_version" (by decide)) (positiveIntField_ensures · _) ?_
  rintro _ version versionMember ⟨rfl, _⟩
  apply (ServiceIdentity.make_ensures nameSpace name version).imp (fun _ => id)
  rintro service ⟨rfl, rfl, rfl⟩
  exact ⟨⟨nameSpaceMember, service.nameSpace_alias⟩, ⟨nameMember, service.name_alias⟩,
    ⟨versionMember, service.version_pos⟩⟩

/-! ### Headers -/

lemma freezeRules_raises (field : String) (maxDepth maxItems : Nat) :
    (freezeRules field maxDepth maxItems).Raises WireError.Wire :=
  ⟨trivial, trivial, trivial, trivial, trivial⟩

lemma canonicalRules_raises (field : String) (limits : MessageLimits) :
    (canonicalRules field limits).Raises WireError.Wire :=
  ⟨trivial, trivial, trivial, trivial, trivial⟩

section
variable {lib : Libraries} {limits : MessageLimits}

lemma freezeHeaders_ensures (reads : lib.Reads) {kind} (hk : kind ≠ .other) {headers : Headers}
    (plain : Plain (.object headers)) (selected : Option MessageLimits) :
    Ensures WireError.Wire
      (fun frozen => frozen = headers ∧ headers.WithinLimits lib (selected.getD {}))
      (freezeHeaders lib (.ofJson kind (.object headers)) selected) := by
  refine Ensures.returns (Q := fun _ => True) ?_ fun _ => (freezeHeaders_ofJson hk).mp
  have source : (if (Value.ofJson kind (.object headers)).truthy then
      Value.ofJson kind (.object headers) else .mapping []) =
        .ofJson kind (.object headers) := by
    cases headers with
    | nil | cons => rfl
  unfold freezeHeaders
  dsimp only
  rw [source, Value.ofJson]
  dsimp only
  refine .require_bind trivial fun _ => ?_
  have frozen : Ensures WireError.Wire (fun j => j = .object headers)
      (freezeValue "headers" (selected.getD {}).maxNestingDepth
        (selected.getD {}).maxCollectionItems 0 (.ofJson kind (.object headers))) :=
    (copyValue_ensures (freezeRules_raises _ _ _) _ _).returns fun _ h =>
      ((freezeValue_ofJson hk).mp h).1
  apply frozen.bind
  rintro j rfl
  obtain ⟨_, encoded⟩ := Option.isSome_iff_exists.mp (reads.encodes plain)
  rw [encoded]
  exact .require_bind trivial fun _ => .ok trivial

lemma plainHeaders_ensures (headers : Headers) :
    Ensures WireError.Wire (fun plain => Plain plain) (plainHeaders lib limits headers) := by
  refine Ensures.returns (Q := fun _ => True) ?_ fun _ h => (plainHeaders_ok h).2.1.plain
  refine .require_bind trivial fun _ => ?_
  exact (copyValue_ensures (canonicalRules_raises _ _) _ _).imp (fun _ => id) fun _ _ => trivial

/-- Headers that a decoder accepts: an object within the limits of the codec. -/
def HeadersMember (lib : Libraries) (limits : MessageLimits) (headers : Headers) (value : Json) :
    Prop :=
  value = .object headers ∧ headers.WithinLimits lib limits

lemma headersField_ensures (reads : lib.Reads) {value} (plain : Plain value) :
    Ensures WireError.Wire (fun headers => HeadersMember lib limits headers value)
      (headersField lib limits value) := by
  cases value with
  | object =>
    apply (ensures_wire (ensures_translated
      (freezeHeaders_ensures reads (by decide) plain (some limits)))).bind
    rintro frozen ⟨rfl, within⟩
    apply (plainHeaders_ensures frozen).bind
    intro sorted plain
    obtain ⟨_, encoded⟩ := Option.isSome_iff_exists.mp (reads.encodes plain)
    rw [encoded]
    exact .require_bind trivial fun _ => .ok ⟨rfl, within⟩
  | _ => exact .error trivial

/-! ### Documents -/

mutual

lemma checkLimits_raises : ∀ (j : Json) (depth : Nat),
    Ensures WireError.Decoding (fun _ => True) (checkLimits limits depth j)
  | j, depth => by
    rw [checkLimits.eq_def]
    split
    · exact .error trivial
    match j with
    | .null => exact .ok trivial
    | .bool b => exact .ok trivial
    | .int n => exact .ok trivial
    | .float x =>
      dsimp only
      split
      · exact .ok trivial
      · exact .error trivial
    | .str s => exact .ok trivial
    | .array items =>
      dsimp only
      split
      · exact .error trivial
      · exact checkItems_raises items (depth + 1)
    | .object members =>
      dsimp only
      split
      · exact .error trivial
      · exact checkMembers_raises members (depth + 1)

lemma checkItems_raises : ∀ (items : List Json) (depth : Nat),
    Ensures WireError.Decoding (fun _ => True) (checkItems limits depth items)
  | [], _ => .ok trivial
  | item :: items, depth => by
    rw [checkItems]
    exact (checkLimits_raises item depth).bind fun _ _ => checkItems_raises items depth

lemma checkMembers_raises : ∀ (members : List (String × Json)) (depth : Nat),
    Ensures WireError.Decoding (fun _ => True) (checkMembers limits depth members)
  | [], _ => .ok trivial
  | (_, item) :: members, depth => by
    rw [checkMembers]
    exact (checkLimits_raises item depth).bind fun _ _ => checkMembers_raises members depth

end

/-- The bytes are those of a strict JSON object within the limits. -/
structure StrictDocument (lib : Libraries) (limits : MessageLimits) (data : Bytes)
    (value : List (String × Json)) : Prop where
  loaded : lib.loads data = some (.object value)
  plain : Plain (.object value)
  bytes : data.length ≤ limits.maxEnvelopeBytes
  within : All (Within limits.maxNestingDepth limits.maxCollectionItems) 0 (.object value)

variable {value : List (String × Json)}

lemma plain_lookup (plain : Plain (.object value)) {item}
    (h : value.lookup name = some item) : Plain item := by
  obtain ⟨_, _, rfl, -⟩ := lookup_eq_some_iff.mp h
  apply (plain_node.mp plain).2
  simp [Json.children]

lemma decodeJson_ensures (reads : lib.Reads) (data : Bytes) :
    Ensures WireError.Decoding (StrictDocument lib limits data) (decodeJson lib limits data) := by
  refine .require_bind trivial fun bytes => ?_
  cases loaded : lib.loads data with
  | none => exact .error trivial
  | some j =>
    rw [Option.bind_some]
    cases passed : strict j with
    | none => exact .error trivial
    | some j' =>
      obtain ⟨rfl, plain⟩ := strict_some.mp passed
      rw [reads.agrees loaded plain]
      cases j' with
      | object members =>
        have checked : Ensures WireError.Decoding
            (fun _ => All (fun depth j => Within limits.maxNestingDepth limits.maxCollectionItems
              depth j ∧ FiniteNode j) 0 (.object members))
            (checkLimits limits 0 (.object members)) :=
          (checkLimits_raises _ 0).returns fun _ h => checkLimits_ok.mp h
        apply checked.bind
        intro _ within
        exact .ok ⟨loaded, plain, bytes, within.imp fun h => h.1⟩
      | _ => exact .error trivial

/-- The document of a request. -/
structure RequestDocument (lib : Libraries) (limits : MessageLimits) (data : Bytes)
    (envelope : RpcRequestEnvelope) (value : List (String × Json)) : Prop where
  strict : StrictDocument lib limits data value
  fields : HasFields value requestFields
  kind : value.lookup "kind" = some (.str "rpc_request")
  messageId : value.lookup "message_id" = some (.str (uuidText envelope.messageId))
  service : ServiceMembers value envelope.target.service
  method : AliasText envelope.target.method (value.lookup "method")
  schemaVersion : VersionNumber envelope.target.schemaVersion (value.lookup "schema_version")
  createdAt : ∃ item, value.lookup "created_at" = some item ∧ UtcText envelope.createdAt item
  deadlineAt : ∃ item, value.lookup "deadline_at" = some item ∧ UtcText envelope.deadlineAt item
  correlationId : value.lookup "correlation_id" = some (.str (uuidText envelope.correlationId))
  causationId : value.lookup "causation_id" = some (optionalUuid envelope.causationId)
  replyTo : value.lookup "reply_to" = some (.str envelope.replyTo.value)
  headers : ∃ item, value.lookup "headers" = some item ∧
    HeadersMember lib limits envelope.headers item
  payload : ∃ item, value.lookup "payload" = some item ∧ envelope.payload = .ofJson .list item

lemma requireUtc_ensures {moment} (h : moment.utcoffset = some 0) (field : String) :
    Ensures WireError.Wire (fun time => time = moment.time) (requireUtc moment field) := by
  rw [requireUtc, h]
  exact .ok rfl

lemma requireFutureDeadline_ensures {createdAt deadlineAt} (created : createdAt.utcoffset = some 0)
    (deadline : deadlineAt.utcoffset = some 0) :
    Ensures WireError.Wire
      (fun times => times.1.1 = createdAt.time ∧ times.1.2 = deadlineAt.time)
      (requireFutureDeadline createdAt deadlineAt) := by
  apply (requireUtc_ensures created _).bind
  rintro _ rfl
  apply (requireUtc_ensures deadline _).bind
  rintro _ rfl
  split
  · exact .ok ⟨rfl, rfl⟩
  · exact .error trivial

lemma ensures_asDeadlineError (h : Ensures WireError.Wire Q x) :
    Ensures WireError.Wire Q (asDeadlineError x) := by
  cases h with
  | ok h => exact .ok h
  | @error e h =>
    cases e with
    | builtin => exact h.elim
    | _ => exact .error trivial

lemma decodeRequest_ensures (reads : lib.Reads) (data : Bytes) :
    Ensures WireError.Decoding (fun envelope => ∃ value, RequestDocument lib limits data envelope value)
      (decodeRequest lib limits data) := by
  apply (decodeJson_ensures reads data).bind
  intro value strict
  apply (requireFields_ensures value requestFields _).bind
  intro _ fields
  have present : ∀ name ∈ requestFields, name ∈ value.map Prod.fst := fun name => (fields name).mpr
  apply (getField_ensures (present "causation_id" (by decide))).bind
  intro causationItem causationMember
  apply (optionalUuidField_ensures _ _).bind
  rintro causationId rfl
  apply ensures_translated
  apply (getField_ensures (present "kind" (by decide))).bind
  intro kindItem kind
  refine .require_bind trivial ?_
  rintro rfl
  refine member_ensures (present "message_id" (by decide)) (uuidField_ensures · _) ?_
  rintro _ messageId messageMember rfl
  apply (serviceField_ensures fun name mem => present name (by revert name; decide)).bind
  intro service serviceMembers
  refine member_ensures (present "method" (by decide)) (stringField_ensures · _) ?_
  rintro _ method methodMember rfl
  refine member_ensures (present "schema_version" (by decide)) (positiveIntField_ensures · _) ?_
  rintro _ schemaVersion versionMember ⟨rfl, _⟩
  refine member_ensures (present "created_at" (by decide)) (timestampField_ensures · _) ?_
  rintro _ createdAt createdMember ⟨createdText, created⟩
  refine member_ensures (present "deadline_at" (by decide)) (timestampField_ensures · _) ?_
  rintro _ deadlineAt deadlineMember ⟨deadlineText, deadline⟩
  refine member_ensures (present "correlation_id" (by decide)) (uuidField_ensures · _) ?_
  rintro _ correlationId correlationMember rfl
  refine member_ensures (present "reply_to" (by decide)) (stringField_ensures · _) ?_
  rintro _ reply replyMember rfl
  apply (ReplyRoute.make_ensures reply).bind
  rintro replyTo rfl
  apply (getField_ensures (present "headers" (by decide))).bind
  intro headersItem headersMember
  apply (headersField_ensures reads (plain_lookup strict.plain headersMember)).bind
  rintro headers ⟨rfl, within⟩
  apply (getField_ensures (present "payload" (by decide))).bind
  intro payload payloadMember
  -- What remains is the constructor, which validates what was read once more.
  apply (RpcTarget.make_ensures service method schemaVersion).bind
  rintro target ⟨rfl, rfl, rfl⟩
  apply (ensures_asDeadlineError (requireFutureDeadline_ensures created deadline)).bind
  rintro ⟨⟨_, _⟩, _⟩ ⟨rfl, rfl⟩
  apply (freezeHeaders_ensures reads (by decide) (plain_lookup strict.plain headersMember) _).bind
  rintro frozen ⟨rfl, -⟩
  exact .ok ⟨value, strict, fields, kind, messageMember, serviceMembers,
    ⟨methodMember, target.method_alias⟩, ⟨versionMember, target.version_pos⟩,
    ⟨_, createdMember, createdText⟩, ⟨_, deadlineMember, deadlineText⟩, correlationMember,
    causationMember, replyMember, ⟨_, headersMember, rfl, within⟩, ⟨_, payloadMember, rfl⟩⟩

/-- The document of an error. -/
structure ErrorDocument (lib : Libraries) (limits : MessageLimits) (data : RemoteRpcErrorData)
    (value : List (String × Json)) : Prop where
  fields : HasFields value ["code", "message", "retryable", "details"]
  code : value.lookup "code" = some (.str data.code)
  message : value.lookup "message" = some (.str data.message)
  retryable : value.lookup "retryable" = some (.bool data.retryable)
  details : ∃ item, value.lookup "details" = some item ∧
    HeadersMember lib limits data.details item

lemma remoteErrorField_ensures (reads : lib.Reads) {value} (plain : Plain value) :
    Ensures WireError.Wire
      (fun data => ∃ members, value = .object members ∧ ErrorDocument lib limits data members)
      (remoteErrorField lib limits value) := by
  cases value with
  | object members =>
    apply (ensures_wire (requireFields_ensures members _ _)).bind
    intro _ fields
    have present := fun name => (fields name).mpr
    apply (getField_ensures (present "details" (by decide))).bind
    intro detailsItem detailsMember
    have plainDetails := plain_lookup plain detailsMember
    cases detailsItem with
    | object =>
      dsimp only
      apply (headersField_ensures reads plainDetails).bind
      rintro details ⟨same, within⟩
      cases same
      apply (getField_ensures (present "retryable" (by decide))).bind
      intro retryableItem retryableMember
      cases retryableItem with
      | bool =>
        apply ensures_wire (ensures_translated _)
        refine member_ensures (present "code" (by decide)) (stringField_ensures · _) ?_
        rintro _ code codeMember rfl
        refine member_ensures (present "message" (by decide)) (stringField_ensures · _) ?_
        rintro _ message messageMember rfl
        unfold RemoteRpcErrorData.make
        split
        · split
          · split
            · apply (freezeHeaders_ensures reads (by decide) plainDetails _).bind
              rintro frozen ⟨rfl, -⟩
              exact .ok ⟨members, rfl, fields, codeMember, messageMember, retryableMember,
                ⟨_, detailsMember, rfl, within⟩⟩
            · exact .error trivial
          · exact .error trivial
        · exact .error trivial
      | _ => exact .error trivial
    | _ => exact .error trivial
  | _ => exact .error trivial

/-- The member of a response that holds its outcome. -/
def OutcomeMember (lib : Libraries) (limits : MessageLimits) (value : List (String × Json)) :
    RpcOutcome → Prop
  | .result result => HasFields value (responseBaseFields ++ ["result"]) ∧
      ∃ item, value.lookup "result" = some item ∧ result = .ofJson .list item
  | .error data => HasFields value (responseBaseFields ++ ["error"]) ∧
      ∃ members, value.lookup "error" = some (.object members) ∧
        ErrorDocument lib limits data members

/-- The document of a response. -/
structure ResponseDocument (lib : Libraries) (limits : MessageLimits) (data : Bytes)
    (envelope : RpcResponseEnvelope) (value : List (String × Json)) : Prop where
  strict : StrictDocument lib limits data value
  kind : value.lookup "kind" = some (.str "rpc_response")
  messageId : value.lookup "message_id" = some (.str (uuidText envelope.messageId))
  correlationId : value.lookup "correlation_id" = some (.str (uuidText envelope.correlationId))
  completedAt : ∃ item, value.lookup "completed_at" = some item ∧ UtcText envelope.completedAt item
  outcome : OutcomeMember lib limits value envelope.outcome

lemma lookup_isSome : (value.lookup name).isSome = true ↔ name ∈ value.map Prod.fst := by
  induction value with
  | nil => simp
  | cons m value ih =>
    rw [lookup_cons, map_cons, mem_cons]
    split
    · rename_i same
      simp [eq_of_beq same]
    · rename_i other
      rw [ih]
      simp only [beq_eq_false_iff_ne, ne_eq] at other
      simp [other]

lemma hasFields_response (present absent : String)
    (required : ∀ name ∈ responseBaseFields, name ∈ value.map Prod.fst)
    (known : ∀ name ∈ value.map Prod.fst, name ∈ responseBaseFields ++ ["result", "error"])
    (hpresent : present ∈ value.map Prod.fst) (habsent : absent ∉ value.map Prod.fst)
    (both : ∀ name, name = "result" ∨ name = "error" → name = present ∨ name = absent) :
    HasFields value (responseBaseFields ++ [present]) := by
  intro name
  rw [mem_append, mem_singleton]
  constructor
  · intro mem
    obtain base | other := mem_append.mp (known name mem)
    · exact .inl base
    · rcases both name (by simpa using other) with rfl | rfl
      · exact .inr rfl
      · exact absurd mem habsent
  · rintro (base | rfl)
    · exact required name base
    · exact hpresent

lemma decodeResponse_ensures (reads : lib.Reads) (data : Bytes) :
    Ensures WireError.Decoding
      (fun envelope => ∃ value, ResponseDocument lib limits data envelope value)
      (decodeResponse lib limits data) := by
  apply (decodeJson_ensures reads data).bind
  intro value strict
  refine .require_bind trivial fun required => ?_
  refine .require_bind trivial fun known => ?_
  apply (getField_ensures (required "kind" (by decide))).bind
  intro item kind
  refine .require_bind trivial ?_
  rintro rfl
  refine .require_bind trivial fun one => ?_
  apply ensures_translated
  refine member_ensures (required "message_id" (by decide)) (uuidField_ensures · _) ?_
  rintro _ messageId messageMember rfl
  refine member_ensures (required "correlation_id" (by decide)) (uuidField_ensures · _) ?_
  rintro _ correlationId correlationMember rfl
  refine member_ensures (required "completed_at" (by decide)) (timestampField_ensures · _) ?_
  rintro _ completedAt completedMember ⟨completedText, completed⟩
  -- Exactly one of the two members is there; it is the outcome.
  cases hresult : value.lookup "result" with
  | some result =>
    have noError : value.lookup "error" = none := by
      rw [← Option.not_isSome_iff_eq_none]
      rw [hresult] at one
      exact fun h => one h.symm
    rw [noError]
    apply (requireUtc_ensures completed _).bind
    rintro _ rfl
    refine .ok ⟨value, strict, kind, messageMember, correlationMember,
      ⟨_, completedMember, completedText⟩, ?_, result, hresult, rfl⟩
    apply hasFields_response "result" "error" required known
    · exact lookup_isSome.mp (by rw [hresult]; rfl)
    · rw [← lookup_isSome, noError]
      exact nofun
    · exact fun _ => id
  | none =>
    obtain ⟨error, herror⟩ : ∃ error, value.lookup "error" = some error := by
      rw [← Option.isSome_iff_exists]
      rw [hresult] at one
      exact Bool.eq_true_of_not_eq_false fun h => one h.symm
    rw [herror]
    apply Ensures.bind ((remoteErrorField_ensures reads (plain_lookup strict.plain herror)).map
      (R := fun made => ∃ data members, made = some data ∧ error = .object members ∧
        ErrorDocument lib limits data members)
      fun data ⟨members, same, document⟩ => ⟨data, members, rfl, same, document⟩)
    rintro _ ⟨_, members, rfl, rfl, document⟩
    apply (requireUtc_ensures completed _).bind
    rintro _ rfl
    refine .ok ⟨value, strict, kind, messageMember, correlationMember,
      ⟨_, completedMember, completedText⟩, ?_, members, herror, document⟩
    apply hasFields_response "error" "result" required known
    · exact lookup_isSome.mp (by rw [herror]; rfl)
    · rw [← lookup_isSome, hresult]
      exact nofun
    · exact fun _ => Or.symm

/-- The document of an event. -/
structure EventDocument (lib : Libraries) (limits : MessageLimits) (data : Bytes)
    (envelope : EventEnvelope) (value : List (String × Json)) : Prop where
  strict : StrictDocument lib limits data value
  fields : HasFields value eventFields
  kind : value.lookup "kind" = some (.str "event")
  messageId : value.lookup "message_id" = some (.str (uuidText envelope.messageId))
  source : ServiceMembers value envelope.identity.source
  event : AliasText envelope.identity.event (value.lookup "event")
  schemaVersion : VersionNumber envelope.identity.schemaVersion (value.lookup "schema_version")
  occurredAt : ∃ item, value.lookup "occurred_at" = some item ∧ UtcText envelope.occurredAt item
  correlationId : value.lookup "correlation_id" = some (optionalUuid envelope.correlationId)
  causationId : value.lookup "causation_id" = some (optionalUuid envelope.causationId)
  headers : ∃ item, value.lookup "headers" = some item ∧
    HeadersMember lib limits envelope.headers item
  payload : ∃ item, value.lookup "payload" = some item ∧ envelope.payload = .ofJson .list item

lemma decodeEvent_ensures (reads : lib.Reads) (data : Bytes) :
    Ensures WireError.Decoding (fun envelope => ∃ value, EventDocument lib limits data envelope value)
      (decodeEvent lib limits data) := by
  apply (decodeJson_ensures reads data).bind
  intro value strict
  apply (requireFields_ensures value eventFields _).bind
  intro _ fields
  have present : ∀ name ∈ eventFields, name ∈ value.map Prod.fst := fun name => (fields name).mpr
  apply (getField_ensures (present "correlation_id" (by decide))).bind
  intro correlationItem correlationMember
  apply (getField_ensures (present "causation_id" (by decide))).bind
  intro causationItem causationMember
  apply (optionalUuidField_ensures _ _).bind
  rintro correlationId rfl
  apply (optionalUuidField_ensures _ _).bind
  rintro causationId rfl
  apply (getField_ensures (present "kind" (by decide))).bind
  intro item kind
  refine .require_bind trivial ?_
  rintro rfl
  apply ensures_translated
  refine member_ensures (present "message_id" (by decide)) (uuidField_ensures · _) ?_
  rintro _ messageId messageMember rfl
  apply (serviceField_ensures fun name mem => present name (by revert name; decide)).bind
  intro source sourceMembers
  refine member_ensures (present "event" (by decide)) (stringField_ensures · _) ?_
  rintro _ event eventMember rfl
  refine member_ensures (present "schema_version" (by decide)) (positiveIntField_ensures · _) ?_
  rintro _ schemaVersion versionMember ⟨rfl, _⟩
  refine member_ensures (present "occurred_at" (by decide)) (timestampField_ensures · _) ?_
  rintro _ occurredAt occurredMember ⟨occurredText, occurred⟩
  apply (getField_ensures (present "headers" (by decide))).bind
  intro headersItem headersMember
  apply (headersField_ensures reads (plain_lookup strict.plain headersMember)).bind
  rintro headers ⟨rfl, within⟩
  apply (getField_ensures (present "payload" (by decide))).bind
  intro payload payloadMember
  apply (EventIdentity.make_ensures source event schemaVersion).bind
  rintro identity ⟨rfl, rfl, rfl⟩
  apply (requireUtc_ensures occurred _).bind
  rintro _ rfl
  apply (freezeHeaders_ensures reads (by decide) (plain_lookup strict.plain headersMember) _).bind
  rintro frozen ⟨rfl, -⟩
  exact .ok ⟨value, strict, fields, kind, messageMember, sourceMembers,
    ⟨eventMember, identity.event_alias⟩, ⟨versionMember, identity.version_pos⟩,
    ⟨_, occurredMember, occurredText⟩, correlationMember, causationMember,
    ⟨_, headersMember, rfl, within⟩, ⟨_, payloadMember, rfl⟩⟩

/-- Whatever the bytes, a decoder returns what a strict document describes, or raises
`WireDecodingError` or `WireSizeLimitError`. -/
theorem decode_strict (reads : lib.Reads) (limits : MessageLimits) (data : Bytes) :
    Ensures WireError.Decoding (fun envelope => ∃ value, RequestDocument lib limits data envelope value)
        (decodeRequest lib limits data) ∧
      Ensures WireError.Decoding
        (fun envelope => ∃ value, ResponseDocument lib limits data envelope value)
        (decodeResponse lib limits data) ∧
      Ensures WireError.Decoding (fun envelope => ∃ value, EventDocument lib limits data envelope value)
        (decodeEvent lib limits data) :=
  ⟨decodeRequest_ensures reads data, decodeResponse_ensures reads data,
    decodeEvent_ensures reads data⟩

end

/-- Libraries that read the bytes of a request, and write its parts. -/
def readingLibraries : Libraries :=
  { Envelope.requestLibraries with
    encode := fun j => some ((Envelope.requestLibraries.encode j).getD []) }

theorem decode_strict_sampleRequest : ∃ envelope value,
    decodeRequest readingLibraries {} Envelope.requestBytes = .ok envelope ∧
      RequestDocument readingLibraries {} Envelope.requestBytes envelope value := by
  have reads : readingLibraries.Reads := ⟨fun h _ => h, fun _ => rfl⟩
  have accepted : (decodeRequest readingLibraries {} Envelope.requestBytes).map (fun _ => ()) =
      .ok () := by
    decide +kernel
  obtain ⟨envelope, decoded, -⟩ := map_ok.mp accepted
  have request := (decode_strict reads {} Envelope.requestBytes).1
  rw [decoded] at request
  cases request with
  | ok document =>
    obtain ⟨value, document⟩ := document
    exact ⟨envelope, value, decoded, document⟩

end ToriPy.Microservices
