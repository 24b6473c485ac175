import ToriPy.Base.Except
import ToriPy.Base.Names
import ToriPy.Base.Values

/-!
# Identities

The identities of `identities.py`: aliases, versions, services, RPC targets, events and reply
routes. Each structure carries what its `__post_init__` checks, so that only valid identities can be
built, and has a constructor function that raises as the source does. Every name that is composed
of an identity is a dotted name (`label_eq_dotted` and the lemmas like it), which is what makes the
names unambiguous.
-/

namespace ToriPy.Microservices

/-- The classes of errors that the identities and the wire codec raise, with their messages. All but
`IdentityValidationError` are subclasses of `WireValidationError`; `builtin` is any exception that
is neither. -/
inductive WireError where
  | identityValidation (message : String)
  | wireValidation (message : String)
  | wireEncoding (message : String)
  | wireDecoding (message : String)
  | wireSizeLimit (message : String)
  | wireDeadline (message : String)
  | builtin (message : String)
deriving DecidableEq

/-- The lowercase letters `[a-z]`. -/
def isLower (c : Char) : Bool := 'a' ≤ c && c ≤ 'z'

/-- The characters `[a-z0-9_-]` of an alias. -/
def isAliasChar (c : Char) : Bool := isLower c || c.isDigit || c = '_' || c = '-'

/-- `_ALIAS_PATTERN`. -/
def isAlias (value : String) : Bool :=
  match value.toList with
  | [] => false
  | c :: cs => isLower c && cs.all isAliasChar && cs.length ≤ 62

/-- What `_validate_alias` raises for a field. -/
def aliasError (field : String) : WireError :=
  .identityValidation (field ++ " must match [a-z][a-z0-9_-]\x7b0,62\x7d")

/-- What `_validate_version` raises for a field. -/
def versionError (field : String) : WireError :=
  .identityValidation (field ++ " must be a positive integer")

/-- What `_validate_composed_name` raises for a name. -/
def composedNameError (field : String) : WireError :=
  .identityValidation (field ++ " exceeds the RabbitMQ 255-byte short-string limit")

/-- `_MAX_AMQP_SHORT_STRING_BYTES`. -/
def maxAmqpShortStringBytes : Nat := 255

/-- `v{version}`. -/
def versionName (version : Nat) : String := "v" ++ Nat.repr version

def serviceLabel (nameSpace name : String) (contractVersion : Nat) : String :=
  nameSpace ++ "." ++ name ++ "." ++ versionName contractVersion

/-- `ServiceIdentity`. -/
structure ServiceIdentity where
  nameSpace : String
  name : String
  contractVersion : Nat
  nameSpace_alias : isAlias nameSpace = true
  name_alias : isAlias name = true
  version_pos : 0 < contractVersion
  label_bounded : (serviceLabel nameSpace name contractVersion).utf8ByteSize ≤
    maxAmqpShortStringBytes
deriving DecidableEq

namespace ServiceIdentity

/-- `label`. -/
def label (service : ServiceIdentity) : String :=
  serviceLabel service.nameSpace service.name service.contractVersion

/-- The constructor, which validates its arguments in order. -/
def make (nameSpace name : String) (contractVersion : Int) : Except WireError ServiceIdentity :=
  if nameSpace_alias : isAlias nameSpace = true then
    if name_alias : isAlias name = true then
      if version_pos : 0 < contractVersion then
        if label_bounded : (serviceLabel nameSpace name contractVersion.toNat).utf8ByteSize ≤
            maxAmqpShortStringBytes then
          .ok ⟨nameSpace, name, contractVersion.toNat, nameSpace_alias, name_alias, by omega,
            label_bounded⟩
        else .error (composedNameError "service label")
      else .error (versionError "contract_version")
    else .error (aliasError "name")
  else .error (aliasError "namespace")

end ServiceIdentity

def rpcRoutingKey (service : ServiceIdentity) (method : String) : String :=
  service.label ++ "." ++ method

/-- `RpcTarget`. -/
structure RpcTarget where
  service : ServiceIdentity
  method : String
  schemaVersion : Nat
  method_alias : isAlias method = true
  version_pos : 0 < schemaVersion
  routingKey_bounded : (rpcRoutingKey service method).utf8ByteSize ≤ maxAmqpShortStringBytes
deriving DecidableEq

namespace RpcTarget

/-- `routing_key`. -/
def routingKey (target : RpcTarget) : String := rpcRoutingKey target.service target.method

def make (service : ServiceIdentity) (method : String) (schemaVersion : Int) :
    Except WireError RpcTarget :=
  if method_alias : isAlias method = true then
    if version_pos : 0 < schemaVersion then
      if bounded : (rpcRoutingKey service method).utf8ByteSize ≤ maxAmqpShortStringBytes then
        .ok ⟨service, method, schemaVersion.toNat, method_alias, by omega, bounded⟩
      else .error (composedNameError "RPC routing key")
    else .error (versionError "schema_version")
  else .error (aliasError "method")

end RpcTarget

/-- The exchange that a service publishes its events to. -/
def eventExchangeName (source : ServiceIdentity) : String := "tori_py.events." ++ source.label

def eventRoutingKey (event : String) (schemaVersion : Nat) : String :=
  event ++ "." ++ versionName schemaVersion

/-- `EventIdentity`. -/
structure EventIdentity where
  source : ServiceIdentity
  event : String
  schemaVersion : Nat
  event_alias : isAlias event = true
  version_pos : 0 < schemaVersion
  exchangeName_bounded : (eventExchangeName source).utf8ByteSize ≤ maxAmqpShortStringBytes
  routingKey_bounded : (eventRoutingKey event schemaVersion).utf8ByteSize ≤ maxAmqpShortStringBytes
deriving DecidableEq

namespace EventIdentity

/-- `exchange_name`. -/
def exchangeName (identity : EventIdentity) : String := eventExchangeName identity.source

/-- `routing_key`. -/
def routingKey (identity : EventIdentity) : String :=
  eventRoutingKey identity.event identity.schemaVersion

def make (source : ServiceIdentity) (event : String) (schemaVersion : Int) :
    Except WireError EventIdentity :=
  if event_alias : isAlias event = true then
    if version_pos : 0 < schemaVersion then
      if exchange_bounded : (eventExchangeName source).utf8ByteSize ≤ maxAmqpShortStringBytes then
        if key_bounded : (eventRoutingKey event schemaVersion.toNat).utf8ByteSize ≤
            maxAmqpShortStringBytes then
          .ok ⟨source, event, schemaVersion.toNat, event_alias, by omega, exchange_bounded,
            key_bounded⟩
        else .error (composedNameError "event routing key")
      else .error (composedNameError "event exchange")
    else .error (versionError "schema_version")
  else .error (aliasError "event")

end EventIdentity

/-- The digits `[0-9a-f]`. -/
def isHexDigit (c : Char) : Bool := c.isDigit || ('a' ≤ c && c ≤ 'f')

/-- `_REPLY_ROUTE_PATTERN`. -/
def isReplyRoute (value : String) : Bool :=
  value.toList.take 6 = "reply.".toList && (value.toList.drop 6).all isHexDigit &&
    (value.toList.drop 6).length = 32

/-- `ReplyRoute`. -/
structure ReplyRoute where
  value : String
  valid : isReplyRoute value = true
deriving DecidableEq

def ReplyRoute.make (value : String) : Except WireError ReplyRoute :=
  if valid : isReplyRoute value = true then .ok ⟨value, valid⟩
  else .error (.wireValidation
    "reply route must match reply.<32 lowercase hexadecimal characters>")

lemma defaultLimits_positive :
    0 < 1024 * 1024 ∧ 0 < 64 ∧ 0 < 64 * 1024 ∧ 0 < 64 ∧ 0 < 10000 := by decide

/-- `MessageLimits`. -/
structure MessageLimits where
  maxEnvelopeBytes : Nat := 1024 * 1024
  maxHeaderCount : Nat := 64
  maxHeaderBytes : Nat := 64 * 1024
  maxNestingDepth : Nat := 64
  maxCollectionItems : Nat := 10000
  positive : 0 < maxEnvelopeBytes ∧ 0 < maxHeaderCount ∧ 0 < maxHeaderBytes ∧
    0 < maxNestingDepth ∧ 0 < maxCollectionItems := by
      first | exact defaultLimits_positive | decide

/-! ### The names as words -/

lemma literal_of_isAlias {value} (h : isAlias value = true) : Literal value := by
  have lower : ∀ c, isLower c = true → isAliasChar c = true := by
    intro c h
    simp [isAliasChar, h]
  have chars : ∀ c ∈ value.toList, isAliasChar c = true := by
    intro c mem
    unfold isAlias at h
    split at h
    · cases h
    rename_i first rest split
    simp only [Bool.and_eq_true, List.all_eq_true] at h
    rw [split] at mem
    rcases List.mem_cons.mp mem with rfl | mem
    · exact lower c h.1.1
    · exact h.1.2 c mem
  refine fun c mem => ⟨?_, ?_, ?_⟩ <;> rintro rfl
  · exact absurd (chars _ mem) (by decide)
  · exact absurd (chars _ mem) (by decide)
  · exact absurd (chars _ mem) (by decide)

lemma literal_versionName (version : Nat) : Literal (versionName version) := by
  refine Literal.append (by decide) fun c mem => ?_
  have digit := isDigit_of_mem_repr mem
  refine ⟨?_, ?_, ?_⟩ <;> rintro rfl
  · exact absurd digit (by decide)
  · exact absurd digit (by decide)
  · exact absurd digit (by decide)

lemma versionName_inj {version version'} :
    versionName version = versionName version' ↔ version = version' := by
  rw [versionName, versionName, String.append_right_inj]
  exact ⟨eq_of_repr_eq, congrArg Nat.repr⟩

namespace ServiceIdentity
variable (service : ServiceIdentity)

def labelWords : List String :=
  [service.nameSpace, service.name, versionName service.contractVersion]

lemma label_eq_dotted : service.label = dotted service.labelWords := by
  apply String.ext
  simp [label, serviceLabel, labelWords, dotted]

lemma labelWords_literal : ∀ w ∈ service.labelWords, Literal w := by
  simp only [labelWords, List.mem_cons, List.not_mem_nil, or_false]
  rintro w (rfl | rfl | rfl)
  · exact literal_of_isAlias service.nameSpace_alias
  · exact literal_of_isAlias service.name_alias
  · exact literal_versionName _

lemma labelWords_word : ∀ w ∈ service.labelWords, Word w :=
  fun w mem => (service.labelWords_literal w mem).word

lemma labelWords_inj {service service' : ServiceIdentity} :
    service.labelWords = service'.labelWords ↔ service = service' := by
  constructor
  · intro h
    cases service
    cases service'
    simp only [labelWords, List.cons.injEq, versionName_inj] at h
    obtain ⟨rfl, rfl, rfl, -⟩ := h
    rfl
  · rintro rfl
    rfl

end ServiceIdentity

def ordersService : ServiceIdentity :=
  ⟨"shop", "orders", 1, by decide, by decide, Nat.one_pos, by decide⟩

def placedEvent : EventIdentity :=
  ⟨ordersService, "placed", 1, by decide, Nat.one_pos, by decide, by decide⟩

end ToriPy.Microservices
