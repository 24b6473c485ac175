import ToriPy.Microservices.Wire

/-!
# Transport contracts

The values that the brokers and their users exchange (`transport.py`): publications, encoded
deliveries and event subscriptions. An `EventSubscription` carries what its constructor validates,
so that the asserts behind it cannot fail.
-/

namespace ToriPy.Microservices

/-- What the transports raise: the errors of the package, `ValueError` and `KeyError`. -/
inductive TransportError where
  | state (message : String)
  | capacity (message : String)
  | unroutable (message : String)
  | duplicateSettlement (message : String)
  | value (message : String)
  | key (name : String)
deriving DecidableEq

/-- `TransportStatus`. -/
inductive TransportStatus where
  | created
  | prepared
  | running
  | quiescing
  | closed
deriving DecidableEq

def TransportStatus.text : TransportStatus → String
  | .created => "created"
  | .prepared => "prepared"
  | .running => "running"
  | .quiescing => "quiescing"
  | .closed => "closed"

/-- `SettlementRecommendation`. -/
inductive SettlementRecommendation where
  | ack
  | reject
  | retry
  | unsettled
deriving DecidableEq

/-- The mode of a subscription. -/
inductive DispatchMode where
  | servicePool
  | singleton
  | broadcast
deriving DecidableEq

def DispatchMode.text : DispatchMode → String
  | .servicePool => "service_pool"
  | .singleton => "singleton"
  | .broadcast => "broadcast"

/-- `EventSubscription`. -/
structure EventSubscription where
  identity : EventIdentity
  mode : DispatchMode
  subscription : String
  destination : Option ServiceIdentity
  instanceId : Option String
  reliable : Bool
  subscription_alias : isAlias subscription = true
  instanceId_alias : ∀ name ∈ instanceId, isAlias name = true
  reliable_of_mode : mode ≠ .broadcast → reliable = true
  destination_of_mode : mode ≠ .singleton → destination.isSome = true
  instanceId_of_mode : mode = .broadcast → instanceId.isSome = true

instance : DecidableEq EventSubscription := fun a b =>
  decidable_of_iff (a.identity = b.identity ∧ a.mode = b.mode ∧ a.subscription = b.subscription ∧
    a.destination = b.destination ∧ a.instanceId = b.instanceId ∧ a.reliable = b.reliable) (by
    cases a
    cases b
    simp)

/-- `instance-{uuid4().hex}`. -/
def generatedInstanceId (id : UUID) : String := .ofList ("instance-".toList ++ uuidHex id)

lemma isAlias_instance {hex} (chars : ∀ c ∈ hex, isAliasChar c = true)
    (length : hex.length = 32) : isAlias (.ofList ("instance-".toList ++ hex)) = true := by
  have text : "instance-".toList ++ hex =
      'i' :: (['n', 's', 't', 'a', 'n', 'c', 'e', '-'] ++ hex) := rfl
  rw [isAlias, String.toList_ofList, text]
  dsimp only
  rw [List.all_append, List.length_append, length, List.all_eq_true.mpr chars]
  decide

lemma isAlias_generatedInstanceId (id : UUID) :
    ∀ name ∈ some (generatedInstanceId id), isAlias name = true := by
  intro name same
  rw [Option.mem_some_iff] at same
  subst same
  unfold generatedInstanceId uuidHex
  apply isAlias_instance
  · intro c mem
    obtain ⟨d, hd, rfl⟩ := mem_fixedDigits (by decide) mem
    have all : ∀ d < 16, isAliasChar (Nat.digitChar d) = true := by decide
    exact all d hd
  · exact length_fixedDigits 16 32 id.toNat

/-- The constructor. A reliability of `none` is unset; `fresh` is what `uuid4` returns. -/
def EventSubscription.make (identity : EventIdentity) (mode : DispatchMode) (subscription : String)
    (destination : Option ServiceIdentity) (instanceId : Option String) (reliable : Option Bool)
    (fresh : UUID) : Except WireError EventSubscription :=
  let reliable := reliable.getD (mode ≠ .broadcast)
  if subscription_alias : isAlias subscription = true then
    if instanceId_alias : ∀ name ∈ instanceId, isAlias name = true then
      if reliable_of_mode : mode ≠ .broadcast → reliable = true then
        if mode = .broadcast ∧ reliable = true ∧ instanceId = none then
          .error (.builtin "reliable broadcast subscriptions require an instance_id")
        else if destination_of_mode : mode ≠ .singleton → destination.isSome = true then
          if h : mode = .broadcast ∧ instanceId = none then
            .ok ⟨identity, mode, subscription, destination, some (generatedInstanceId fresh),
              reliable, subscription_alias, isAlias_generatedInstanceId fresh, reliable_of_mode,
              destination_of_mode, fun _ => rfl⟩
          else .ok ⟨identity, mode, subscription, destination, instanceId, reliable,
            subscription_alias, instanceId_alias, reliable_of_mode, destination_of_mode,
            fun broadcast => Option.isSome_iff_ne_none.mpr fun none => h ⟨broadcast, none⟩⟩
        else .error (.builtin (mode.text ++ " subscriptions require a destination"))
      else .error (.builtin (mode.text ++ " subscriptions must be reliable"))
    else .error (aliasError "instance_id")
  else .error (aliasError "subscription")

/-- The `native` object of a publication: the pair that an event is published with, or another
object. -/
inductive Native where
  | route (exchange routingKey : String)
  | other
deriving DecidableEq

/-- `Publication`. -/
structure Publication where
  messageId : UUID
  routingKey : String
  body : Bytes
  headers : Headers := []
  mandatory : Bool := false
  correlationId : Option UUID := none
  replyTo : Option ReplyRoute := none
  native : Option Native := none
  expiresAt : Option Instant := none
  routingKey_ne : routingKey ≠ "" := by decide

/-- `EncodedDelivery`. -/
structure EncodedDelivery where
  messageId : UUID
  routingKey : String
  body : Bytes
  headers : Headers
  receivedAt : Instant
  attempt : Nat := 1
  redelivered : Bool := false
  correlationId : Option UUID := none
  replyTo : Option ReplyRoute := none
  native : Option Native := none
  expiresAt : Option Instant := none
  subscription : Option EventSubscription := none

/-- `PublicationReceipt`. -/
structure PublicationReceipt where
  messageId : UUID
  acceptedAt : Instant
  routed : Bool

end ToriPy.Microservices
