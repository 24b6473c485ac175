import ToriPy.Microservices.Routing

/-!
# Retries in RabbitMQ

What becomes of a message that is taken from a reliable queue and not acknowledged. `settle` publishes
a copy to the retry exchange of the queue, with the routing key of the message; the copy expires in
the retry queue, and the broker publishes it to the exchange that the retry queue names for its dead
letters. A rejected message goes to the exchange for dead letters under the name of its queue.

The retry queue names the exchange of the event and no routing key, so that its copies go wherever the
event goes. They come back to their queue only if it is the only one of the event
(`retry_stays_iff`); the queue of a service is the only one with its binding.
-/

namespace ToriPy.Microservices

open List
open RabbitMq

variable {subscription : EventSubscription} {service : ServiceIdentity}

namespace RabbitMq

def QueueDeclaration.text (queue : QueueDeclaration) (name : String) : Option String :=
  match queue.arguments.lookup name with
  | some (.text value) => some value
  | _ => none

/-- Where a message goes that expires in a queue or is rejected from it: to the exchange for dead
letters of the queue, with its routing key for them or with the one of the message. -/
def RabbitMqTopology.deadLettered (topology : RabbitMqTopology) (queue routingKey : String) :
    List String :=
  match topology.queues.find? (·.name = queue) with
  | none => []
  | some declaration =>
    match declaration.text "x-dead-letter-exchange" with
    | none => []
    | some exchange =>
      topology.matching exchange ((declaration.text "x-dead-letter-routing-key").getD routingKey)

/-- The dead letters of a durable queue go to the exchange for them under its name, and those of its
retry queue to its exchange. -/
structure LettersOf (exchange queueName : String) (topology : RabbitMqTopology) : Prop where
  primary : ∀ queue ∈ topology.queues, queue.name = queueName →
    queue.text "x-dead-letter-exchange" = some deadLetterExchange ∧
      queue.text "x-dead-letter-routing-key" = some queueName
  retry : ∀ queue ∈ topology.queues, queue.name = queueName ++ ".retry" →
    queue.text "x-dead-letter-exchange" = some exchange ∧
      queue.text "x-dead-letter-routing-key" = none

/-- The arguments of a queue that its caller gives. -/
def Plain (arguments : Arguments) : Prop :=
  arguments.lookup "x-dead-letter-exchange" = none ∧
    arguments.lookup "x-dead-letter-routing-key" = none

lemma append_ne_self {s t} (ne : t ≠ "") : s ++ t ≠ s := by
  intro same
  have length := congrArg String.length same
  rw [String.length_append] at length
  have positive : t.length ≠ 0 := fun zero => ne (String.length_eq_zero_iff.mp zero)
  omega

variable {topology : RabbitMqTopology} {retryDelayMs deliveryLimit : Int}

lemma durableTopology_letters {sha256 exchange queueName routingKey queueArguments}
    (plain : Plain queueArguments)
    (h : durableTopology sha256 exchange queueName routingKey queueArguments retryDelayMs
      deliveryLimit = .ok topology) : LettersOf exchange queueName topology := by
  rw [durableTopology, then_ok, then_ok, then_ok, then_ok] at h
  obtain ⟨-, -, -, -, h⟩ := h
  cases h
  have limits : Plain (if ("x-queue-type", .text "quorum") ∈ queueArguments then
      [("x-delivery-limit", .number deliveryLimit)] else []) := by
    split <;> exact ⟨rfl, rfl⟩
  have apart : queueName ++ ".dead-letter" ≠ queueName ++ ".retry" := by
    rw [Ne, String.append_right_inj]
    decide
  constructor
  · intro queue mem name
    obtain rfl | mem := mem_cons.mp mem
    · simp only [QueueDeclaration.text, lookup_append, plain.1, plain.2, Option.none_or, limits.1,
        limits.2]
      exact ⟨rfl, rfl⟩
    · obtain rfl | mem := mem_cons.mp mem
      · exact absurd name (append_ne_self (by decide))
      · cases mem_singleton.mp mem
        exact absurd name (append_ne_self (by decide))
  · intro queue mem name
    obtain rfl | mem := mem_cons.mp mem
    · exact absurd name.symm (append_ne_self (by decide))
    · obtain rfl | mem := mem_cons.mp mem
      · exact absurd name apart
      · cases mem_singleton.mp mem
        exact ⟨rfl, rfl⟩

lemma compileRpcTopology_letters {sha256 exchange}
    (h : compileRpcTopology sha256 service exchange retryDelayMs deliveryLimit = .ok topology) :
    LettersOf exchange (rpcQueue service) topology := by
  rw [compileRpcTopology, then_ok, then_ok, then_ok] at h
  exact durableTopology_letters ⟨rfl, rfl⟩ h.2.2.2

lemma compileEventTopology_letters {sha256}
    (h : compileEventTopology sha256 subscription retryDelayMs deliveryLimit = .ok topology)
    (reliable : subscription.reliable = true) :
    LettersOf subscription.identity.exchangeName (eventQueue subscription) topology := by
  rw [compileEventTopology, then_ok, then_ok, then_ok, if_pos reliable] at h
  refine durableTopology_letters ?_ h.2.2.2
  cases subscription.mode <;> exact ⟨rfl, rfl⟩

end RabbitMq

/-! ### Reliable queues -/

namespace Registration

/-- The queue of the registration is a reliable one, which has a retry exchange. -/
def reliable : Registration → Bool
  | .rpc _ => true
  | .event subscription => subscription.reliable
  | .reply _ => false

/-- A message with the routing key is in the queue of the registration. -/
def Receives (registration : Registration) (key : String) : Prop :=
  topicMatches (words registration.routingKey) (words key) = true

end Registration

section
variable {sha256 : String → String} {rpcExchange : String} {registration : Registration}
  {topology : RabbitMqTopology}

lemma Compiled.letters (h : Compiled sha256 rpcExchange registration topology)
    (reliable : registration.reliable = true) :
    LettersOf (registration.exchange rpcExchange) registration.rabbitQueue topology := by
  cases h with
  | rpc h => exact compileRpcTopology_letters h
  | event h => exact compileEventTopology_letters h reliable
  | reply => cases reliable

lemma Compiled.durable (h : Compiled sha256 rpcExchange registration topology)
    (reliable : registration.reliable = true) :
    Durable sha256 (registration.exchange rpcExchange) registration.rabbitQueue
      registration.routingKey topology := by
  cases h with
  | rpc h => exact compileRpcTopology_ok h
  | event h =>
    rw [compileEventTopology, then_ok, then_ok, then_ok,
      if_pos (show EventSubscription.reliable _ = true from reliable)] at h
    exact durableTopology_ok h.2.2.2
  | reply => cases reliable

lemma Compiled.transient (h : Compiled sha256 rpcExchange registration topology)
    (unreliable : registration.reliable = false) :
    Transient (registration.exchange rpcExchange) registration.rabbitQueue registration.routingKey
      topology := by
  cases h with
  | rpc => cases unreliable
  | event h =>
    rw [compileEventTopology, then_ok, then_ok, then_ok,
      if_neg (Bool.eq_false_iff.mp (show EventSubscription.reliable _ = false from unreliable))] at h
    obtain ⟨-, -, -, h⟩ := h
    cases h
    exact ⟨rfl, rfl⟩
  | reply h => exact compileReplyTopology_ok h

end

namespace Registration

lemma Receives.words_rpc {key}
    (receives : (rpc service).Receives key) : ∃ word, words key = service.labelWords ++ [word] := by
  change topicMatches (words (rpcBinding service)) _ = true at receives
  rwa [words_rpcBinding, topicMatches_star service.labelWords_literal] at receives

lemma Receives.words_event {key} (receives : (event subscription).Receives key) :
    words key = words subscription.identity.routingKey :=
  (matches_event.mp receives).symm

lemma Receives.words_reply {route key} (receives : (reply route).Receives key) :
    words key = (reply route).address.parts :=
  ((reply route).matches_rabbitQueue.mp receives).symm

lemma Receives.short {registration : Registration} {key}
    (receives : registration.Receives key) : (words key).length < 5 := by
  cases registration with
  | rpc =>
    obtain ⟨_, parts⟩ := receives.words_rpc
    rw [parts]
    simp [ServiceIdentity.labelWords]
  | event subscription =>
    rw [receives.words_event, subscription.identity.words_routingKey]
    exact show 2 < 5 by decide
  | reply =>
    rw [receives.words_reply]
    exact show 2 < 5 by decide

lemma Receives.eq_rpc {other key} (receives : (rpc service).Receives key)
    (others : other.Receives key) : other = rpc service := by
  obtain ⟨_, parts⟩ := receives.words_rpc
  cases other with
  | rpc =>
    obtain ⟨_, parts'⟩ := others.words_rpc
    rw [parts] at parts'
    rw [(Address.labelWords_append_inj parts').1]
  | event subscription =>
    have parts' := others.words_event
    rw [parts, subscription.identity.words_routingKey] at parts'
    exact absurd (congrArg List.length parts') (show 4 ≠ 2 by decide)
  | reply =>
    have parts' := others.words_reply
    rw [parts] at parts'
    exact absurd (congrArg List.length parts') (show 4 ≠ 2 by decide)

lemma Receives.eq_event {other key} (receives : (event subscription).Receives key)
    (others : other.Receives key) : ∃ subscription', other = event subscription' := by
  have parts := receives.words_event
  cases other with
  | rpc =>
    obtain ⟨_, parts'⟩ := others.words_rpc
    rw [parts, subscription.identity.words_routingKey] at parts'
    exact absurd (congrArg List.length parts') (show 2 ≠ 4 by decide)
  | event subscription' => exact ⟨subscription', rfl⟩
  | reply =>
    have parts' := others.words_reply
    rw [parts] at parts'
    exact absurd parts'.symm reply_ne_routingKey

/-- No other queue takes the retries of a registration: a service's exchange is not its own retry
exchange, and an event has no other queue. -/
def Isolated (sha256 : String → String) (rpcExchange : String) (registered : List Registration) :
    Registration → Prop
  | .rpc service => retryExchangeName sha256 (rpcQueue service) ≠ rpcExchange
  | .event subscription =>
    ∀ other ∈ registered, other.For subscription.identity →
      other.rabbitQueue = eventQueue subscription
  | .reply _ => False

end Registration

/-- A message that is retried, or rejected, stays with its queue: the copy goes to the retry queue, it
comes back from there, and a rejected message goes to the queue for dead letters, in each case to no
other queue. -/
structure StaysWith (sha256 : String → String) (merged : RabbitMqTopology) (queue key : String) :
    Prop where
  retried : ∀ name, name ∈ merged.matching (retryExchangeName sha256 queue) key ↔
    name = queue ++ ".retry"
  returned : ∀ name, name ∈ merged.deadLettered (queue ++ ".retry") key ↔ name = queue
  rejected : ∀ name, name ∈ merged.deadLettered queue key ↔ name = queue ++ ".dead-letter"

section
variable {sha256 : String → String} {rpcExchange key : String} {registration : Registration}
  {registered : List Registration} {topologies : List RabbitMqTopology} {merged : RabbitMqTopology}

lemma mem_matching_merged (h : mergeTopologies topologies = .ok merged) {exchange name} :
    name ∈ merged.matching exchange key ↔ name ∈ topologies.flatMap (·.matching exchange key) := by
  simp only [mem_flatMap, mem_matching, mem_bindings_mergeTopologies h]
  constructor
  · rintro ⟨binding, ⟨topology, mem, bound⟩, rest⟩
    exact ⟨topology, mem, binding, bound, rest⟩
  · rintro ⟨topology, mem, binding, bound, rest⟩
    exact ⟨binding, ⟨topology, mem, bound⟩, rest⟩

section
variable {topology : RabbitMqTopology} (h : mergeTopologies topologies = .ok merged)
include h

lemma deadLettered_eq (mem : topology ∈ topologies) {name exchange letterKey}
    (named : name ∈ topology.queues.map (·.name))
    (letters : ∀ queue ∈ topology.queues, queue.name = name →
      queue.text "x-dead-letter-exchange" = some exchange ∧
        queue.text "x-dead-letter-routing-key" = letterKey) :
    merged.deadLettered name key = merged.matching exchange (letterKey.getD key) := by
  obtain ⟨queue, declared, rfl⟩ := mem_map.mp named
  have held := (mem_queues_mergeTopologies h queue).mpr ⟨topology, mem, declared⟩
  have found : merged.queues.find? (·.name = queue.name) = some queue := by
    cases found : merged.queues.find? (·.name = queue.name) with
    | none => exact absurd rfl (of_decide_eq_false (Bool.eq_false_iff.mpr
        (find?_eq_none.mp found queue held)))
    | some other =>
      have same : other.name = queue.name := by simpa using find?_some found
      rw [keyed_queues_mergeTopologies h other (mem_of_find?_eq_some found) queue held same]
  obtain ⟨exchanges, keys⟩ := letters queue declared rfl
  simp only [RabbitMqTopology.deadLettered, found, exchanges, keys]

lemma mem_matching_bound (mem : topology ∈ topologies) {binding}
    (bound : binding ∈ topology.bindings)
    (matched : topicMatches (words binding.routingKey) (words key) = true) :
    binding.queue ∈ merged.matching binding.exchange key := by
  rw [mem_matching_merged h]
  exact mem_flatMap.mpr ⟨topology, mem, mem_matching.mpr ⟨_, bound, rfl, matched, rfl⟩⟩

end

variable (compiled : List.Forall₂ (Compiled sha256 rpcExchange) registered topologies)
  (h : mergeTopologies topologies = .ok merged)
include compiled h

lemma deadLettered_retry (mem : registration ∈ registered)
    (reliable : registration.reliable = true) :
    merged.deadLettered (registration.rabbitQueue ++ ".retry") key =
      merged.matching (registration.exchange rpcExchange) key := by
  obtain ⟨_, mem, compiled⟩ := exists_related compiled mem
  rw [deadLettered_eq h mem _ (compiled.letters reliable).retry, Option.getD_none]
  rw [(compiled.durable reliable).queues]
  simp

lemma deadLettered_primary (mem : registration ∈ registered)
    (reliable : registration.reliable = true) :
    merged.deadLettered registration.rabbitQueue key =
      merged.matching deadLetterExchange registration.rabbitQueue := by
  obtain ⟨_, mem, compiled⟩ := exists_related compiled mem
  rw [deadLettered_eq h mem _ (compiled.letters reliable).primary, Option.getD_some]
  rw [(compiled.durable reliable).queues]
  simp

lemma mem_matching_primary (mem : registration ∈ registered)
    (receives : registration.Receives key) :
    registration.rabbitQueue ∈ merged.matching (registration.exchange rpcExchange) key := by
  obtain ⟨topology, mem, compiled⟩ := exists_related compiled mem
  have bound : ⟨registration.exchange rpcExchange, registration.rabbitQueue,
      registration.routingKey, []⟩ ∈ topology.bindings := by
    rcases compiled.shape with ⟨-, durable⟩ | transient
    · rw [durable.bindings]
      exact mem_cons_self
    · rw [transient.bindings]
      exact mem_cons_self
  exact mem_matching_bound h mem bound receives

lemma mem_matching_retry (mem : registration ∈ registered)
    (reliable : registration.reliable = true) (receives : registration.Receives key) :
    registration.rabbitQueue ++ ".retry" ∈
      merged.matching (retryExchangeName sha256 registration.rabbitQueue) key := by
  obtain ⟨topology, mem, compiled⟩ := exists_related compiled mem
  have bound : ⟨retryExchangeName sha256 registration.rabbitQueue,
      registration.rabbitQueue ++ ".retry", registration.routingKey, []⟩ ∈ topology.bindings := by
    rw [(compiled.durable reliable).bindings]
    exact mem_cons_of_mem _ (mem_cons_of_mem _ mem_cons_self)
  exact mem_matching_bound h mem bound receives

lemma mem_matching_deadLetter (mem : registration ∈ registered)
    (reliable : registration.reliable = true) :
    registration.rabbitQueue ++ ".dead-letter" ∈
      merged.matching deadLetterExchange registration.rabbitQueue := by
  obtain ⟨topology, mem, compiled⟩ := exists_related compiled mem
  have bound : ⟨deadLetterExchange, registration.rabbitQueue ++ ".dead-letter",
      registration.rabbitQueue, []⟩ ∈ topology.bindings := by
    rw [(compiled.durable reliable).bindings]
    exact mem_cons_of_mem _ mem_cons_self
  exact mem_matching_bound h mem bound
    (registration.matches_rabbitQueue.mpr registration.words_rabbitQueue.symm)

lemma binding_cases {exchange name : String} (mem : name ∈ merged.matching exchange key) : ∃ other ∈ registered,
      (other.exchange rpcExchange = exchange ∧ other.Receives key ∧ name = other.rabbitQueue) ∨
      other.reliable = true ∧
        (deadLetterExchange = exchange ∧ other.address.parts = words key ∧
            name = other.rabbitQueue ++ ".dead-letter" ∨
          retryExchangeName sha256 other.rabbitQueue = exchange ∧ other.Receives key ∧
            name = other.rabbitQueue ++ ".retry") := by
  rw [mem_matching_merged h] at mem
  obtain ⟨_, held, mem⟩ := mem_flatMap.mp mem
  obtain ⟨_, bound, rfl, matched, rfl⟩ := mem_matching.mp mem
  obtain ⟨other, registered, compiled⟩ := exists_related compiled.flip held
  refine ⟨other, registered, ?_⟩
  cases reliable : other.reliable with
  | true =>
    rw [(compiled.durable reliable).bindings] at bound
    obtain rfl | bound := mem_cons.mp bound
    · exact .inl ⟨rfl, matched, rfl⟩
    · obtain rfl | bound := mem_cons.mp bound
      · exact .inr ⟨rfl, .inl ⟨rfl, other.matches_rabbitQueue.mp matched, rfl⟩⟩
      · cases mem_singleton.mp bound
        exact .inr ⟨rfl, .inr ⟨rfl, matched, rfl⟩⟩
  | false =>
    rw [(compiled.transient reliable).bindings] at bound
    cases mem_singleton.mp bound
    exact .inl ⟨rfl, matched, rfl⟩

end

section
variable {sha256 : String → String} {rpcExchange key : String} {registration other : Registration}
  {registered : List Registration}

lemma Registration.Receives.ne_parts (receives : registration.Receives key)
    (reliable : other.reliable = true) : other.address.parts ≠ words key := by
  intro same
  have lasting : ∀ route, other ≠ .reply route := by
    rintro route rfl
    cases reliable
  have long := Registration.parts_length lasting
  rw [same] at long
  exact absurd receives.short (Nat.not_lt.mpr long)

lemma Registration.address_of_parts (same : other.address.parts = registration.address.parts) :
    other.address = registration.address := by
  have suffixed : other.address.parts ++ Role.primary.suffix =
      registration.address.parts ++ Role.primary.suffix := by
    rw [same]
  exact (Address.parts_inj suffixed).1

lemma Registration.rabbitQueue_of_address (same : other.address = registration.address) :
    other.rabbitQueue = registration.rabbitQueue := by
  rw [rabbitQueue_eq, rabbitQueue_eq, same]

/-- Where the retries of a registration do not reach its exchange at once, a registration that takes
them from an exchange has its queue. -/
lemma Registration.Isolated.only (isolated : registration.Isolated sha256 rpcExchange registered)
    (mem : other ∈ registered) (receives : registration.Receives key) (others : other.Receives key)
    (exchange : other.exchange rpcExchange = registration.exchange rpcExchange) :
    other.rabbitQueue = registration.rabbitQueue := by
  cases registration with
  | rpc => rw [receives.eq_rpc others]
  | event subscription =>
    obtain ⟨subscription', rfl⟩ := receives.eq_event others
    have event : subscription'.identity = subscription.identity :=
      EventIdentity.eq_of_route exchange (others.words_event.symm.trans receives.words_event)
    exact isolated _ mem ⟨subscription', rfl, event⟩
  | reply => cases isolated

lemma Registration.Isolated.apart (isolated : registration.Isolated sha256 rpcExchange registered)
    (receives : registration.Receives key) (others : other.Receives key) :
    retryExchangeName sha256 other.rabbitQueue ≠ registration.exchange rpcExchange ∧
      other.exchange rpcExchange ≠ retryExchangeName sha256 registration.rabbitQueue := by
  cases registration with
  | rpc =>
    cases receives.eq_rpc others
    exact ⟨isolated, isolated.symm⟩
  | event =>
    obtain ⟨_, rfl⟩ := receives.eq_event others
    exact ⟨retryExchangeName_ne_exchangeName _ _ _, (retryExchangeName_ne_exchangeName _ _ _).symm⟩
  | reply => cases isolated

end

/-- Where digests of queue names differ, the retries and the rejections of a reliable queue stay with
it exactly if it is isolated. -/
theorem retry_stays_iff (sha256 : String → String) {rpcExchange : String}
    {registered : List Registration} {topologies : List RabbitMqTopology} {merged : RabbitMqTopology}
    (compiled : List.Forall₂ (Compiled sha256 rpcExchange) registered topologies)
    (h : mergeTopologies topologies = .ok merged)
    (distinct : ∀ r ∈ registered, ∀ r' ∈ registered,
      sha256 r.rabbitQueue = sha256 r'.rabbitQueue → r.rabbitQueue = r'.rabbitQueue)
    {registration : Registration} (mem : registration ∈ registered)
    (reliable : registration.reliable = true) {key : String} (receives : registration.Receives key) :
    StaysWith sha256 merged registration.rabbitQueue key ↔
      registration.Isolated sha256 rpcExchange registered := by
  constructor
  · intro stays
    cases registration with
    | rpc =>
      -- Were the exchange the retry exchange, a copy would come back at once.
      intro same
      have primary := mem_matching_primary compiled h mem receives
      change _ ∈ merged.matching rpcExchange key at primary
      rw [← same] at primary
      exact absurd ((stays.retried _).mp primary).symm (append_ne_self (by decide))
    | event =>
      rintro other others ⟨subscription', rfl, same⟩
      have received : (Registration.event subscription').Receives key := by
        change topicMatches (words subscription'.identity.routingKey) _ = true
        rw [same]
        exact receives
      have primary := mem_matching_primary compiled h others received
      change _ ∈ merged.matching subscription'.identity.exchangeName key at primary
      rw [same] at primary
      refine (stays.returned _).mp ?_
      rw [deadLettered_retry compiled h mem reliable]
      exact primary
    | reply => cases reliable
  · intro isolated
    constructor
    · intro name
      constructor
      · intro published
        obtain ⟨other, others, ⟨exchange, received, rfl⟩ | ⟨durable, ⟨-, parts, rfl⟩ |
          ⟨exchange, received, rfl⟩⟩⟩ := binding_cases compiled h published
        · exact absurd exchange (isolated.apart receives received).2
        · exact absurd parts (receives.ne_parts durable)
        · have same := retryExchangeName_inj (distinct other others registration mem) exchange
          rw [Registration.rabbitQueue_of_address same]
      · rintro rfl
        exact mem_matching_retry compiled h mem reliable receives
    · intro name
      rw [deadLettered_retry compiled h mem reliable]
      constructor
      · intro published
        obtain ⟨other, others, ⟨exchange, received, rfl⟩ | ⟨durable, ⟨-, parts, rfl⟩ |
          ⟨exchange, received, rfl⟩⟩⟩ := binding_cases compiled h published
        · exact isolated.only others receives received exchange
        · exact absurd parts (receives.ne_parts durable)
        · exact absurd exchange (isolated.apart receives received).1
      · rintro rfl
        exact mem_matching_primary compiled h mem receives
    · intro name
      rw [deadLettered_primary compiled h mem reliable]
      constructor
      · intro published
        obtain ⟨_, _, ⟨-, received, rfl⟩ | ⟨_, ⟨-, parts, rfl⟩ |
          ⟨-, received, rfl⟩⟩⟩ := binding_cases compiled h published
        · exact absurd registration.words_rabbitQueue.symm (received.ne_parts reliable)
        · rw [registration.words_rabbitQueue] at parts
          rw [Registration.rabbitQueue_of_address (Registration.address_of_parts parts)]
        · exact absurd registration.words_rabbitQueue.symm (received.ne_parts reliable)
      · rintro rfl
        exact mem_matching_deadLetter compiled h mem reliable

/-- The one subscription to an event of a service gets its retries, and its dead letters. -/
theorem billing_retries_stay : ∃ topologies merged,
    List.Forall₂ (Compiled id defaultRpcExchange)
      [.rpc ordersService, .event (ordersSingleton none)] topologies ∧
    mergeTopologies topologies = .ok merged ∧
    StaysWith id merged (eventQueue (ordersSingleton none)) "placed.v1" := by
  obtain ⟨rpc, hrpc⟩ : ∃ topology, compileRpcTopology id ordersService = .ok topology := ⟨_, rfl⟩
  obtain ⟨event, hevent⟩ : ∃ topology,
      compileEventTopology id (ordersSingleton none) = .ok topology := ⟨_, rfl⟩
  have compiled : List.Forall₂ (Compiled id defaultRpcExchange)
      [.rpc ordersService, .event (ordersSingleton none)] [rpc, event] :=
    .cons (.rpc hrpc) (.cons (.event hevent) .nil)
  obtain ⟨merged, h⟩ : ∃ merged, mergeTopologies [rpc, event] = .ok merged := by
    cases hrpc
    cases hevent
    exact ⟨_, rfl⟩
  refine ⟨_, merged, compiled, h, ?_⟩
  have mem : Registration.event (ordersSingleton none) ∈
      [.rpc ordersService, .event (ordersSingleton none)] :=
    mem_cons_of_mem _ mem_cons_self
  have receives : (Registration.event (ordersSingleton none)).Receives "placed.v1" :=
    show topicMatches (words "placed.v1") (words "placed.v1") = true by decide
  refine (retry_stays_iff id compiled h (fun _ _ _ _ same => same) mem rfl receives).mpr ?_
  rintro other mem ⟨_, rfl, -⟩
  obtain same | mem := mem_cons.mp mem
  · cases same
  · cases mem_singleton.mp mem
    rfl

def mailingSingleton : EventSubscription :=
  { ordersSingleton none with subscription := "mailing", subscription_alias := by decide }

/-- With two subscriptions to an event, the retries of the one come back to the other as well. -/
theorem mailing_retry_reaches_billing : ∃ topologies merged,
    List.Forall₂ (Compiled id defaultRpcExchange)
      [.event (ordersSingleton none), .event mailingSingleton] topologies ∧
    mergeTopologies topologies = .ok merged ∧
    eventQueue (ordersSingleton none) ∈
      merged.deadLettered (eventQueue mailingSingleton ++ ".retry") "placed.v1" ∧
    ¬ StaysWith id merged (eventQueue mailingSingleton) "placed.v1" := by
  obtain ⟨billing, hbilling⟩ : ∃ topology,
      compileEventTopology id (ordersSingleton none) = .ok topology := ⟨_, rfl⟩
  obtain ⟨mailing, hmailing⟩ : ∃ topology,
      compileEventTopology id mailingSingleton = .ok topology := ⟨_, rfl⟩
  have compiled : List.Forall₂ (Compiled id defaultRpcExchange)
      [.event (ordersSingleton none), .event mailingSingleton] [billing, mailing] :=
    .cons (.event hbilling) (.cons (.event hmailing) .nil)
  obtain ⟨merged, h⟩ : ∃ merged, mergeTopologies [billing, mailing] = .ok merged := by
    cases hbilling
    cases hmailing
    exact ⟨_, rfl⟩
  have receives : (Registration.event (ordersSingleton none)).Receives "placed.v1" :=
    show topicMatches (words "placed.v1") (words "placed.v1") = true by decide
  have billed := mem_matching_primary compiled h mem_cons_self receives
  have returned : eventQueue (ordersSingleton none) ∈
      merged.deadLettered (eventQueue mailingSingleton ++ ".retry") "placed.v1" := by
    have mem : Registration.event mailingSingleton ∈
        [.event (ordersSingleton none), .event mailingSingleton] :=
      mem_cons_of_mem _ mem_cons_self
    have letters : merged.deadLettered (eventQueue mailingSingleton ++ ".retry") "placed.v1" = _ :=
      deadLettered_retry compiled h mem rfl
    rw [letters]
    exact billed
  refine ⟨_, merged, compiled, h, returned, fun stays => ?_⟩
  exact absurd ((stays.returned _).mp returned) (by decide)

end ToriPy.Microservices
