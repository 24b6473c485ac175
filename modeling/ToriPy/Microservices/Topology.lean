import ToriPy.Base.Table
import ToriPy.Microservices.Transport

/-!
# RabbitMQ topology

The declaration compiler of `rabbitmq/topology.py`: which exchanges, queues and bindings a service, a
subscription and a reply route need, and how the declarations of a server are merged. What RabbitMQ
does with the bindings is `RabbitMqTopology.matching`, the matching of topic exchanges.

`sha256` stands for the digest of the name of a queue, in hexadecimal digits.
-/

namespace ToriPy.Microservices.RabbitMq

open List

/-- The value of an argument of a declaration. -/
inductive Argument where
  | text (value : String)
  | number (value : Int)
deriving DecidableEq

abbrev Arguments := List (String × Argument)

/-- The kinds of exchanges that are declared. -/
inductive ExchangeKind where
  | topic
deriving DecidableEq

/-- `ExchangeDeclaration`. -/
structure ExchangeDeclaration where
  name : String
  kind : ExchangeKind := .topic
  durable : Bool := true
  arguments : Arguments := []
deriving DecidableEq

/-- `QueueDeclaration`. -/
structure QueueDeclaration where
  name : String
  durable : Bool
  exclusive : Bool
  autoDelete : Bool
  arguments : Arguments := []
deriving DecidableEq

/-- `BindingDeclaration`. -/
structure BindingDeclaration where
  exchange : String
  queue : String
  routingKey : String
  arguments : Arguments := []
deriving DecidableEq

/-- `RabbitMqTopology`. -/
structure RabbitMqTopology where
  exchanges : List ExchangeDeclaration := []
  queues : List QueueDeclaration := []
  bindings : List BindingDeclaration := []
deriving DecidableEq

/-- What the compiler raises: a `ValueError`, or the error of a reply route. -/
inductive TopologyError where
  | value (message : String)
  | route (error : WireError)
deriving DecidableEq

/-! ### The checks -/

/-- `_MAX_NAME_BYTES`. -/
def maxNameBytes : Nat := 255

/-- `_MAX_EXCHANGE_NAME_BYTES`. -/
def maxExchangeNameBytes : Nat := 127

/-- `_bounded`. -/
def bounded (value fieldName : String) : Except TopologyError Unit :=
  require (value.utf8ByteSize ≤ maxNameBytes)
    (.value (fieldName ++ " exceeds RabbitMQ's 255-byte name limit"))

/-- `_bounded_exchange`. -/
def boundedExchange (value fieldName : String) : Except TopologyError Unit :=
  require (value.utf8ByteSize ≤ maxExchangeNameBytes)
    (.value (fieldName ++ " exceeds RabbitMQ's 127-byte exchange limit"))

/-- `_positive`. -/
def positive (value : Int) (fieldName : String) : Except TopologyError Unit :=
  require (0 < value) (.value (fieldName ++ " must be a positive integer"))

/-! ### The compilers -/

/-- `_DEAD_LETTER_EXCHANGE`. -/
def deadLetterExchange : String := "tori_py.dead-letter"

/-- `_DEFAULT_DELIVERY_LIMIT`. -/
def defaultDeliveryLimit : Int := 5

/-- `_DEFAULT_RETRY_DELAY_MS`. -/
def defaultRetryDelayMs : Int := 1000

/-- `_RETRY_QUEUE_LIMIT`. -/
def retryQueueLimit : Int := 10000

/-- `_DEAD_LETTER_QUEUE_LIMIT`. -/
def deadLetterQueueLimit : Int := 10000

/-- `_RELIABLE_BROADCAST_EXPIRES_MS`. -/
def reliableBroadcastExpiresMs : Int := 604800000

/-- `_RELIABLE_BROADCAST_TTL_MS`. -/
def reliableBroadcastTtlMs : Int := 86400000

/-- The exchange of RPC requests and replies, unless the options name another. -/
def defaultRpcExchange : String := "tori_py.rpc"

section
variable (sha256 : String → String)

/-- `retry_exchange_name`. -/
def retryExchangeName (queueName : String) : String :=
  let value := queueName ++ ".retry"
  if value.utf8ByteSize ≤ maxExchangeNameBytes then value
  else "tori_py.retry." ++ sha256 queueName

/-- `_durable_topology`. -/
def durableTopology (exchange queueName routingKey : String) (queueArguments : Arguments)
    (retryDelayMs deliveryLimit : Int) : Except TopologyError RabbitMqTopology := do
  positive retryDelayMs "retry delay"
  positive deliveryLimit "delivery limit"
  let deadQueue := queueName ++ ".dead-letter"
  let retryQueue := queueName ++ ".retry"
  let retryExchange := retryExchangeName sha256 queueName
  bounded deadQueue "dead-letter queue"
  bounded retryQueue "retry queue"
  let deliveryLimitArguments : Arguments :=
    if ("x-queue-type", .text "quorum") ∈ queueArguments then
      [("x-delivery-limit", .number deliveryLimit)]
    else []
  let arguments := queueArguments ++ deliveryLimitArguments ++
    [("x-dead-letter-exchange", .text deadLetterExchange),
      ("x-dead-letter-routing-key", .text queueName)]
  .ok {
    exchanges := [{ name := exchange }, { name := deadLetterExchange }, { name := retryExchange }]
    queues := [
      ⟨queueName, true, false, false, arguments⟩,
      ⟨deadQueue, true, false, false,
        [("x-queue-type", .text "quorum"), ("x-max-length", .number deadLetterQueueLimit),
          ("x-overflow", .text "drop-head")]⟩,
      ⟨retryQueue, true, false, false,
        [("x-queue-type", .text "classic"), ("x-message-ttl", .number retryDelayMs),
          ("x-dead-letter-exchange", .text exchange), ("x-max-length", .number retryQueueLimit),
          ("x-overflow", .text "reject-publish")]⟩]
    bindings := [
      { exchange, queue := queueName, routingKey },
      { exchange := deadLetterExchange, queue := deadQueue, routingKey := queueName },
      { exchange := retryExchange, queue := retryQueue, routingKey }] }

def rpcQueue (service : ServiceIdentity) : String := "tori_py.rpc." ++ service.label

def rpcBinding (service : ServiceIdentity) : String := service.label ++ ".*"

/-- `compile_rpc_topology`. -/
def compileRpcTopology (service : ServiceIdentity) (exchange : String := defaultRpcExchange)
    (retryDelayMs : Int := defaultRetryDelayMs) (deliveryLimit : Int := defaultDeliveryLimit) :
    Except TopologyError RabbitMqTopology := do
  boundedExchange exchange "RPC exchange"
  bounded (rpcQueue service) "RPC queue"
  bounded (rpcBinding service) "RPC binding"
  durableTopology sha256 exchange (rpcQueue service) (rpcBinding service)
    [("x-queue-type", .text "quorum")] retryDelayMs deliveryLimit

/-- The name of the queue in `compile_event_topology`. The last case is excluded by the invariant of
a subscription. -/
def eventQueue (subscription : EventSubscription) : String :=
  let identity := subscription.identity
  let base := "tori_py.event." ++ identity.source.label ++ "." ++ identity.event ++ "." ++
    versionName identity.schemaVersion
  match subscription.mode, subscription.destination, subscription.instanceId with
  | .servicePool, some destination, _ =>
    base ++ "--pool." ++ destination.label ++ "." ++ subscription.subscription
  | .singleton, _, _ => base ++ "--singleton." ++ subscription.subscription
  | .broadcast, some destination, some instanceId =>
    base ++ "--broadcast." ++ destination.label ++ "." ++ subscription.subscription ++ "." ++
      instanceId
  | _, _, _ => base

/-- The `durable_arguments` of `compile_event_topology`. -/
def durableArguments : DispatchMode → Arguments
  | .servicePool => [("x-queue-type", .text "quorum")]
  | .singleton => [("x-queue-type", .text "quorum")]
  | .broadcast =>
    [("x-queue-type", .text "classic"), ("x-expires", .number reliableBroadcastExpiresMs),
      ("x-message-ttl", .number reliableBroadcastTtlMs)]

/-- `compile_event_topology`. -/
def compileEventTopology (subscription : EventSubscription)
    (retryDelayMs : Int := defaultRetryDelayMs) (deliveryLimit : Int := defaultDeliveryLimit) :
    Except TopologyError RabbitMqTopology := do
  let identity := subscription.identity
  let queueName := eventQueue subscription
  boundedExchange identity.exchangeName "event exchange"
  bounded identity.routingKey "event routing key"
  bounded queueName "event queue"
  if subscription.reliable then
    durableTopology sha256 identity.exchangeName queueName identity.routingKey
      (durableArguments subscription.mode) retryDelayMs deliveryLimit
  else
    .ok {
      exchanges := [{ name := identity.exchangeName }]
      queues := [⟨queueName, false, true, true, [("x-queue-type", .text "classic")]⟩]
      bindings := [
        { exchange := identity.exchangeName, queue := queueName
          routingKey := identity.routingKey }] }

end

/-- `compile_reply_topology`. -/
def compileReplyTopology (route : String) (exchange : String := defaultRpcExchange)
    (expiresMs : Int := 300000) : Except TopologyError RabbitMqTopology := do
  let route := (← (ReplyRoute.make route).mapError TopologyError.route).value
  require (0 < expiresMs) (.value "reply queue expiry must be a positive integer")
  boundedExchange exchange "RPC exchange"
  bounded route "reply queue"
  .ok {
    exchanges := [{ name := exchange }]
    queues := [⟨route, false, true, true, [("x-expires", .number expiresMs)]⟩]
    bindings := [{ exchange, queue := route, routingKey := route }] }

/-! ### Merging -/

/-- `_merge`, and the same for bindings: a declaration is added unless it is there already. -/
def merge {δ κ : Type} [DecidableEq δ] [DecidableEq κ] (key : δ → κ) (text : δ → String)
    (kind : String) (values : List δ) (value : δ) : Except TopologyError (List δ) :=
  match values.find? (key · = key value) with
  | none => .ok (values ++ [value])
  | some existing =>
    if existing = value then .ok values
    else .error (.value ("conflicting RabbitMQ " ++ kind ++ " declaration " ++ text value))

/-- The `repr` of a name. -/
def quoted (name : String) : String := "'" ++ name ++ "'"

/-- One round of the loop of `merge_topologies`. -/
def mergeTopology (merged topology : RabbitMqTopology) : Except TopologyError RabbitMqTopology := do
  let exchanges ← topology.exchanges.foldlM
    (merge ExchangeDeclaration.name (quoted ·.name) "exchange") merged.exchanges
  let queues ← topology.queues.foldlM
    (merge QueueDeclaration.name (quoted ·.name) "queue") merged.queues
  let bindings ← topology.bindings.foldlM
    (merge (fun binding => (binding.exchange, binding.queue, binding.routingKey))
      (fun binding => "(" ++ quoted binding.exchange ++ ", " ++ quoted binding.queue ++ ", " ++
        quoted binding.routingKey ++ ")") "binding") merged.bindings
  .ok { exchanges, queues, bindings }

/-- `merge_topologies`. -/
def mergeTopologies (topologies : List RabbitMqTopology) : Except TopologyError RabbitMqTopology :=
  topologies.foldlM mergeTopology {}

/-! ### Matching -/

/-- The queues that a message with a routing key goes to when it is published to an exchange. -/
def RabbitMqTopology.matching (topology : RabbitMqTopology) (exchange routingKey : String) :
    List String :=
  (topology.bindings.filter fun binding => binding.exchange = exchange &&
    topicMatches (words binding.routingKey) (words routingKey)).map (·.queue)

/-! ### What the compilers return -/

section
variable {sha256 : String → String} {exchange queueName routingKey : String}
  {queueArguments : Arguments} {retryDelayMs deliveryLimit : Int} {topology : RabbitMqTopology}

/-- The queues and the bindings of a durable queue, with its dead letters and its retries. -/
structure Durable (sha256 : String → String) (exchange queueName routingKey : String)
    (topology : RabbitMqTopology) : Prop where
  queues : topology.queues.map (·.name) =
    [queueName, queueName ++ ".dead-letter", queueName ++ ".retry"]
  bindings : topology.bindings = [
    { exchange, queue := queueName, routingKey },
    { exchange := deadLetterExchange, queue := queueName ++ ".dead-letter",
      routingKey := queueName },
    { exchange := retryExchangeName sha256 queueName, queue := queueName ++ ".retry", routingKey }]

/-- The queue and the binding of a queue that goes with its consumer. -/
structure Transient (exchange queueName routingKey : String) (topology : RabbitMqTopology) :
    Prop where
  queues : topology.queues.map (·.name) = [queueName]
  bindings : topology.bindings = [{ exchange, queue := queueName, routingKey }]

lemma durableTopology_ok (h : durableTopology sha256 exchange queueName routingKey queueArguments
    retryDelayMs deliveryLimit = .ok topology) :
    Durable sha256 exchange queueName routingKey topology := by
  rw [durableTopology, then_ok, then_ok, then_ok, then_ok] at h
  obtain ⟨-, -, -, -, h⟩ := h
  cases h
  exact ⟨rfl, rfl⟩

lemma compileRpcTopology_ok {service}
    (h : compileRpcTopology sha256 service exchange retryDelayMs deliveryLimit = .ok topology) :
    Durable sha256 exchange (rpcQueue service) (rpcBinding service) topology := by
  rw [compileRpcTopology, then_ok, then_ok, then_ok] at h
  exact durableTopology_ok h.2.2.2

lemma compileEventTopology_ok {subscription}
    (h : compileEventTopology sha256 subscription retryDelayMs deliveryLimit = .ok topology) :
    let identity := subscription.identity
    Durable sha256 identity.exchangeName (eventQueue subscription) identity.routingKey topology ∨
      Transient identity.exchangeName (eventQueue subscription) identity.routingKey topology := by
  rw [compileEventTopology, then_ok, then_ok, then_ok] at h
  obtain ⟨-, -, -, h⟩ := h
  split at h
  · exact .inl (durableTopology_ok h)
  · cases h
    exact .inr ⟨rfl, rfl⟩

lemma compileReplyTopology_ok {route : ReplyRoute} {expiresMs}
    (h : compileReplyTopology route.value exchange expiresMs = .ok topology) :
    Transient exchange route.value route.value topology := by
  have valid : (ReplyRoute.make route.value).mapError TopologyError.route = .ok route := by
    rw [ReplyRoute.make, dif_pos route.valid]
    rfl
  rw [compileReplyTopology, valid, ok_bind, then_ok, then_ok, then_ok] at h
  obtain ⟨-, -, -, h⟩ := h
  cases h
  exact ⟨rfl, rfl⟩

end

/-! ### Merging keeps the declarations -/

section
variable {σ τ δ κ : Type} {key : δ → κ} {values declared : List δ} {held : σ → List δ}

def Keyed (key : δ → κ) (values : List δ) : Prop :=
  ∀ x ∈ values, ∀ y ∈ values, key x = key y → x = y

lemma Keyed.mono (keyed : Keyed key declared) (sub : values ⊆ declared) : Keyed key values :=
  fun x mem y mem' same => keyed x (sub mem) y (sub mem') same

lemma Keyed.of_nodup (nodup : (values.map key).Nodup) (mem : ∀ x, x ∈ values ↔ x ∈ declared) :
    Keyed key declared :=
  fun x hx y hy same => inj_on_of_nodup_map nodup ((mem x).mpr hx) ((mem y).mpr hy) same

/-- Declarations are merged: a `ValueError` says that two of them differ under one key; otherwise
each key is held once. -/
def Merges (key : δ → κ) (held : σ → List δ) (declared : List δ) : Except TopologyError σ → Prop :=
  Ensures (fun e => (∃ message, e = .value message) ∧ ¬ Keyed key declared)
    fun merged => ((held merged).map key).Nodup ∧ ∀ x, x ∈ held merged ↔ x ∈ declared

lemma Merges.congr {x} (h : Merges key held values x)
    (mem : ∀ x, x ∈ values ↔ x ∈ declared) : Merges key held declared x :=
  h.imp (fun _ raised => ⟨raised.1, mt (Keyed.mono · fun x => (mem x).mp) raised.2⟩)
    fun _ merged => ⟨merged.1, fun x => (merged.2 x).trans (mem x)⟩

/-- What each round of a loop merges, the loop merges. -/
lemma merges_foldlM {adds f}
    (round : ∀ s t, ((held s).map key).Nodup → Merges key held (held s ++ adds t) (f s t))
    (ts : List τ) {s} (nodup : ((held s).map key).Nodup) :
    Merges key held (held s ++ ts.flatMap adds) (ts.foldlM f s) := by
  induction ts generalizing s with
  | nil => exact .ok ⟨nodup, fun x => by simp⟩
  | cons t ts ih =>
    rw [foldlM_cons, flatMap_cons, ← append_assoc]
    refine Ensures.bind ((round s t nodup).imp (fun _ raised => ⟨raised.1,
      mt (Keyed.mono · (subset_append_left _ _)) raised.2⟩) fun _ h => h) fun next merged => ?_
    exact Merges.congr (ih merged.1) fun x => by rw [mem_append, merged.2, ← mem_append]

lemma merges_merge [DecidableEq δ] [DecidableEq κ] {text kind} (values : List δ) (value : δ)
    (nodup : (values.map key).Nodup) :
    Merges key id (values ++ [value]) (merge key text kind values value) := by
  unfold merge
  split
  · rename_i none
    refine .ok ⟨?_, fun _ => .rfl⟩
    rw [id, map_append]
    refine nodup.append (nodup_singleton _) fun k mem here => ?_
    obtain ⟨x, held, rfl⟩ := mem_map.mp mem
    exact find?_eq_none.mp none x held (decide_eq_true (mem_singleton.mp here))
  · rename_i existing found
    have held := mem_of_find?_eq_some found
    split
    · rename_i same
      subst same
      refine .ok ⟨nodup, fun x => ⟨mem_append_left _, fun mem => ?_⟩⟩
      obtain mem | rfl := mem_snoc.mp mem
      · exact mem
      · exact held
    · rename_i differ
      have same : key existing = key value := by simpa using find?_some found
      refine .error ⟨⟨_, rfl⟩, fun keyed => differ ?_⟩
      exact keyed existing (mem_append_left _ held) value (mem_snoc.mpr (.inr rfl)) same

end

/-- A declaration of a topology. -/
inductive Declaration where
  | exchange (declared : ExchangeDeclaration)
  | queue (declared : QueueDeclaration)
  | binding (declared : BindingDeclaration)

/-- What a declaration is known by among its kind. -/
def Declaration.key : Declaration → String ⊕ String ⊕ String × String × String
  | .exchange declared => .inl declared.name
  | .queue declared => .inr (.inl declared.name)
  | .binding declared => .inr (.inr (declared.exchange, declared.queue, declared.routingKey))

def RabbitMqTopology.declarations (topology : RabbitMqTopology) : List Declaration :=
  topology.exchanges.map .exchange ++ topology.queues.map .queue ++ topology.bindings.map .binding

lemma nodup_declarations {topology : RabbitMqTopology} :
    (topology.declarations.map Declaration.key).Nodup ↔
      (topology.exchanges.map (·.name)).Nodup ∧ (topology.queues.map (·.name)).Nodup ∧
      (topology.bindings.map fun binding =>
        (binding.exchange, binding.queue, binding.routingKey)).Nodup := by
  simp [RabbitMqTopology.declarations, Declaration.key, List.Nodup, pairwise_append, pairwise_map]

/-- Some declarations are merged to a topology. -/
def MergesTo : List Declaration → Except TopologyError RabbitMqTopology → Prop :=
  Merges Declaration.key RabbitMqTopology.declarations

lemma mergesTo_mergeTopology (start topology : RabbitMqTopology)
    (nodup : (start.declarations.map Declaration.key).Nodup) :
    MergesTo (start.declarations ++ topology.declarations) (mergeTopology start topology) := by
  obtain ⟨exchanges, queues, bindings⟩ := nodup_declarations.mp nodup
  -- A conflict among the declarations of one kind is one among all of them.
  have part {δ κ : Type} {key : δ → κ} {values : List δ} {c : δ → Declaration}
      (keys : ∀ x y, key x = key y → (c x).key = (c y).key) (inj : ∀ x y, c x = c y → x = y)
      (mem : ∀ x ∈ values, c x ∈ start.declarations ++ topology.declarations) (e : TopologyError)
      (raised : (∃ message, e = .value message) ∧ ¬ Keyed key values) :
      (∃ message, e = .value message) ∧
        ¬ Keyed Declaration.key (start.declarations ++ topology.declarations) :=
    ⟨raised.1, fun keyed => raised.2 fun x hx y hy same =>
      inj x y (keyed _ (mem x hx) _ (mem y hy) (keys x y same))⟩
  refine Ensures.bind ((merges_foldlM merges_merge _ exchanges).imp (part (c := .exchange)
    (by simp [Declaration.key]) (by simp) (by simp [RabbitMqTopology.declarations])) fun _ h => h)
      fun _ exchanges => ?_
  refine Ensures.bind ((merges_foldlM merges_merge _ queues).imp (part (c := .queue)
    (by simp [Declaration.key]) (by simp) (by simp [RabbitMqTopology.declarations])) fun _ h => h)
      fun _ queues => ?_
  refine Ensures.bind ((merges_foldlM merges_merge _ bindings).imp (part (c := .binding)
    (by simp [Declaration.key]) (by simp) (by simp [RabbitMqTopology.declarations])) fun _ h => h)
      fun _ bindings => ?_
  refine .ok ⟨nodup_declarations.mpr ⟨exchanges.1, queues.1, bindings.1⟩, fun x => ?_⟩
  have held := And.intro exchanges.2 (And.intro queues.2 bindings.2)
  cases x <;> simp_all [RabbitMqTopology.declarations]

lemma mergesTo_mergeTopologies (topologies : List RabbitMqTopology) :
    MergesTo (topologies.flatMap (·.declarations)) (mergeTopologies topologies) :=
  merges_foldlM (s := {}) mergesTo_mergeTopology topologies nodup_nil

variable {topologies : List RabbitMqTopology} {merged : RabbitMqTopology}

lemma mergeTopologies_ok (h : mergeTopologies topologies = .ok merged) :
    (merged.declarations.map Declaration.key).Nodup ∧
      ∀ x, x ∈ merged.declarations ↔ ∃ topology ∈ topologies, x ∈ topology.declarations := by
  have merges := mergesTo_mergeTopologies topologies
  rw [h] at merges
  cases merges with
  | ok merges => exact ⟨merges.1, fun x => (merges.2 x).trans mem_flatMap⟩

/-- No two queues of a merged topology have one name. -/
theorem keyed_queues_mergeTopologies
    (h : mergeTopologies topologies = .ok merged) : Keyed QueueDeclaration.name merged.queues :=
  .of_nodup (nodup_declarations.mp (mergeTopologies_ok h).1).2.1 fun _ => .rfl

/-- A merged topology has the bindings of the topologies that it was merged of. -/
theorem mem_bindings_mergeTopologies
    (h : mergeTopologies topologies = .ok merged) (binding : BindingDeclaration) :
    binding ∈ merged.bindings ↔ ∃ topology ∈ topologies, binding ∈ topology.bindings := by
  simpa [RabbitMqTopology.declarations] using (mergeTopologies_ok h).2 (.binding binding)

/-- So it does for the queues. -/
theorem mem_queues_mergeTopologies
    (h : mergeTopologies topologies = .ok merged) (queue : QueueDeclaration) :
    queue ∈ merged.queues ↔ ∃ topology ∈ topologies, queue ∈ topology.queues := by
  simpa [RabbitMqTopology.declarations] using (mergeTopologies_ok h).2 (.queue queue)

/-! ### The laws of merging -/

/-- Both raise, or both return the same declarations in whatever order. -/
def SameOutcome : Except TopologyError RabbitMqTopology →
    Except TopologyError RabbitMqTopology → Prop
  | .ok merged, .ok other => ∀ x, x ∈ merged.declarations ↔ x ∈ other.declarations
  | .error _, .error _ => True
  | _, _ => False

lemma sameOutcome {declared x y} (h : MergesTo declared x)
    (h' : MergesTo declared y) : SameOutcome x y := by
  cases h with
  | ok merged =>
    cases h' with
    | ok merged' => exact fun x => (merged.2 x).trans (merged'.2 x).symm
    | error raised => exact raised.2 (.of_nodup merged.1 merged.2)
  | error raised =>
    cases h' with
    | ok merged => exact raised.2 (.of_nodup merged.1 merged.2)
    | error => trivial

lemma mergesTo_groups (groups : List (List RabbitMqTopology)) :
    MergesTo (groups.flatten.flatMap (·.declarations))
      (groups.mapM mergeTopologies >>= mergeTopologies) := by
  cases made : groups.mapM mergeTopologies with
  | error =>
    obtain ⟨group, mem, raised⟩ := exists_of_mapM_error made
    have merges := mergesTo_mergeTopologies group
    rw [raised] at merges
    cases merges with
    | error raised =>
      refine .error ⟨raised.1, mt (Keyed.mono · fun x declared => ?_) raised.2⟩
      obtain ⟨topology, listed, declared⟩ := mem_flatMap.mp declared
      exact mem_flatMap.mpr ⟨topology, mem_flatten.mpr ⟨group, mem, listed⟩, declared⟩
  | ok parts =>
    refine Merges.congr (mergesTo_mergeTopologies parts) fun x => ?_
    rw [mem_flatMap, mem_flatMap]
    constructor
    · rintro ⟨part, mem, declared⟩
      obtain ⟨group, listed, merged⟩ := mem_of_mapM_ok made part mem
      obtain ⟨topology, here, declared⟩ := ((mergeTopologies_ok merged).2 x).mp declared
      exact ⟨topology, mem_flatten.mpr ⟨group, listed, here⟩, declared⟩
    · rintro ⟨topology, mem, declared⟩
      obtain ⟨group, listed, here⟩ := mem_flatten.mp mem
      obtain ⟨part, mem, merged⟩ := exists_of_mapM_ok made group listed
      exact ⟨part, mem, ((mergeTopologies_ok merged).2 x).mpr ⟨topology, here, declared⟩⟩

/-- Merging raises a `ValueError` just if two declarations differ under one key, and otherwise
declares each key once. Neither the order of the topologies matters, nor repeating or grouping
them. -/
theorem mergeTopologies_laws (topologies : List RabbitMqTopology) :
    ((∃ message, mergeTopologies topologies = .error (.value message)) ↔
      ¬ Keyed Declaration.key (topologies.flatMap (·.declarations))) ∧
    (∀ merged, mergeTopologies topologies = .ok merged →
      (merged.declarations.map Declaration.key).Nodup ∧
      ∀ x, x ∈ merged.declarations ↔ ∃ topology ∈ topologies, x ∈ topology.declarations) ∧
    (∀ others, (∀ topology, topology ∈ others ↔ topology ∈ topologies) →
      SameOutcome (mergeTopologies others) (mergeTopologies topologies)) ∧
    ∀ groups : List (List RabbitMqTopology), groups.flatten = topologies →
      SameOutcome (groups.mapM mergeTopologies >>= mergeTopologies)
        (mergeTopologies topologies) := by
  have merges := mergesTo_mergeTopologies topologies
  refine ⟨?_, fun _ h => mergeTopologies_ok h, fun others same => ?_, fun groups same => ?_⟩
  · generalize mergeTopologies topologies = result at merges
    cases merges with
    | ok merged => simp [Keyed.of_nodup merged.1 merged.2]
    | error raised => simp [raised]
  · refine sameOutcome (Merges.congr (mergesTo_mergeTopologies others) fun x => ?_) merges
    simp only [mem_flatMap, same]
  · exact sameOutcome (same ▸ mergesTo_groups groups) merges

end ToriPy.Microservices.RabbitMq
