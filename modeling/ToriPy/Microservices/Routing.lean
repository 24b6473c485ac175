import ToriPy.Microservices.Addresses
import ToriPy.Microservices.Frames

/-!
# Routing

The two brokers route alike. In memory, a request goes to the first queue whose label starts its
routing key, and an event to the queues in the table under its exchange and key; in RabbitMQ both go
to the queues whose bindings match. The tables of a broker that was reached by any run are those of
some registrations (`Routes.Registered`), and for the same registrations the compiled topologies
lead the same publications to the queues of the same registrations: a request to the queue of its
service, an event to the queues of its subscriptions, and nothing to the queue of a reply, a retry or
a dead letter.
-/

namespace ToriPy.Microservices

open List
open RabbitMq

/-! ### The tables in memory -/

/-- The tables have the routes of these registrations and no others. -/
structure Routes.Registered (routes : Routes) (registered : List Registration) : Prop where
  rpc : ∀ label name, (label, name) ∈ routes.rpcQueues ↔
    ∃ service, .rpc service ∈ registered ∧ service.label = label ∧
      Broker.rpcQueueName service = name
  event : ∀ route name, (∃ names, (route, names) ∈ routes.eventRoutes ∧ name ∈ names) ↔
    ∃ subscription, .event subscription ∈ registered ∧ subscription.route = route ∧
      eventQueueName subscription = name

def Routes.Keyed (routes : Routes) : Prop := (routes.eventRoutes.map Prod.fst).Nodup

lemma ServiceIdentity.label_inj {service service' : ServiceIdentity} :
    service.label = service'.label ↔ service = service' := by
  constructor
  · intro h
    rw [label_eq_dotted, label_eq_dotted] at h
    exact labelWords_inj.mp (dotted_inj service.labelWords_word service'.labelWords_word
      (cons_ne_nil _ _) (cons_ne_nil _ _) h)
  · rintro rfl
    rfl

namespace Routes

variable {routes routes' : Routes} {registered : List Registration}

lemma keyed_addEvent (keyed : routes.Keyed) (route : String × String) (name : String) :
    (routes.addEvent route name).Keyed := by
  unfold Keyed addEvent
  dsimp only
  split
  · have keys : (fun entry : (String × String) × List String => Prod.fst
        (if entry.1 = route then (entry.1, entry.2.insert name) else entry)) = Prod.fst := by
      funext entry
      split <;> rfl
    rw [map_map]
    change (routes.eventRoutes.map fun entry => Prod.fst _).Nodup
    rw [keys]
    exact keyed
  · rename_i new
    rw [map_append]
    exact nodup_append_comm.mp (nodup_cons.mpr ⟨new, keyed⟩)

lemma keyed_forget (keyed : routes.Keyed) (name : String) : (routes.forget name).Keyed := by
  have same : (routes.eventRoutes.map fun entry => (entry.1, entry.2.erase name)).map Prod.fst =
      routes.eventRoutes.map Prod.fst := by
    rw [map_map]
    rfl
  have sub : ((routes.forget name).eventRoutes.map Prod.fst).Sublist
      (routes.eventRoutes.map Prod.fst) := by
    rw [← same]
    exact filter_sublist.map Prod.fst
  exact sub.nodup keyed

lemma registered_empty : Registered {} [] := by
  refine ⟨fun label name => ?_, fun route name => ?_⟩
  · simp
  · simp

lemma registered_reply (h : routes.Registered registered) (route : ReplyRoute) :
    routes.Registered (registered ++ [.reply route]) := by
  refine ⟨fun label name => ?_, fun route name => ?_⟩
  · simp only [mem_append, mem_singleton, reduceCtorEq, or_false]
    exact h.rpc label name
  · simp only [mem_append, mem_singleton, reduceCtorEq, or_false]
    exact h.event route name

lemma registered_addRpc (h : routes.Registered registered) (service : ServiceIdentity) :
    (routes.addRpc service.label (Broker.rpcQueueName service)).Registered
      (registered ++ [.rpc service]) := by
  refine ⟨fun label name => ?_, fun route name => ?_⟩
  · have added : (label, name) ∈
        (routes.addRpc service.label (Broker.rpcQueueName service)).rpcQueues ↔
        (label, name) ∈ routes.rpcQueues ∨
          service.label = label ∧ Broker.rpcQueueName service = name := by
      unfold addRpc
      dsimp only
      split
      · rename_i known
        -- The label is that of one service only, so the old entry is the new one.
        obtain ⟨⟨_, old⟩, mem, rfl⟩ := mem_map.mp known
        refine ⟨.inl, ?_⟩
        rintro (mem | ⟨rfl, rfl⟩)
        · exact mem
        · obtain ⟨service', -, same, rfl⟩ := (h.rpc _ old).mp mem
          cases ServiceIdentity.label_inj.mp same
          exact mem
      · rw [mem_append, mem_singleton, Prod.mk.injEq, eq_comm (a := label), eq_comm (a := name)]
    rw [added, h.rpc]
    simp only [mem_append, mem_singleton, Registration.rpc.injEq]
    constructor
    · rintro (⟨service', mem, same⟩ | same)
      · exact ⟨service', .inl mem, same⟩
      · exact ⟨service, .inr rfl, same⟩
    · rintro ⟨service', mem | rfl, same⟩
      · exact .inl ⟨service', mem, same⟩
      · exact .inr same
  · simp only [mem_append, mem_singleton, reduceCtorEq, or_false]
    exact h.event route name

lemma mem_addEvent {route route' name name'} :
    (∃ names, (route', names) ∈ (routes.addEvent route name).eventRoutes ∧ name' ∈ names) ↔
      (∃ names, (route', names) ∈ routes.eventRoutes ∧ name' ∈ names) ∨
        route = route' ∧ name = name' := by
  unfold addEvent
  dsimp only
  split
  · rename_i known
    constructor
    · rintro ⟨names, mem, hname⟩
      obtain ⟨⟨key, old⟩, hold, same⟩ := mem_map.mp mem
      split at same
      · rename_i here
        cases same
        rcases mem_insert_iff.mp hname with rfl | hname
        · exact .inr ⟨here.symm, rfl⟩
        · exact .inl ⟨old, hold, hname⟩
      · cases same
        exact .inl ⟨_, hold, hname⟩
    · rintro (⟨names, mem, hname⟩ | ⟨rfl, rfl⟩)
      · refine ⟨if route' = route then names.insert name else names, ?_, ?_⟩
        · apply mem_map.mpr
          refine ⟨(route', names), mem, ?_⟩
          split <;> rfl
        · split
          · exact mem_insert_of_mem hname
          · exact hname
      · obtain ⟨⟨key, names⟩, mem, rfl⟩ := mem_map.mp known
        refine ⟨names.insert name, ?_, mem_insert_self⟩
        exact mem_map.mpr ⟨(key, names), mem, if_pos rfl⟩
  · constructor
    · rintro ⟨names, mem, hname⟩
      rcases mem_snoc.mp mem with mem | same
      · exact .inl ⟨names, mem, hname⟩
      · cases same
        exact .inr ⟨rfl, (mem_singleton.mp hname).symm⟩
    · rintro (⟨names, mem, hname⟩ | ⟨rfl, rfl⟩)
      · exact ⟨names, mem_append_left _ mem, hname⟩
      · exact ⟨[name], mem_append_right _ (mem_singleton_self _),
          mem_singleton_self _⟩

lemma registered_addEvent (h : routes.Registered registered) (subscription : EventSubscription) :
    (routes.addEvent subscription.route (eventQueueName subscription)).Registered
      (registered ++ [.event subscription]) := by
  refine ⟨fun label name => ?_, fun route name => ?_⟩
  · simp only [mem_append, mem_singleton, reduceCtorEq, or_false]
    exact h.rpc label name
  rw [mem_addEvent, h.event]
  simp only [mem_append, mem_singleton, Registration.event.injEq]
  constructor
  · rintro (⟨subscription', mem, same⟩ | same)
    · exact ⟨subscription', .inl mem, same⟩
    · exact ⟨subscription, .inr rfl, same⟩
  · rintro ⟨subscription', mem | rfl, same⟩
    · exact .inl ⟨subscription', mem, same⟩
    · exact .inr same

lemma mem_forget (distinct : routes.Distinct) {route name name'} :
    (∃ names, (route, names) ∈ (routes.forget name).eventRoutes ∧ name' ∈ names) ↔
      (∃ names, (route, names) ∈ routes.eventRoutes ∧ name' ∈ names) ∧ name' ≠ name := by
  constructor
  · rintro ⟨names, mem, hname⟩
    obtain ⟨⟨_, old⟩, hold, same⟩ := mem_map.mp (mem_filter.mp mem).1
    cases same
    obtain ⟨ne, mem⟩ := (distinct _ hold).mem_erase_iff.mp hname
    exact ⟨⟨old, hold, mem⟩, ne⟩
  · rintro ⟨⟨names, mem, hname⟩, ne⟩
    have left : name' ∈ names.erase name := (mem_erase_of_ne ne).mpr hname
    refine ⟨names.erase name, mem_filter.mpr ⟨?_, ?_⟩, left⟩
    · exact mem_map.mpr ⟨(route, names), mem, rfl⟩
    · exact decide_eq_true (ne_nil_of_mem left)

lemma registered_forget (h : routes.Registered registered) (distinct : routes.Distinct)
    (name : String) : (routes.forget name).Registered
      (registered.filter fun registration => registration.memoryQueue ≠ name) := by
  refine ⟨fun label name' => ?_, fun route name' => ?_⟩
  · unfold forget
    dsimp only
    rw [mem_filter, h.rpc]
    simp only [mem_filter, Registration.memoryQueue]
    constructor
    · rintro ⟨⟨service, mem, same, rfl⟩, ne⟩
      exact ⟨service, ⟨mem, ne⟩, same, rfl⟩
    · rintro ⟨service, ⟨mem, ne⟩, same, rfl⟩
      exact ⟨⟨service, mem, same, rfl⟩, ne⟩
  · rw [mem_forget distinct, h.event]
    simp only [mem_filter, Registration.memoryQueue]
    constructor
    · rintro ⟨⟨subscription, mem, same, rfl⟩, ne⟩
      exact ⟨subscription, ⟨mem, decide_eq_true ne⟩, same, rfl⟩
    · rintro ⟨subscription, ⟨mem, ne⟩, same, rfl⟩
      exact ⟨⟨subscription, mem, same, rfl⟩, of_decide_eq_true ne⟩

lemma Leads.exists_registered (leads : Leads {} routes) :
    routes.Keyed ∧ ∃ registered, routes.Registered registered := by
  induction leads with
  | refl => exact ⟨nodup_nil, [], registered_empty⟩
  | addRpc service _ ih =>
    obtain ⟨keyed, registered, h⟩ := ih
    exact ⟨keyed, _, registered_addRpc h service⟩
  | addEvent subscription _ ih =>
    obtain ⟨keyed, registered, h⟩ := ih
    exact ⟨keyed_addEvent keyed _ _, _, registered_addEvent h subscription⟩
  | forget name before ih =>
    obtain ⟨keyed, _, h⟩ := ih
    have distinct := before.distinct fun _ mem => absurd mem not_mem_nil
    exact ⟨keyed_forget keyed name, _, registered_forget h distinct name⟩

end Routes

/-! ### Routing keys -/

lemma RpcTarget.words_routingKey (target : RpcTarget) :
    words target.routingKey = target.service.labelWords ++ [target.method] := by
  change words (target.service.label ++ "." ++ target.method) = _
  rw [target.service.label_eq_dotted, words_append target.service.labelWords_word (cons_ne_nil _ _),
    words_word (literal_of_isAlias target.method_alias).word]

lemma EventIdentity.words_routingKey (identity : EventIdentity) :
    words identity.routingKey = [identity.event, versionName identity.schemaVersion] := by
  change words (identity.event ++ "." ++ versionName identity.schemaVersion) = _
  rw [words_cons _ (literal_of_isAlias identity.event_alias).word,
    words_word (literal_versionName _).word]

lemma EventIdentity.routingKey_literal (identity : EventIdentity) :
    ∀ w ∈ words identity.routingKey, Literal w := by
  rw [identity.words_routingKey]
  simp only [mem_cons, not_mem_nil, or_false]
  rintro w (rfl | rfl)
  · exact literal_of_isAlias identity.event_alias
  · exact literal_versionName _

lemma EventIdentity.words_exchangeName (identity : EventIdentity) :
    words identity.exchangeName = "tori_py" :: "events" :: identity.source.labelWords := by
  have name : identity.exchangeName = "tori_py" ++ "." ++ ("events" ++ "." ++ identity.source.label) := by
    apply String.ext
    simp [exchangeName, eventExchangeName]
  rw [name, words_cons _ (by decide), words_cons _ (by decide), identity.source.label_eq_dotted,
    words_dotted identity.source.labelWords_word (cons_ne_nil _ _)]

lemma EventIdentity.eq_of_route {identity identity' : EventIdentity}
    (exchange : identity.exchangeName = identity'.exchangeName)
    (key : words identity.routingKey = words identity'.routingKey) : identity = identity' := by
  have source := congrArg words exchange
  rw [words_exchangeName, words_exchangeName] at source
  rw [words_routingKey, words_routingKey, List.cons.injEq, List.cons.injEq] at key
  apply EventIdentity.ext_of
  · exact ServiceIdentity.labelWords_inj.mp (List.cons.inj (List.cons.inj source).2).2
  · exact key.1
  · exact versionName_inj.mp key.2.1

/-! ### Selection in memory -/

variable {service : ServiceIdentity}

namespace Routes

variable {routes : Routes} {registered : List Registration}

lemma label_isPrefixOf {target : RpcTarget} :
    (service.label ++ ".").toList.isPrefixOf target.routingKey.toList = true ↔
      service = target.service := by
  rw [ isPrefixOf_iff_prefix]
  constructor
  · rintro ⟨rest, h⟩
    have key : target.routingKey = service.label ++ "." ++ String.ofList rest := by
      apply String.ext
      rw [← h]
      simp
    have parts := target.words_routingKey
    rw [key, service.label_eq_dotted,
      words_append service.labelWords_word (cons_ne_nil _ _)] at parts
    exact (Address.labelWords_append_inj parts).1
  · rintro rfl
    refine ⟨target.method.toList, ?_⟩
    simp [RpcTarget.routingKey, rpcRoutingKey]

lemma select_rpc (h : routes.Registered registered) (target : RpcTarget) (name : String) :
    name ∈ routes.select target.routingKey none ↔
      .rpc target.service ∈ registered ∧ Broker.rpcQueueName target.service = name := by
  unfold select
  dsimp only
  split
  · rename_i entry found
    obtain ⟨service, mem, label, queue⟩ :=
      (h.rpc entry.1 entry.2).mp (mem_of_find?_eq_some found)
    have same := find?_some found
    rw [← label, label_isPrefixOf] at same
    subst same
    rw [mem_singleton, ← queue, and_iff_right mem, eq_comm]
  · rename_i absent
    simp only [not_mem_nil, false_iff]
    rintro ⟨mem, -⟩
    have entry := (h.rpc target.service.label _).mpr ⟨target.service, mem, rfl, rfl⟩
    exact find?_eq_none.mp absent _ entry (label_isPrefixOf.mpr rfl)

lemma mem_lookup (keyed : routes.Keyed) (route : String × String) (name : String) :
    name ∈ (routes.eventRoutes.lookup route).getD [] ↔
      ∃ names, (route, names) ∈ routes.eventRoutes ∧ name ∈ names := by
  simp only [← lookup_eq_some_iff_mem keyed]
  cases routes.eventRoutes.lookup route with
  | none | some names => simp

lemma select_event (h : routes.Registered registered) (keyed : routes.Keyed)
    (identity : EventIdentity) (name : String) :
    name ∈ routes.select identity.routingKey
        (some (.route identity.exchangeName identity.routingKey)) ↔
      ∃ subscription, .event subscription ∈ registered ∧ subscription.identity = identity ∧
        eventQueueName subscription = name := by
  change name ∈ (routes.eventRoutes.lookup (identity.exchangeName, identity.routingKey)).getD [] ↔ _
  rw [mem_lookup keyed, h.event]
  constructor
  · rintro ⟨subscription, mem, route, queue⟩
    obtain ⟨exchange, key⟩ := Prod.mk.inj route
    exact ⟨subscription, mem, EventIdentity.eq_of_route exchange (congrArg words key), queue⟩
  · rintro ⟨subscription, mem, rfl, queue⟩
    exact ⟨subscription, mem, rfl, queue⟩

end Routes

/-! ### Matching in RabbitMQ -/

/-- The topologies that the compiler makes of a registration. -/
inductive Compiled (sha256 : String → String) (rpcExchange : String) :
    Registration → RabbitMqTopology → Prop where
  | rpc {service : ServiceIdentity} {retryDelayMs deliveryLimit : Int}
    {topology : RabbitMqTopology} :
    compileRpcTopology sha256 service rpcExchange retryDelayMs deliveryLimit = .ok topology →
    Compiled sha256 rpcExchange (.rpc service) topology
  | event {subscription : EventSubscription} {retryDelayMs deliveryLimit : Int}
    {topology : RabbitMqTopology} :
    compileEventTopology sha256 subscription retryDelayMs deliveryLimit = .ok topology →
    Compiled sha256 rpcExchange (.event subscription) topology
  | reply {route : ReplyRoute} {expiresMs : Int} {topology : RabbitMqTopology} :
    compileReplyTopology route.value rpcExchange expiresMs = .ok topology →
    Compiled sha256 rpcExchange (.reply route) topology

variable {identity : EventIdentity}

namespace Registration

/-- The exchange that the queue of a registration is bound to. -/
def exchange (rpcExchange : String) : Registration → String
  | .rpc _ => rpcExchange
  | .event subscription => subscription.identity.exchangeName
  | .reply _ => rpcExchange

def routingKey : Registration → String
  | .rpc service => rpcBinding service
  | .event subscription => subscription.identity.routingKey
  | .reply route => route.value

lemma words_rpcBinding (service : ServiceIdentity) :
    words (rpcBinding service) = service.labelWords ++ ["*"] := by
  have name : rpcBinding service = service.label ++ "." ++ "*" := by
    rw [rpcBinding, String.append_assoc]
    rfl
  rw [name, service.label_eq_dotted, words_append service.labelWords_word (cons_ne_nil _ _)]
  rfl

lemma matches_rpc {target : RpcTarget} :
    topicMatches (words (rpcBinding service)) (words target.routingKey) = true ↔
      service = target.service := by
  rw [words_rpcBinding, topicMatches_star service.labelWords_literal, target.words_routingKey]
  constructor
  · rintro ⟨w, h⟩
    exact (Address.labelWords_append_inj h).1.symm
  · rintro rfl
    exact ⟨target.method, rfl⟩

lemma matches_event {key} :
    topicMatches (words identity.routingKey) (words key) = true ↔
      words identity.routingKey = words key :=
  topicMatches_exact identity.routingKey_literal

lemma words_rabbitQueue (registration : Registration) :
    words registration.rabbitQueue = registration.address.parts := by
  rw [rabbitQueue_eq, Address.words_queueName, Role.suffix, append_nil]

lemma matches_rabbitQueue (registration : Registration) {key} :
    topicMatches (words registration.rabbitQueue) (words key) = true ↔
      registration.address.parts = words key := by
  rw [words_rabbitQueue]
  exact topicMatches_exact registration.address.parts_literal

lemma parts_length {registration : Registration} (other : ∀ route, registration ≠ .reply route) :
    5 ≤ registration.address.parts.length := by
  cases address : registration.address with
  | rpc | pool | singleton | broadcast =>
    simp [Address.parts, Address.eventParts, ServiceIdentity.labelWords]
  | reply route =>
    cases registration with
    | rpc service => cases address
    | event subscription =>
      change subscription.address = _ at address
      unfold EventSubscription.address at address
      split at address <;> cases address
    | reply route => exact absurd rfl (other route)

lemma reply_ne_routingKey {route} : (reply route).address.parts ≠ words identity.routingKey := by
  intro parts
  rw [identity.words_routingKey] at parts
  -- The second word would be a version and hexadecimal digits at once.
  have version : String.ofList (route.value.toList.drop 6) =
      versionName identity.schemaVersion := (List.cons.inj (List.cons.inj parts).2).1
  have v : 'v' ∈ route.value.toList.drop 6 := by
    rw [← String.toList_ofList (l := route.value.toList.drop 6), version, versionName,
      String.toList_append]
    exact mem_append_left _ (mem_singleton_self _)
  have valid := route.valid
  simp only [isReplyRoute, Bool.and_eq_true, all_eq_true] at valid
  exact absurd (valid.1.2 'v' v) (by decide)

end Registration

section
variable {sha256 : String → String} {rpcExchange exchange key queue : String}
  {registration : Registration} {topology : RabbitMqTopology}

lemma Compiled.shape (h : Compiled sha256 rpcExchange registration topology) :
    (∀ route, registration ≠ .reply route) ∧ Durable sha256 (registration.exchange rpcExchange)
        registration.rabbitQueue registration.routingKey topology ∨
      Transient (registration.exchange rpcExchange) registration.rabbitQueue
        registration.routingKey topology := by
  cases h with
  | rpc h => exact .inl ⟨fun _ same => Registration.noConfusion same, compileRpcTopology_ok h⟩
  | event h =>
    rcases compileEventTopology_ok h with durable | transient
    · exact .inl ⟨fun _ same => Registration.noConfusion same, durable⟩
    · exact .inr transient
  | reply h => exact .inr (compileReplyTopology_ok h)

lemma mem_matching : queue ∈ topology.matching exchange key ↔
    ∃ binding ∈ topology.bindings, binding.exchange = exchange ∧
      topicMatches (words binding.routingKey) (words key) = true ∧ binding.queue = queue := by
  simp only [RabbitMqTopology.matching, mem_map, mem_filter, Bool.and_eq_true, decide_eq_true_eq,
    and_assoc]

/-- A short routing key that does not match at the exchange of the retries leads to the queue of the
registration only. -/
lemma Compiled.mem_matching (h : Compiled sha256 rpcExchange registration topology)
    (short : (words key).length < 5)
    (retry : retryExchangeName sha256 registration.rabbitQueue = exchange →
      topicMatches (words registration.routingKey) (words key) = false) :
    queue ∈ topology.matching exchange key ↔ registration.exchange rpcExchange = exchange ∧
      topicMatches (words registration.routingKey) (words key) = true ∧
      registration.rabbitQueue = queue := by
  rw [Microservices.mem_matching]
  rcases h.shape with ⟨other, durable⟩ | transient
  · rw [durable.bindings]
    constructor
    · rintro ⟨binding, mem, rfl, hkey, rfl⟩
      rcases mem_cons.mp mem with rfl | mem
      · exact ⟨rfl, hkey, rfl⟩
      rcases mem_cons.mp mem with rfl | mem
      · -- The key of a dead letter is the name of its queue, which is longer.
        have same := registration.matches_rabbitQueue.mp hkey
        have long := Registration.parts_length other
        rw [same] at long
        exact absurd short (Nat.not_lt.mpr long)
      · cases mem_singleton.mp mem
        rw [retry rfl] at hkey
        cases hkey
    · rintro ⟨rfl, hkey, rfl⟩
      exact ⟨_, mem_cons_self, rfl, hkey, rfl⟩
  · rw [transient.bindings]
    constructor
    · rintro ⟨_, mem, rfl, hkey, rfl⟩
      cases mem_singleton.mp mem
      exact ⟨rfl, hkey, rfl⟩
    · rintro ⟨rfl, hkey, rfl⟩
      exact ⟨_, mem_cons_self, rfl, hkey, rfl⟩

lemma Compiled.not_mem_matching (h : Compiled sha256 rpcExchange registration topology)
    (short : (words key).length < 5)
    (no : ¬ topicMatches (words registration.routingKey) (words key) = true) :
    queue ∉ topology.matching exchange key := by
  rw [h.mem_matching short fun _ => Bool.eq_false_iff.mpr no]
  exact fun hkey => no hkey.2.1

lemma Compiled.matching_rpc (h : Compiled sha256 rpcExchange registration topology)
    (free : ∀ service, retryExchangeName sha256 (rpcQueue service) ≠ rpcExchange)
    (target : RpcTarget) :
    queue ∈ topology.matching rpcExchange target.routingKey ↔
      registration = .rpc target.service ∧ registration.rabbitQueue = queue := by
  have size : (words target.routingKey).length = 4 := by
    rw [target.words_routingKey]
    rfl
  have short : (words target.routingKey).length < 5 := size ▸ Nat.lt_succ_self 4
  cases registration with
  | rpc service =>
    rw [h.mem_matching short fun same => absurd same (free service)]
    change _ ∧ topicMatches (words (rpcBinding service)) _ = true ∧ _ ↔ _
    rw [Registration.matches_rpc, Registration.rpc.injEq]
    exact and_iff_right rfl
  | event subscription =>
    refine iff_of_false (h.not_mem_matching short fun same => ?_) fun same => nomatch same.1
    have parts := Registration.matches_event.mp same
    rw [subscription.identity.words_routingKey] at parts
    rw [← parts] at size
    cases size
  | reply route =>
    refine iff_of_false (h.not_mem_matching short fun same => ?_) fun same => nomatch same.1
    have parts := (Registration.reply route).matches_rabbitQueue.mp same
    rw [← parts] at size
    cases size

lemma words_retryExchangeName (sha256 : String → String) (registration : Registration) :
    words (retryExchangeName sha256 registration.rabbitQueue) =
        registration.address.parts ++ ["retry"] ∧
      retryExchangeName sha256 registration.rabbitQueue = registration.rabbitQueue ++ ".retry" ∨
    words (retryExchangeName sha256 registration.rabbitQueue) =
        "tori_py" :: "retry" :: words (sha256 registration.rabbitQueue) ∧
      retryExchangeName sha256 registration.rabbitQueue =
        "tori_py.retry." ++ sha256 registration.rabbitQueue := by
  unfold retryExchangeName
  dsimp only
  split
  · refine .inl ⟨?_, rfl⟩
    rw [Registration.rabbitQueue_retry, Address.words_queueName]
    rfl
  · refine .inr ⟨?_, rfl⟩
    have name : ∀ digest : String, "tori_py.retry." ++ digest =
        "tori_py" ++ "." ++ ("retry" ++ "." ++ digest) := by
      intro digest
      apply String.ext
      simp
    rw [name, words_cons _ (by decide), words_cons _ (by decide)]

lemma retryExchangeName_ne_exchangeName (sha256 : String → String) (registration : Registration)
    (identity : EventIdentity) :
    retryExchangeName sha256 registration.rabbitQueue ≠ identity.exchangeName := by
  intro same
  have parts := congrArg words same
  rw [identity.words_exchangeName] at parts
  rcases words_retryExchangeName sha256 registration with ⟨name, -⟩ | ⟨name, -⟩
  · rw [name] at parts
    cases address : registration.address <;> rw [address] at parts <;>
      simp [Address.parts, Address.eventParts] at parts
  · rw [name] at parts
    simp at parts

lemma Compiled.matching_event (h : Compiled sha256 rpcExchange registration topology)
    (identity : EventIdentity) :
    queue ∈ topology.matching identity.exchangeName identity.routingKey ↔
      ∃ subscription, registration = .event subscription ∧ subscription.identity = identity ∧
        registration.rabbitQueue = queue := by
  have size : (words identity.routingKey).length = 2 := by
    rw [identity.words_routingKey]
    rfl
  have short : (words identity.routingKey).length < 5 := by
    rw [size]
    decide
  cases registration with
  | rpc service =>
    refine iff_of_false (h.not_mem_matching short fun same => ?_) ?_
    · change topicMatches (words (rpcBinding service)) _ = true at same
      rw [Registration.words_rpcBinding, topicMatches_star service.labelWords_literal] at same
      obtain ⟨w, parts⟩ := same
      rw [parts] at size
      cases size
    · rintro ⟨subscription, same, -⟩
      cases same
  | event subscription =>
    rw [h.mem_matching short fun same => absurd same (retryExchangeName_ne_exchangeName _ _ _)]
    constructor
    · rintro ⟨exchange, hkey, name⟩
      exact ⟨subscription, rfl,
        EventIdentity.eq_of_route exchange (Registration.matches_event.mp hkey), name⟩
    · rintro ⟨_, same, rfl, name⟩
      cases same
      exact ⟨rfl, Registration.matches_event.mpr rfl, name⟩
  | reply route =>
    refine iff_of_false (h.not_mem_matching short fun same => ?_) ?_
    · have parts := (Registration.reply route).matches_rabbitQueue.mp same
      exact Registration.reply_ne_routingKey parts
    · rintro ⟨_, same, -⟩
      cases same

end

/-! ### The brokers agree -/

/-- No two names that are composed of different things are equal. -/
structure Unambiguous (sha256 : String → String) : Prop where
  label : ∀ {service service' : ServiceIdentity},
    service.label = service'.label → service = service'
  rpcKey : ∀ {target target' : RpcTarget}, target.routingKey = target'.routingKey →
    target.service = target'.service ∧ target.method = target'.method
  eventRoute : ∀ {identity identity' : EventIdentity},
    identity.exchangeName = identity'.exchangeName →
    identity.routingKey = identity'.routingKey → identity = identity'
  memoryQueue : ∀ {registration registration' : Registration},
    registration.memoryQueue = registration'.memoryQueue ↔
      registration.address = registration'.address
  rabbitQueue : ∀ {rpcExchange : String} {registration registration' : Registration}
    {topology topology' : RabbitMqTopology} {i j : Nat} {queue queue' : QueueDeclaration},
    Compiled sha256 rpcExchange registration topology →
    Compiled sha256 rpcExchange registration' topology' →
    topology.queues[i]? = some queue → topology'.queues[j]? = some queue' →
    queue.name = queue'.name → i = j ∧ registration.address = registration'.address
  retryExchange : ∀ {registration registration' : Registration},
    (sha256 registration.rabbitQueue = sha256 registration'.rabbitQueue →
      registration.rabbitQueue = registration'.rabbitQueue) →
    retryExchangeName sha256 registration.rabbitQueue =
      retryExchangeName sha256 registration'.rabbitQueue →
    registration.address = registration'.address
  exchanges : ∀ (identity : EventIdentity) (registration : Registration),
    [defaultRpcExchange, deadLetterExchange, identity.exchangeName,
      retryExchangeName sha256 registration.rabbitQueue].Nodup

/-- A publication goes to the queues of the same registrations in both brokers, and to no queue for
replies. -/
structure Agrees (routes : Routes) (registered : List Registration)
    (topologies : List RabbitMqTopology) (exchange routingKey : String) (native : Option Native) :
    Prop where
  rabbit : ∀ queue, queue ∈ topologies.flatMap (·.matching exchange routingKey) ↔
    ∃ registration ∈ registered, registration.rabbitQueue = queue ∧
      registration.memoryQueue ∈ routes.select routingKey native
  memory : ∀ queue ∈ routes.select routingKey native,
    ∃ registration ∈ registered, registration.memoryQueue = queue
  replies : ∀ route : ReplyRoute, route.value ∉ routes.select routingKey native ∧
    route.value ∉ topologies.flatMap (·.matching exchange routingKey)

/-- The place of the queue with a role among the queues of a topology. -/
def Role.index : Role → Nat
  | .primary => 0
  | .deadLetter => 1
  | .retry => 2

variable {registration : Registration}

lemma Compiled.queue_name {sha256 rpcExchange topology i queue}
    (h : Compiled sha256 rpcExchange registration topology)
    (hqueue : topology.queues[i]? = some queue) :
    ∃ role : Role, role.index = i ∧ registration.address.queueName role = queue.name := by
  have name : (topology.queues.map (·.name))[i]? = some queue.name := by
    rw [getElem?_map, hqueue]
    rfl
  rcases h.shape with ⟨-, durable⟩ | transient
  · rw [durable.queues] at name
    match i with
    | 0 => exact ⟨.primary, rfl, registration.rabbitQueue_eq ▸ Option.some.inj name⟩
    | 1 => exact ⟨.deadLetter, rfl, registration.rabbitQueue_deadLetter ▸ Option.some.inj name⟩
    | 2 => exact ⟨.retry, rfl, registration.rabbitQueue_retry ▸ Option.some.inj name⟩
    | i + 3 => cases name
  · rw [transient.queues] at name
    match i with
    | 0 => exact ⟨.primary, rfl, registration.rabbitQueue_eq ▸ Option.some.inj name⟩
    | i + 1 => cases name

lemma retryExchangeName_inj {sha256} {registration' : Registration}
    (injective : sha256 registration.rabbitQueue = sha256 registration'.rabbitQueue →
      registration.rabbitQueue = registration'.rabbitQueue)
    (same : retryExchangeName sha256 registration.rabbitQueue =
      retryExchangeName sha256 registration'.rabbitQueue) :
    registration.address = registration'.address := by
  have apart : ∀ (address : Address) (rest : List String),
      address.parts ++ ["retry"] ≠ "tori_py" :: "retry" :: rest := by
    intro address rest h
    cases address <;> simp [Address.parts, Address.eventParts] at h
  rcases words_retryExchangeName sha256 registration with ⟨parts, name⟩ | ⟨parts, name⟩
  · rcases words_retryExchangeName sha256 registration' with ⟨parts', -⟩ | ⟨parts', -⟩
    · have suffixed : registration.address.parts ++ Role.retry.suffix =
          registration'.address.parts ++ Role.retry.suffix := by
        rw [Role.suffix, ← parts, ← parts', same]
      exact (Address.parts_inj suffixed).1
    · rw [same, parts'] at parts
      exact absurd parts.symm (apart _ _)
  · rcases words_retryExchangeName sha256 registration' with ⟨parts', -⟩ | ⟨-, name'⟩
    · rw [← same, parts] at parts'
      exact absurd parts'.symm (apart _ _)
    · rw [name, name', String.append_right_inj] at same
      exact Registration.rabbitQueue_inj.mp (injective same)

lemma exchanges_nodup (sha256 : String → String) (identity : EventIdentity)
    (registration : Registration) :
    [defaultRpcExchange, deadLetterExchange, identity.exchangeName,
      retryExchangeName sha256 registration.rabbitQueue].Nodup := by
  have rpc : words defaultRpcExchange = ["tori_py", "rpc"] := by decide
  have dead : words deadLetterExchange = ["tori_py", "dead-letter"] := by decide
  apply List.Nodup.of_map words
  simp only [map_cons, map_nil, rpc, dead, identity.words_exchangeName]
  rcases words_retryExchangeName sha256 registration with ⟨name, -⟩ | ⟨name, -⟩
  · rw [name]
    cases registration.address <;>
      simp [Address.parts, Address.eventParts, ServiceIdentity.labelWords]
  · rw [name]
    simp

lemma unambiguous (sha256 : String → String) : Unambiguous sha256 where
  label := ServiceIdentity.label_inj.mp
  rpcKey := by
    intro target target' same
    have parts := congrArg words same
    rw [RpcTarget.words_routingKey, RpcTarget.words_routingKey] at parts
    obtain ⟨service, method⟩ := Address.labelWords_append_inj parts
    exact ⟨service, singleton_inj.mp method⟩
  eventRoute := fun exchange key => EventIdentity.eq_of_route exchange (congrArg words key)
  memoryQueue := Registration.memoryQueue_inj
  rabbitQueue := by
    intro rpcExchange registration registration' topology topology' i j queue queue' h h' hi hj same
    obtain ⟨_, rfl, name⟩ := h.queue_name hi
    obtain ⟨_, rfl, name'⟩ := h'.queue_name hj
    rw [← name, ← name', Address.queueName_inj] at same
    exact ⟨congrArg Role.index same.2, same.1⟩
  retryExchange := retryExchangeName_inj
  exchanges := exchanges_nodup sha256

def Address.event : Address → Option EventIdentity
  | .rpc _ => none
  | .pool identity _ _ => some identity
  | .singleton identity _ => some identity
  | .broadcast identity _ _ _ => some identity
  | .reply _ => none

lemma EventSubscription.event_address (subscription : EventSubscription) :
    subscription.address.event = some subscription.identity := by
  unfold EventSubscription.address
  split <;> rfl

def Registration.For (identity : EventIdentity) (registration : Registration) : Prop :=
  ∃ subscription, registration = .event subscription ∧ subscription.identity = identity

lemma Registration.for_iff :
    registration.For identity ↔ registration.address.event = some identity := by
  constructor
  · rintro ⟨subscription, rfl, rfl⟩
    exact subscription.event_address
  intro h
  cases registration with
  | rpc service | reply route => cases h
  | event subscription =>
    exact ⟨subscription, rfl, Option.some.inj (subscription.event_address.symm.trans h)⟩

section
variable {sha256 : String → String} {rpcExchange exchange key : String} {routes : Routes}
  {registered : List Registration} {topologies : List RabbitMqTopology} {native : Option Native}
  {P : Registration → Prop}

lemma mem_flatMap_matching {queue}
    (compiled : List.Forall₂ (Compiled sha256 rpcExchange) registered topologies)
    (h : ∀ {registration topology}, Compiled sha256 rpcExchange registration topology →
      (queue ∈ topology.matching exchange key ↔ P registration)) :
    queue ∈ topologies.flatMap (·.matching exchange key) ↔
      ∃ registration ∈ registered, P registration := by
  induction compiled with
  | nil => simp
  | cons first _ ih => rw [flatMap_cons, mem_append, h first, ih, exists_mem_cons_iff]

/-- The brokers agree on a publication if both choose the queues of the registrations that meet a
condition on their addresses which no reply meets. -/
lemma Agrees.of_condition
    (compiled : List.Forall₂ (Compiled sha256 rpcExchange) registered topologies)
    (matching : ∀ {registration topology queue}, Compiled sha256 rpcExchange registration topology →
      (queue ∈ topology.matching exchange key ↔
        P registration ∧ registration.rabbitQueue = queue))
    (select : ∀ queue, queue ∈ routes.select key native ↔
      ∃ registration ∈ registered, P registration ∧ registration.memoryQueue = queue)
    (closed : ∀ {registration registration'},
      registration.address = registration'.address → P registration → P registration')
    (noReply : ∀ route, ¬ P (.reply route)) :
    Agrees routes registered topologies exchange key native := by
  -- A registration is chosen by its own queue, since another one with that queue has its address.
  have chosen : ∀ registration, registration.memoryQueue ∈ routes.select key native →
      P registration := by
    intro registration selected
    obtain ⟨_, -, condition, same⟩ := (select _).mp selected
    exact closed (Registration.memoryQueue_inj.mp same) condition
  have rabbit : ∀ queue, queue ∈ topologies.flatMap (·.matching exchange key) ↔
      ∃ registration ∈ registered, P registration ∧ registration.rabbitQueue = queue :=
    fun queue => mem_flatMap_matching compiled matching
  refine ⟨fun queue => ?_, fun queue selected => ?_, fun route => ⟨fun selected => ?_, ?_⟩⟩
  · rw [rabbit]
    constructor
    · rintro ⟨registration, mem, condition, name⟩
      exact ⟨registration, mem, name, (select _).mpr ⟨registration, mem, condition, rfl⟩⟩
    · rintro ⟨registration, mem, name, selected⟩
      exact ⟨registration, mem, chosen registration selected, name⟩
  · obtain ⟨registration, mem, -, name⟩ := (select queue).mp selected
    exact ⟨registration, mem, name⟩
  · exact noReply route (chosen (.reply route) selected)
  rw [rabbit]
  rintro ⟨registration, -, condition, name⟩
  have address : registration.address = (Registration.reply route).address :=
    Registration.rabbitQueue_inj.mp name
  exact noReply route (closed address condition)

lemma agrees_rpc (h : routes.Registered registered)
    (free : ∀ service, retryExchangeName sha256 (rpcQueue service) ≠ rpcExchange)
    (compiled : List.Forall₂ (Compiled sha256 rpcExchange) registered topologies)
    (target : RpcTarget) :
    Agrees routes registered topologies rpcExchange target.routingKey none := by
  apply Agrees.of_condition (P := (· = .rpc target.service)) compiled
  · intro registration topology queue h
    exact h.matching_rpc free target
  · intro queue
    rw [Routes.select_rpc h]
    constructor
    · rintro ⟨mem, name⟩
      exact ⟨_, mem, rfl, name⟩
    · rintro ⟨registration, mem, rfl, name⟩
      exact ⟨mem, name⟩
  · rintro registration registration' same rfl
    exact Registration.address_rpc same.symm
  · intro route same
    cases same

lemma agrees_event (h : routes.Registered registered) (keyed : routes.Keyed)
    (compiled : List.Forall₂ (Compiled sha256 rpcExchange) registered topologies)
    (identity : EventIdentity) :
    Agrees routes registered topologies identity.exchangeName identity.routingKey
      (some (.route identity.exchangeName identity.routingKey)) := by
  apply Agrees.of_condition (P := Registration.For identity) compiled
  · intro registration topology queue h
    rw [h.matching_event identity]
    constructor
    · rintro ⟨subscription, same, event, name⟩
      exact ⟨⟨subscription, same, event⟩, name⟩
    · rintro ⟨⟨subscription, same, event⟩, name⟩
      exact ⟨subscription, same, event, name⟩
  · intro queue
    rw [Routes.select_event h keyed]
    constructor
    · rintro ⟨subscription, mem, event, name⟩
      exact ⟨_, mem, ⟨subscription, rfl, event⟩, name⟩
    · rintro ⟨registration, mem, ⟨subscription, rfl, event⟩, name⟩
      exact ⟨subscription, mem, event, name⟩
  · intro registration registration' same condition
    rw [Registration.for_iff] at condition ⊢
    rw [← same]
    exact condition
  · rintro route ⟨_, same, -⟩
    cases same

end

/-- Names are unambiguous up to what the mode of a subscription distinguishes. The tables that a run
of the in-memory broker leads to are those of some registrations, and for any such registrations
both brokers route every request and every event alike, a request to the queue of its service. -/
theorem routes_agree (sha256 : String → String) {rpcExchange : String}
    (free : ∀ service, retryExchangeName sha256 (rpcQueue service) ≠ rpcExchange)
    {limits : BrokerLimits} {broker : Broker} (run : Reachable (Broker.step limits) {} broker) :
    Unambiguous sha256 ∧ (∃ registered, broker.routes.Registered registered) ∧
      ∀ (registered : List Registration) (topologies : List RabbitMqTopology),
        broker.routes.Registered registered →
        List.Forall₂ (Compiled sha256 rpcExchange) registered topologies →
        (∀ target : RpcTarget,
          Agrees broker.routes registered topologies rpcExchange target.routingKey none ∧
          ∀ queue ∈ broker.routes.select target.routingKey none,
            queue = Broker.rpcQueueName target.service) ∧
        ∀ identity : EventIdentity,
          Agrees broker.routes registered topologies identity.exchangeName identity.routingKey
            (some (.route identity.exchangeName identity.routingKey)) := by
  obtain ⟨keyed, exist⟩ := (Broker.leads_of_reachable run).exists_registered
  refine ⟨unambiguous sha256, exist, fun registered topologies h compiled => ⟨?_, ?_⟩⟩
  · intro target
    refine ⟨agrees_rpc h free compiled target, fun queue selected => ?_⟩
    exact ((Routes.select_rpc h target queue).mp selected).2.symm
  · exact agrees_event h keyed compiled

/-! ### A service with a subscription -/

/-- A singleton subscription to an event of the service. -/
def ordersSingleton (destination : Option ServiceIdentity) : EventSubscription where
  identity := placedEvent
  mode := .singleton
  subscription := "billing"
  destination := destination
  instanceId := none
  reliable := true
  subscription_alias := by decide
  instanceId_alias := by decide
  reliable_of_mode := by decide
  destination_of_mode := fun ne => absurd rfl ne
  instanceId_of_mode := by decide

/-- What a server of the service registers, and the replies of a client. -/
def ordersRegistrations : List Registration :=
  [.rpc ordersService, .event (ordersSingleton none),
    .reply ⟨"reply.0123456789abcdef0123456789abcdef", by decide⟩]

theorem routes_agree_orders : ∃ broker topologies,
    exec (Broker.step {}) {} [.create ordersService "a" 1,
      .prepare 0 ["place"] [ordersSingleton none]] = some broker ∧
    List.Forall₂ (Compiled id defaultRpcExchange) ordersRegistrations topologies ∧
    ∀ target : RpcTarget, Agrees broker.routes ordersRegistrations topologies defaultRpcExchange
      target.routingKey none := by
  have evaluated : (exec (Broker.step {}) {} [.create ordersService "a" 1,
      .prepare 0 ["place"] [ordersSingleton none]]).map (·.routes) =
      some ((Routes.addRpc {} ordersService.label (Broker.rpcQueueName ordersService)).addEvent
        (ordersSingleton none).route (eventQueueName (ordersSingleton none))) := by
    rfl
  obtain ⟨broker, run, routes⟩ := Option.map_eq_some_iff.mp evaluated
  have registered : broker.routes.Registered ordersRegistrations := by
    rw [routes]
    exact Routes.registered_reply
      (Routes.registered_addEvent (Routes.registered_addRpc Routes.registered_empty _) _) _
  have free : ∀ service, retryExchangeName id (rpcQueue service) ≠ defaultRpcExchange := by
    intro service same
    have nodup := exchanges_nodup id (ordersSingleton none).identity (.rpc service)
    change [_, _, _, retryExchangeName id (rpcQueue service)].Nodup at nodup
    rw [same] at nodup
    simp at nodup
  obtain ⟨rpc, hrpc⟩ : ∃ topology, compileRpcTopology id ordersService = .ok topology := ⟨_, rfl⟩
  obtain ⟨event, hevent⟩ : ∃ topology,
      compileEventTopology id (ordersSingleton none) = .ok topology := ⟨_, rfl⟩
  obtain ⟨reply, hreply⟩ : ∃ topology,
      compileReplyTopology "reply.0123456789abcdef0123456789abcdef" = .ok topology := ⟨_, rfl⟩
  have compiled : List.Forall₂ (Compiled id defaultRpcExchange) ordersRegistrations
      [rpc, event, reply] :=
    .cons (.rpc hrpc) (.cons (.event hevent) (.cons (.reply hreply) .nil))
  obtain ⟨-, -, agree⟩ := routes_agree id free (Reach.of_exec .refl run)
  exact ⟨broker, _, run, compiled, fun target => ((agree _ _ registered compiled).1 target).1⟩

/-- Two singleton subscriptions with different destinations have one queue. -/
theorem singleton_shares_queue : ∃ subscription subscription' : EventSubscription,
    subscription.destination ≠ subscription'.destination ∧
      eventQueueName subscription = eventQueueName subscription' ∧
      eventQueue subscription = eventQueue subscription' :=
  ⟨ordersSingleton none, ordersSingleton (some ordersService), by decide, rfl, rfl⟩

end ToriPy.Microservices
