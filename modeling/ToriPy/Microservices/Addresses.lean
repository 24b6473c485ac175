import ToriPy.Microservices.Broker
import ToriPy.Microservices.Topology

/-!
# Addresses

What a queue is for: the requests of a service, the events of a subscription in one of the three
modes, or the replies of a client. An `Address` has what its mode distinguishes and no more: the
subscription of a pool belongs to its destination, a singleton is shared by all services that declare
it, and every instance of a broadcast has its own.

Both brokers name a queue by the dotted parts of its address, so that two registrations have one
queue exactly if they have one address. The queues that RabbitMQ has beside it, for dead letters and
for retries, are named by one more part and are told apart by the same argument.
-/

namespace ToriPy.Microservices

open List

/-- The values of `_ALIAS_PATTERN`. -/
abbrev Alias := { value : String // isAlias value = true }

/-- What a queue is for. -/
inductive Address where
  | rpc (service : ServiceIdentity)
  | pool (identity : EventIdentity) (destination : ServiceIdentity) (subscription : Alias)
  | singleton (identity : EventIdentity) (subscription : Alias)
  | broadcast (identity : EventIdentity) (destination : ServiceIdentity) (subscription : Alias)
      (instanceId : Alias)
  | reply (route : ReplyRoute)
deriving DecidableEq

def EventSubscription.address (subscription : EventSubscription) : Address :=
  let name : Alias := ⟨subscription.subscription, subscription.subscription_alias⟩
  match mode : subscription.mode with
  | .servicePool =>
    .pool subscription.identity
      (subscription.destination.get (subscription.destination_of_mode (by rw [mode]; nofun))) name
  | .singleton => .singleton subscription.identity name
  | .broadcast =>
    .broadcast subscription.identity
      (subscription.destination.get (subscription.destination_of_mode (by rw [mode]; nofun))) name
      ⟨subscription.instanceId.get (subscription.instanceId_of_mode mode),
        subscription.instanceId_alias _ (Option.get_mem _)⟩

/-- What is registered with a broker. -/
inductive Registration where
  | rpc (service : ServiceIdentity)
  | event (subscription : EventSubscription)
  | reply (route : ReplyRoute)

namespace Registration

def address : Registration → Address
  | .rpc service => .rpc service
  | .event subscription => subscription.address
  | .reply route => .reply route

def memoryQueue : Registration → String
  | .rpc service => Broker.rpcQueueName service
  | .event subscription => eventQueueName subscription
  | .reply route => route.value

def rabbitQueue : Registration → String
  | .rpc service => RabbitMq.rpcQueue service
  | .event subscription => RabbitMq.eventQueue subscription
  | .reply route => route.value

end Registration

/-! ### The parts of a name -/

namespace Address

def modeText : DispatchMode → String
  | .servicePool => "--pool"
  | .singleton => "--singleton"
  | .broadcast => "--broadcast"

def eventParts (identity : EventIdentity) (mode : DispatchMode) : List String :=
  "tori_py" :: "event" :: identity.source.labelWords ++
    [identity.event, versionName identity.schemaVersion ++ modeText mode]

def parts : Address → List String
  | .rpc service => "tori_py" :: "rpc" :: service.labelWords
  | .pool identity destination subscription =>
    eventParts identity .servicePool ++ destination.labelWords ++ [subscription.1]
  | .singleton identity subscription => eventParts identity .singleton ++ [subscription.1]
  | .broadcast identity destination subscription instanceId =>
    eventParts identity .broadcast ++ destination.labelWords ++ [subscription.1, instanceId.1]
  | .reply route => ["reply", .ofList (route.value.toList.drop 6)]

end Address

/-- The role of a queue: it takes the messages of its address, those that were given up, or those
that wait to be tried again. -/
inductive Role where
  | primary
  | deadLetter
  | retry
deriving DecidableEq

def Role.suffix : Role → List String
  | .primary => []
  | .deadLetter => ["dead-letter"]
  | .retry => ["retry"]

lemma not_mem_versionName {c} (version : Nat) (v : c ≠ 'v') (digit : c.isDigit = false) :
    c ∉ (versionName version).toList := by
  intro mem
  rw [versionName, String.toList_append] at mem
  rcases mem_append.mp mem with mem | mem
  · exact v (mem_singleton.mp mem)
  · exact absurd (isDigit_of_mem_repr mem) (digit ▸ Bool.false_ne_true)

variable {identity identity' : EventIdentity}

lemma EventIdentity.ext_of (source : identity.source = identity'.source)
    (event : identity.event = identity'.event)
    (version : identity.schemaVersion = identity'.schemaVersion) : identity = identity' := by
  cases identity
  cases identity'
  cases source
  cases event
  cases version
  rfl

namespace Address

variable {mode mode' : DispatchMode} {rest rest' : List String} {role role' : Role}

lemma modeWord_inj {version version'} :
    versionName version ++ modeText mode = versionName version' ++ modeText mode' ↔
      version = version' ∧ mode = mode' := by
  constructor
  · intro h
    have dash : ∀ mode, ∃ rest, (modeText mode).toList = '-' :: rest := by
      rintro (_ | _ | _) <;> exact ⟨_, rfl⟩
    obtain ⟨_, hrest⟩ := dash mode
    obtain ⟨_, hrest'⟩ := dash mode'
    -- The version has no dash, so it is what stands before the first one.
    have absent := fun version => not_mem_versionName version (c := '-') (by decide) (by decide)
    have texts := congrArg String.toList h
    rw [String.toList_append, String.toList_append, hrest, hrest'] at texts
    have first := (append_cons_inj (absent version) (absent version') texts).1
    rw [String.toList_inj, versionName_inj] at first
    subst first
    rw [String.append_right_inj] at h
    refine ⟨rfl, ?_⟩
    revert h
    cases mode <;> cases mode' <;> decide
  · rintro ⟨rfl, rfl⟩
    rfl

lemma eventParts_inj (h : eventParts identity mode ++ rest = eventParts identity' mode' ++ rest') :
    identity = identity' ∧ mode = mode' ∧ rest = rest' := by
  obtain ⟨parts, same⟩ := append_inj h rfl
  simp only [eventParts, cons_append, List.cons.injEq, true_and] at parts
  obtain ⟨source, last⟩ := append_inj parts rfl
  simp only [List.cons.injEq, modeWord_inj, and_true] at last
  obtain ⟨event, version, mode⟩ := last
  exact ⟨EventIdentity.ext_of (ServiceIdentity.labelWords_inj.mp source) event version, mode, same⟩

lemma labelWords_append_inj {service service' : ServiceIdentity}
    (h : service.labelWords ++ rest = service'.labelWords ++ rest') :
    service = service' ∧ rest = rest' := by
  obtain ⟨words, same⟩ := append_inj h rfl
  exact ⟨ServiceIdentity.labelWords_inj.mp words, same⟩

lemma suffix_inj (h : role.suffix = role'.suffix) : role = role' := by
  revert h
  cases role <;> cases role' <;> decide

lemma reply_inj {route route' : ReplyRoute}
    (h : route.value.toList.drop 6 = route'.value.toList.drop 6) : route = route' := by
  have start : ∀ route : ReplyRoute, route.value.toList.take 6 = "reply.".toList := by
    intro route
    have valid := route.valid
    simp only [isReplyRoute, Bool.and_eq_true, decide_eq_true_eq] at valid
    exact valid.1.1
  have same : route.value = route'.value := by
    rw [← String.toList_inj, ← take_append_drop 6 route.value.toList,
      ← take_append_drop 6 route'.value.toList, start, start, h]
  cases route
  cases route'
  cases same
  rfl

lemma parts_inj {a a' : Address}
    (h : a.parts ++ role.suffix = a'.parts ++ role'.suffix) : a = a' ∧ role = role' := by
  cases a with
  | rpc =>
    cases a' with
    | rpc =>
      simp only [parts, cons_append, List.cons.injEq, true_and] at h
      obtain ⟨rfl, suffix⟩ := labelWords_append_inj h
      exact ⟨rfl, suffix_inj suffix⟩
    | _ => simp [parts, eventParts] at h
  | pool =>
    cases a' with
    | rpc | reply => simp [parts, eventParts] at h
    | pool =>
      simp only [parts, append_assoc] at h
      obtain ⟨rfl, -, rest⟩ := eventParts_inj h
      obtain ⟨rfl, last⟩ := labelWords_append_inj rest
      obtain ⟨name, suffix⟩ := List.cons.inj last
      rw [Subtype.ext name, suffix_inj suffix]
      exact ⟨rfl, rfl⟩
    | singleton | broadcast =>
      simp only [parts, append_assoc] at h
      cases (eventParts_inj h).2.1
  | singleton =>
    cases a' with
    | rpc | reply => simp [parts, eventParts] at h
    | singleton =>
      simp only [parts, append_assoc] at h
      obtain ⟨rfl, -, rest⟩ := eventParts_inj h
      obtain ⟨name, suffix⟩ := List.cons.inj rest
      rw [Subtype.ext name, suffix_inj suffix]
      exact ⟨rfl, rfl⟩
    | pool | broadcast =>
      simp only [parts, append_assoc] at h
      cases (eventParts_inj h).2.1
  | broadcast =>
    cases a' with
    | rpc | reply => simp [parts, eventParts] at h
    | broadcast =>
      simp only [parts, append_assoc] at h
      obtain ⟨rfl, -, rest⟩ := eventParts_inj h
      obtain ⟨rfl, last⟩ := labelWords_append_inj rest
      obtain ⟨name, last⟩ := List.cons.inj last
      obtain ⟨inst, suffix⟩ := List.cons.inj last
      rw [Subtype.ext name, Subtype.ext inst, suffix_inj suffix]
      exact ⟨rfl, rfl⟩
    | pool | singleton =>
      simp only [parts, append_assoc] at h
      cases (eventParts_inj h).2.1
  | reply =>
    cases a' with
    | reply =>
      simp only [parts, cons_append, nil_append, List.cons.injEq, true_and, String.ofList_inj] at h
      rw [reply_inj h.1, suffix_inj h.2]
      exact ⟨rfl, rfl⟩
    | _ => simp [parts, eventParts] at h

lemma eventParts_literal (identity : EventIdentity) (mode : DispatchMode) :
    ∀ w ∈ eventParts identity mode, Literal w := by
  intro w mem
  simp only [eventParts, cons_append, mem_cons, mem_append, not_mem_nil, or_false] at mem
  rcases mem with rfl | rfl | mem | rfl | rfl
  · decide
  · decide
  · exact identity.source.labelWords_literal w mem
  · exact literal_of_isAlias identity.event_alias
  · refine (literal_versionName _).append ?_
    cases mode <;> decide

lemma parts_literal (a : Address) : ∀ w ∈ a.parts, Literal w := by
  intro w mem
  cases a with
  | rpc service =>
    simp only [parts, mem_cons] at mem
    rcases mem with rfl | rfl | mem
    · decide
    · decide
    · exact service.labelWords_literal w mem
  | pool identity destination subscription =>
    simp only [parts, mem_append, mem_singleton] at mem
    rcases mem with (mem | mem) | rfl
    · exact eventParts_literal identity _ w mem
    · exact destination.labelWords_literal w mem
    · exact literal_of_isAlias subscription.2
  | singleton identity subscription =>
    simp only [parts, mem_append, mem_singleton] at mem
    rcases mem with mem | rfl
    · exact eventParts_literal identity _ w mem
    · exact literal_of_isAlias subscription.2
  | broadcast identity destination subscription instanceId =>
    simp only [parts, mem_append, mem_cons, not_mem_nil, or_false] at mem
    rcases mem with (mem | mem) | rfl | rfl
    · exact eventParts_literal identity _ w mem
    · exact destination.labelWords_literal w mem
    · exact literal_of_isAlias subscription.2
    · exact literal_of_isAlias instanceId.2
  | reply route =>
    simp only [parts, mem_cons, not_mem_nil, or_false] at mem
    rcases mem with rfl | rfl
    · decide
    have valid := route.valid
    simp only [isReplyRoute, Bool.and_eq_true, all_eq_true] at valid
    intro c mem
    rw [String.toList_ofList] at mem
    have digit := valid.1.2 c mem
    refine ⟨?_, ?_, ?_⟩ <;> rintro rfl <;> exact absurd digit (by decide)

lemma parts_ne_nil (a : Address) : a.parts ≠ [] := by
  cases a <;> exact cons_ne_nil _ _

def queueName (a : Address) (role : Role) : String := dotted (a.parts ++ role.suffix)

lemma words_queueName (a : Address) (role : Role) :
    words (a.queueName role) = a.parts ++ role.suffix := by
  apply words_dotted
  · intro w mem
    rcases mem_append.mp mem with mem | mem
    · exact (a.parts_literal w mem).word
    · have all : ∀ w ∈ role.suffix, Literal w := by cases role <;> decide
      exact (all w mem).word
  · exact append_ne_nil_of_left_ne_nil a.parts_ne_nil _

lemma queueName_suffix (a : Address) (role : Role) {w} (h : role.suffix = [w]) :
    a.queueName role = a.queueName .primary ++ "." ++ w := by
  have append : dotted (a.parts ++ [w]) = dotted a.parts ++ "." ++ dotted [w] :=
    dotted_append a.parts_ne_nil (cons_ne_nil w [])
  rw [queueName, h, append, queueName, Role.suffix, append_nil]
  rfl

/-- A name belongs to one address and one role. -/
theorem queueName_inj {a a' : Address} :
    a.queueName role = a'.queueName role' ↔ a = a' ∧ role = role' := by
  constructor
  · intro h
    apply parts_inj
    rw [← words_queueName, ← words_queueName, h]
  · rintro ⟨rfl, rfl⟩
    rfl

end Address

/-! ### The names of the brokers -/

lemma eventQueueName_eq (subscription : EventSubscription) :
    eventQueueName subscription = subscription.address.queueName .primary := by
  obtain ⟨_, mode, _, destination, instanceId, _, _, _, _, destination_of_mode,
    instanceId_of_mode⟩ := subscription
  apply String.ext
  cases mode
  case' servicePool =>
    obtain ⟨destination, rfl⟩ := Option.isSome_iff_exists.mp (destination_of_mode nofun)
  case' broadcast =>
    obtain ⟨_, rfl⟩ := Option.isSome_iff_exists.mp (destination_of_mode nofun)
    obtain ⟨_, rfl⟩ := Option.isSome_iff_exists.mp (instanceId_of_mode rfl)
  all_goals
    simp [eventQueueName, EventSubscription.address, Address.queueName, Address.parts,
      Address.eventParts, Role.suffix, ServiceIdentity.labelWords, dotted, ServiceIdentity.label,
      serviceLabel, Address.modeText]

namespace Registration

lemma rabbitQueue_eq (registration : Registration) :
    registration.rabbitQueue = registration.address.queueName .primary := by
  cases registration with
  | rpc =>
    apply String.ext
    simp [rabbitQueue, RabbitMq.rpcQueue, address, Address.queueName, Address.parts, Role.suffix,
      ServiceIdentity.labelWords, dotted, ServiceIdentity.label, serviceLabel]
  | event subscription => exact eventQueueName_eq subscription
  | reply route =>
    have valid := route.valid
    simp only [isReplyRoute, Bool.and_eq_true, decide_eq_true_eq] at valid
    apply String.ext
    change route.value.toList = ("reply" ++ "." ++ String.ofList (route.value.toList.drop 6)).toList
    rw [String.toList_append, String.toList_ofList]
    change _ = "reply.".toList ++ _
    rw [← valid.1.1, take_append_drop]

lemma rabbitQueue_deadLetter (registration : Registration) :
    registration.rabbitQueue ++ ".dead-letter" = registration.address.queueName .deadLetter := by
  rw [rabbitQueue_eq, Address.queueName_suffix _ .deadLetter rfl, String.append_assoc]
  rfl

lemma rabbitQueue_retry (registration : Registration) :
    registration.rabbitQueue ++ ".retry" = registration.address.queueName .retry := by
  rw [rabbitQueue_eq, Address.queueName_suffix _ .retry rfl, String.append_assoc]
  rfl

/-- Registrations have one queue in RabbitMQ exactly if they have one address. -/
theorem rabbitQueue_inj {registration registration' : Registration} :
    registration.rabbitQueue = registration'.rabbitQueue ↔
      registration.address = registration'.address := by
  rw [rabbitQueue_eq, rabbitQueue_eq, Address.queueName_inj, and_iff_left rfl]

lemma words_memoryQueue_rpc (service : ServiceIdentity) :
    words (Registration.rpc service).memoryQueue = "rpc" :: service.labelWords := by
  change words ("rpc" ++ "." ++ service.label) = _
  rw [words_cons _ (by decide), service.label_eq_dotted,
    words_dotted service.labelWords_word (cons_ne_nil _ _)]

variable {registration : Registration}

lemma memoryQueue_other (other : ∀ service, registration ≠ .rpc service) :
    registration.memoryQueue = registration.rabbitQueue := by
  cases registration with
  | rpc service => exact absurd rfl (other service)
  | event | reply => rfl

lemma memoryQueue_rpc_ne (other : ∀ service, registration ≠ .rpc service)
    (service : ServiceIdentity) :
    (Registration.rpc service).memoryQueue ≠ registration.memoryQueue := by
  intro same
  have parts := congrArg words same
  rw [words_memoryQueue_rpc, memoryQueue_other other, rabbitQueue_eq, Address.words_queueName]
    at parts
  cases address : registration.address <;> rw [address] at parts <;>
    exact absurd (List.cons.inj parts).1 (by decide)

lemma address_rpc {service} (h : registration.address = .rpc service) :
    registration = .rpc service := by
  cases registration with
  | rpc =>
    cases h
    rfl
  | event subscription =>
    change subscription.address = _ at h
    unfold EventSubscription.address at h
    split at h <;> cases h
  | reply => cases h

/-- Registrations have one queue in memory exactly if they have one address. -/
theorem memoryQueue_inj {registration registration' : Registration} :
    registration.memoryQueue = registration'.memoryQueue ↔
      registration.address = registration'.address := by
  constructor
  · intro same
    cases registration with
    | rpc service =>
      cases registration' with
      | rpc =>
        have parts := congrArg words same
        rw [words_memoryQueue_rpc, words_memoryQueue_rpc, List.cons.injEq] at parts
        exact congrArg Address.rpc (ServiceIdentity.labelWords_inj.mp parts.2)
      | event | reply => exact absurd same (memoryQueue_rpc_ne (by intro _ h; cases h) service)
    | event | reply =>
      cases registration' with
      | rpc service => exact absurd same.symm (memoryQueue_rpc_ne (by intro _ h; cases h) service)
      | event | reply => exact rabbitQueue_inj.mp same
  · intro same
    by_cases h : ∃ service, registration = .rpc service
    · obtain ⟨service, rfl⟩ := h
      rw [address_rpc same.symm]
    have other : ∀ service, registration ≠ .rpc service := fun service h' => h ⟨service, h'⟩
    have other' : ∀ service, registration' ≠ .rpc service := by
      rintro service rfl
      exact other service (address_rpc same)
    rw [memoryQueue_other other, memoryQueue_other other', rabbitQueue_inj]
    exact same

end Registration

end ToriPy.Microservices
