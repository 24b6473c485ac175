import ToriPy.Base.Names
import ToriPy.Base.Transition
import ToriPy.PersistentStreams.Log

/-!
# Physical streams of the RabbitMQ log

`RabbitMqPersistentLog` keeps a logical stream with one partition in a RabbitMQ stream of its name,
and a logical stream with several partitions in streams with the numbers of the partitions behind its
name. The model has declaration (`topology.py`), the names (`log.py`), publication and reading, for
any answers of the broker: each call to it is an argument of the action that makes it.

The name of a stream with one partition may be that of a partition of another stream, and
`_declare_regular` takes a stream that exists for its own. Where no such names are declared, the
physical names are injective and every record is read where it was appended; where they are, the
names are not injective (`separated_iff`).
-/

namespace ToriPy.PersistentStreams.RabbitMq

/-- The failures of the adapter: those of the core package and `TopologyConflictError`. -/
inductive RabbitError where
  | streams (error : StreamsError)
  | topologyConflict (message : String)

/-- `DeclarationMode`. -/
inductive DeclarationMode where
  | create
  | requireExisting
deriving DecidableEq

/-- `TopologyPreflight`, but for the facts that it never verifies. -/
structure TopologyPreflight where
  kind : String
  physicalStreams : List String
  bindingKeys : List String

/-- What the broker answers to the calls of a declaration, in the order of the source. -/
structure BrokerAnswers where
  streamExists : Except RabbitError Bool
  superPartitions : Except RabbitError (Option (List String))
  created : Except RabbitError Unit
  superPartitionsAfter : Except RabbitError (Option (List String))
  routes : String → Except RabbitError (List String)

/-- The options of the adapter that a declaration reads. -/
structure Options where
  declaration : DeclarationMode := .create
  maxStreams : Nat := 1024

/-- The physical name of a partition of a stream with several partitions. -/
def partitionName (name : String) (partition : Nat) : String :=
  name ++ "-" ++ Nat.repr partition

/-- `_physical`, for the definition of the stream. -/
def physicalName (definition : StreamDefinition) (partition : Nat) : String :=
  if definition.partitionCount = 1 then definition.name
  else partitionName definition.name partition

/-- `_declare_regular`. -/
def declareRegular (options : Options) (answers : BrokerAnswers) (definition : StreamDefinition) :
    Except RabbitError TopologyPreflight := do
  let found ← answers.streamExists
  if found = false then
    let superPartitions ← answers.superPartitions
    require (superPartitions = none)
      (.topologyConflict "Super Stream exists where a regular stream is required")
  require (found = true ∨ options.declaration ≠ .requireExisting)
    (.streams (.unknownStream definition.name))
  if found = false then
    answers.created
    let superPartitions ← answers.superPartitionsAfter
    require (superPartitions = none)
      (.topologyConflict "Super Stream exists where a regular stream is required")
  .ok ⟨"regular", [definition.name], []⟩

/-- One round of `_inspect_routes`. -/
def inspectRoute (answers : BrokerAnswers) (key : String) : Except RabbitError String := do
  match ← answers.routes key with
  | [selected] => .ok selected
  | _ => .error (.topologyConflict "binding key does not select one partition")

/-- `_declare_super`. -/
def declareSuper (options : Options) (answers : BrokerAnswers) (definition : StreamDefinition) :
    Except RabbitError TopologyPreflight := do
  let bindingKeys := (List.range definition.partitionCount).map Nat.repr
  let physical := bindingKeys.map (definition.name ++ "-" ++ ·)
  let regularExists ← answers.streamExists
  require (regularExists = false)
    (.topologyConflict "regular stream exists where Super Stream is required")
  let actual ← answers.superPartitions
  let actual ← match actual with
    | some partitions => pure (some partitions)
    | none => do
      require (options.declaration ≠ .requireExisting)
        (.streams (.unknownStream definition.name))
      answers.created
      answers.superPartitionsAfter
  require (actual.getD [] = physical)
    (.topologyConflict "Super Stream partition topology conflicts")
  let routes ← bindingKeys.mapM (inspectRoute answers)
  require (routes = physical) (.topologyConflict "Super Stream binding topology conflicts")
  .ok ⟨"super", physical, bindingKeys⟩

/-- The branch of `declare_stream` on the number of partitions. -/
def declarePhysical (options : Options) (answers : BrokerAnswers) (definition : StreamDefinition) :
    Except RabbitError TopologyPreflight :=
  if definition.partitionCount = 1 then declareRegular options answers definition
  else declareSuper options answers definition

/-- The part of `RabbitMqPersistentLog` that declarations and names use. -/
structure RabbitLog where
  options : Options := {}
  definitions : Dict String StreamDefinition := ∅
  topology : Dict String TopologyPreflight := ∅
  closed : Bool := false
  accepting : Bool := false

namespace RabbitLog

/-- `_require_open`. -/
def requireOpen (log : RabbitLog) : Except RabbitError Unit :=
  require (log.closed = false) (.streams (.lifecycle "RabbitMQ persistent log is closed"))

/-- `_require_available`; `accepting` is `_started` without `_quiescing` and `_failed`. -/
def requireAvailable (log : RabbitLog) : Except RabbitError Unit := do
  log.requireOpen
  require (log.accepting = true)
    (.streams (.lifecycle "RabbitMQ persistent log is not accepting work"))

/-- `_definition`. -/
def definition (log : RabbitLog) (stream : String) : Except RabbitError StreamDefinition :=
  match log.definitions.lookup stream with
  | some definition => .ok definition
  | none => .error (.streams (.unknownStream stream))

/-- The number of physical streams that are declared. -/
def physicalCount (log : RabbitLog) : Nat :=
  (log.definitions.values.map (·.partitionCount)).sum

/-- `declare_stream`. -/
def declareStream (log : RabbitLog) (answers : BrokerAnswers) (definition : StreamDefinition) :
    Except RabbitError RabbitLog := do
  log.requireOpen
  match log.definitions.lookup definition.name with
  | some current =>
    require (current.compatibilityKey = definition.compatibilityKey)
      (.streams (.incompatibleStream definition.name))
    .ok log
  | none =>
    require (log.physicalCount + definition.partitionCount ≤ log.options.maxStreams)
      (.streams (.resourceLimit "physical stream resource limit reached"))
    let preflight ← declarePhysical log.options answers definition
    .ok { log with
      definitions := log.definitions.insert definition.name definition
      topology := log.topology.insert definition.name preflight }

/-- Where `append` publishes a request: the partition that the router answers, and its name. -/
def route (log : RabbitLog) (stream : String) (answer : RouterAnswer) (request : AppendRequest) :
    Except RabbitError (Nat × String) := do
  log.requireAvailable
  let definition ← log.definition stream
  (validateAppendRequestLimits definition request).mapError RabbitError.streams
  let partition ← (routedPartition definition answer).mapError RabbitError.streams
  .ok (partition, physicalName definition partition)

end RabbitLog

/-! ### The system -/

/-- An entry of a physical stream. `origin` is the stream and the partition that the log appended it
to; other writers of the broker leave none. -/
structure Entry where
  origin : Option (String × Nat)
  offset : Nat
  recordId : UUID

/-- The log and what the physical streams hold. -/
structure Storage where
  log : RabbitLog := {}
  entries : List (String × Entry) := []

namespace Storage

/-- What happens to the log and to the broker. -/
inductive Action where
  | declare (definition : StreamDefinition) (answers : BrokerAnswers)
  | append (stream : String) (answer : RouterAnswer) (request : AppendRequest) (offset : Nat)
  | foreign (physical : String) (offset : Nat) (recordId : UUID)
  | configure (options : Options) (closed accepting : Bool)

/-- One step. A call that raises changes nothing; a publication that the broker does not store is no
step, and one that it stores has the offset that the broker gives it. -/
def step (state : Storage) : Action → Option Storage
  | .declare definition answers =>
    match state.log.declareStream answers definition with
    | .ok log => some { state with log }
    | .error _ => some state
  | .append stream answer request offset =>
    match state.log.route stream answer request with
    | .ok (partition, physical) => some { state with
        entries := state.entries ++
          [(physical, ⟨some (stream, partition), offset, request.recordId⟩)] }
    | .error _ => some state
  | .foreign physical offset recordId =>
    some { state with entries := state.entries ++ [(physical, ⟨none, offset, recordId⟩)] }
  | .configure options closed accepting =>
    some { state with log := { state.log with options, closed, accepting } }

/-- `read`: the entries of the physical stream from an offset on. -/
def read (state : Storage) (stream : String) (partition fromOffset limit earliest : Nat) :
    Except RabbitError (List Entry) := do
  state.log.requireAvailable
  let definition ← state.log.definition stream
  require (partition < definition.partitionCount)
    (.streams (.invalidPartition "partition is outside the stream"))
  require (0 < limit) (.streams (.validation "limit must be positive"))
  require (limit ≤ definition.limits.maxReadRecords)
    (.streams (.resourceLimit "read limit exceeds stream limit"))
  require (earliest ≤ fromOffset)
    (.streams (.retentionGap stream partition (some fromOffset) none ⟨earliest, earliest⟩ none))
  .ok (((state.entries.filter fun entry => entry.1 = physicalName definition partition ∧
    fromOffset ≤ entry.2.offset).map Prod.snd).take limit)

/-- The partition belongs to a declared stream and has the physical name. -/
def Has (state : Storage) (stream : String) (partition : Nat) (physical : String) : Prop :=
  ∃ definition, state.log.definitions.lookup stream = some definition ∧
    partition < definition.partitionCount ∧ physicalName definition partition = physical

/-- No two partitions of declared streams have one physical name, and what is read from a partition
was appended to it or by others. -/
structure Separated (state : Storage) : Prop where
  injective : ∀ {stream stream' : String} {partition partition' : Nat} {physical : String},
    state.Has stream partition physical → state.Has stream' partition' physical →
      stream = stream' ∧ partition = partition'
  isolated : ∀ {stream : String} {partition fromOffset limit earliest : Nat} {entries : List Entry},
    state.read stream partition fromOffset limit earliest = .ok entries →
      ∀ entry ∈ entries, ∀ origin ∈ entry.origin, origin = (stream, partition)

/-- No stream with one partition has the name of a partition of another stream. -/
def Clear (state : Storage) : Prop :=
  ∀ definition ∈ state.log.definitions.values, ∀ definition' ∈ state.log.definitions.values,
    definition.partitionCount = 1 → definition'.partitionCount ≠ 1 →
      ∀ partition < definition'.partitionCount,
        definition.name ≠ partitionName definition'.name partition

instance (state : Storage) : Decidable state.Clear :=
  inferInstanceAs (Decidable (∀ _ ∈ _, ∀ _ ∈ _, _ → _ → ∀ _ < _, _))

/-! ### Names -/

lemma partitionName_inj {name name' partition partition'}
    (h : partitionName name partition = partitionName name' partition') :
    name = name' ∧ partition = partition' := by
  have digits : ∀ partition, '-' ∉ (Nat.repr partition).toList := by
    intro partition mem
    exact absurd (isDigit_of_mem_repr mem) (by decide)
  have texts : ∀ (name : String) (partition : Nat), (partitionName name partition).toList =
      name.toList ++ '-' :: (Nat.repr partition).toList := by
    intro name partition
    simp [partitionName]
  have same := congrArg String.toList h
  rw [texts, texts] at same
  obtain ⟨names, numbers⟩ := append_cons_inj' (digits partition) (digits partition') same
  exact ⟨String.toList_inj.mp names, eq_of_repr_eq (String.toList_inj.mp numbers)⟩

/-! ### What a run keeps -/

/-- Definitions are kept under their names, and entries where their origin is kept. -/
structure Sound (state : Storage) : Prop where
  named : ∀ {stream definition},
    state.log.definitions.lookup stream = some definition → definition.name = stream
  placed : ∀ {physical entry origin}, (physical, entry) ∈ state.entries →
    entry.origin = some origin → state.Has origin.1 origin.2 physical

lemma declareStream_ok {log log' : RabbitLog} {answers} {definition : StreamDefinition}
    (h : log.declareStream answers definition = .ok log') :
    log' = log ∨ log.definitions.lookup definition.name = none ∧
      log'.definitions = log.definitions.insert definition.name definition := by
  rw [RabbitLog.declareStream, then_ok] at h
  obtain ⟨-, h⟩ := h
  split at h
  · rw [then_ok] at h
    cases h.2
    exact .inl rfl
  · rename_i absent
    rw [then_ok] at h
    obtain ⟨_, -, h⟩ := bind_ok.mp h.2
    cases h
    exact .inr ⟨absent, rfl⟩

variable {stream : String}

lemma definition_ok {log : RabbitLog} {definition} (h : log.definition stream = .ok definition) :
    log.definitions.lookup stream = some definition := by
  unfold RabbitLog.definition at h
  split at h
  · rename_i found
    cases h
    exact found
  · cases h

lemma route_ok {log : RabbitLog} {answer request partition physical}
    (h : log.route stream answer request = .ok (partition, physical)) :
    ∃ definition, log.definitions.lookup stream = some definition ∧
      partition < definition.partitionCount ∧ physicalName definition partition = physical := by
  rw [RabbitLog.route, then_ok] at h
  obtain ⟨definition, found, h⟩ := bind_ok.mp h.2
  rw [then_ok] at h
  obtain ⟨_, hrouted, h⟩ := bind_ok.mp h.2
  cases h
  refine ⟨definition, ?_, ?_, rfl⟩
  · exact definition_ok found
  match answer, hrouted with
  | .returned (.ofNat index), hrouted =>
    by_cases inside : index < definition.partitionCount
    · rw [routedPartition, require, if_pos inside] at hrouted
      cases hrouted
      exact inside
    · rw [routedPartition, require, if_neg inside] at hrouted
      cases hrouted

lemma Has.mono {state state' : Storage} {partition physical}
    (h : state.Has stream partition physical)
    (grows : ∀ {definition}, state.log.definitions.lookup stream = some definition →
      state'.log.definitions.lookup stream = some definition) :
    state'.Has stream partition physical := by
  obtain ⟨definition, found, rest⟩ := h
  exact ⟨definition, grows found, rest⟩

lemma sound_step {state state' : Storage} {action} (sound : state.Sound)
    (h : state.step action = some state') : state'.Sound := by
  cases action with
  | declare definition answers =>
    rw [step] at h
    split at h
    · rename_i log declared
      cases h
      rcases declareStream_ok declared with rfl | ⟨absent, definitions⟩
      · exact sound
      refine ⟨fun {stream found} hfound => ?_, fun mem origin => ?_⟩
      · dsimp only at hfound
        rw [definitions] at hfound
        rcases Dict.insert_cases hfound with ⟨same, rfl⟩ | ⟨-, hfound⟩
        · exact same.symm
        · exact sound.named hfound
      · refine (sound.placed mem origin).mono fun {found} hfound => ?_
        dsimp only
        rw [definitions, Dict.lookup_insert_ite, if_neg, hfound]
        rintro same
        rw [same, absent] at hfound
        cases hfound
    · cases h
      exact sound
  | append stream answer request offset =>
    rw [step] at h
    split at h
    · rename_i partition physical routed
      cases h
      refine ⟨sound.named, fun mem origin => ?_⟩
      rcases List.mem_append.mp mem with mem | mem
      · exact sound.placed mem origin
      · cases List.mem_singleton.mp mem
        cases origin
        exact route_ok routed
    · cases h
      exact sound
  | foreign =>
    cases h
    refine ⟨sound.named, fun mem origin => ?_⟩
    rcases List.mem_append.mp mem with mem | mem
    · exact sound.placed mem origin
    · cases List.mem_singleton.mp mem
      cases origin
  | configure =>
    cases h
    exact ⟨sound.named, sound.placed⟩

lemma sound_of_reachable {state : Storage} (run : Reachable step {} state) : state.Sound :=
  run.invariant ⟨nofun, nofun⟩ fun sound _ st => sound_step sound st

/-! ### Separation -/

section
variable {state : Storage}

lemma read_ok {partition fromOffset limit earliest entries}
    (h : state.read stream partition fromOffset limit earliest = .ok entries) :
    ∃ physical, state.Has stream partition physical ∧
      ∀ entry ∈ entries, (physical, entry) ∈ state.entries := by
  rw [read, then_ok] at h
  obtain ⟨definition, found, h⟩ := bind_ok.mp h.2
  rw [then_ok, then_ok, then_ok, then_ok, require_ok] at h
  obtain ⟨inside, -, -, -, h⟩ := h
  cases h
  refine ⟨physicalName definition partition, ⟨definition, ?_, inside, rfl⟩, fun entry mem => ?_⟩
  · exact definition_ok found
  · obtain ⟨⟨_, _⟩, kept, rfl⟩ := List.mem_map.mp (List.mem_of_mem_take mem)
    obtain ⟨mem, here⟩ := List.mem_filter.mp kept
    obtain ⟨same, -⟩ := of_decide_eq_true here
    exact same ▸ mem

lemma Sound.injective (sound : state.Sound) (clear : state.Clear)
    {stream stream' partition partition' physical} (h : state.Has stream partition physical)
    (h' : state.Has stream' partition' physical) : stream = stream' ∧ partition = partition' := by
  obtain ⟨definition, found, inside, rfl⟩ := h
  obtain ⟨definition', found', inside', same⟩ := h'
  have declared := Dict.mem_values.mpr ⟨stream, found⟩
  have declared' := Dict.mem_values.mpr ⟨stream', found'⟩
  rw [← sound.named found, ← sound.named found']
  unfold physicalName at same
  split at same
  · rename_i one'
    split at same
    · rename_i one
      exact ⟨same.symm, by omega⟩
    · rename_i several
      exact absurd same (clear _ declared' _ declared one' several partition inside)
  · rename_i several'
    split at same
    · rename_i one
      exact absurd same.symm (clear _ declared _ declared' one several' partition' inside')
    · obtain ⟨name, number⟩ := partitionName_inj same
      exact ⟨name.symm, number.symm⟩

end

/-- In every state that declarations, publications and other writers lead to, whatever the broker
answered: physical names are injective and what is read from a partition was appended to it exactly
if no stream with one partition was declared under the name of a partition of another stream. -/
theorem separated_iff {state : Storage} (run : Reachable step {} state) :
    state.Separated ↔ state.Clear := by
  have sound := sound_of_reachable run
  constructor
  · intro separated definition declared definition' declared' one several partition inside same
    obtain ⟨stream, found⟩ := Dict.mem_values.mp declared
    obtain ⟨stream', found'⟩ := Dict.mem_values.mp declared'
    have first : state.Has stream 0 definition.name :=
      ⟨definition, found, definition.count_pos, if_pos one⟩
    have second : state.Has stream' partition definition.name :=
      ⟨definition', found', inside, same ▸ if_neg several⟩
    -- The streams would be one, with one partition and with several.
    obtain ⟨rfl, -⟩ := separated.injective first second
    cases found.symm.trans found'
    exact several one
  · intro clear
    refine ⟨sound.injective clear, fun {stream partition _ _ _ _} hread entry mem origin horigin => ?_⟩
    obtain ⟨_, here, stored⟩ := read_ok hread
    obtain ⟨same, same'⟩ := sound.injective clear here (sound.placed (stored entry mem) horigin)
    exact Prod.ext same.symm same'.symm

/-! ### A broker -/

/-- The streams and the super streams of a broker. -/
structure Cluster where
  streams : List String := []
  supers : List (String × List String) := []

/-- What a broker with these streams answers to a declaration. -/
def Cluster.answers (cluster : Cluster) (definition : StreamDefinition) : BrokerAnswers where
  streamExists := .ok (definition.name ∈ cluster.streams)
  superPartitions := .ok (cluster.supers.lookup definition.name)
  created := .ok ()
  superPartitionsAfter := .ok (if definition.partitionCount = 1 then none
    else some ((List.range definition.partitionCount).map (partitionName definition.name)))
  routes := fun key => .ok [definition.name ++ "-" ++ key]

def orders : StreamDefinition := .standard "orders" 3 (by decide)

def firstOrders : StreamDefinition := .standard "orders-0" 1 (by decide)

/-- The broker behind the declaration of the first stream. -/
def ordersCluster : Cluster where
  streams := ["orders-0", "orders-1", "orders-2"]
  supers := [("orders", ["orders-0", "orders-1", "orders-2"])]

theorem separated_orders : ∃ state,
    exec step {} [.declare orders (Cluster.answers {} orders)] = some state ∧
      state.log.definitions.keys = ["orders"] ∧ state.Separated := by
  have evaluated : (exec step {} [.declare orders (Cluster.answers {} orders)]).map
      (fun state => (state.log.definitions.keys, decide state.Clear)) = some (["orders"], true) := by
    decide +kernel
  obtain ⟨state, run, facts⟩ := Option.map_eq_some_iff.mp evaluated
  obtain ⟨keys, clear⟩ := Prod.mk.inj facts
  refine ⟨state, run, keys, ?_⟩
  exact (separated_iff (Reach.of_exec .refl run)).mpr (of_decide_eq_true clear)

/-- Both streams are declared, and the second shares the first partition of the other. -/
theorem orders_not_separated : ∃ state,
    exec step {} [.declare orders (Cluster.answers {} orders),
      .declare firstOrders (ordersCluster.answers firstOrders)] = some state ∧
      ¬ state.Separated := by
  have evaluated : (exec step {} [.declare orders (Cluster.answers {} orders),
      .declare firstOrders (ordersCluster.answers firstOrders)]).map
      (fun state => ((state.log.definitions.lookup "orders").map (physicalName · 0),
        (state.log.definitions.lookup "orders-0").map (physicalName · 0))) =
        some (some "orders-0", some "orders-0") := by
    decide +kernel
  obtain ⟨state, run, facts⟩ := Option.map_eq_some_iff.mp evaluated
  obtain ⟨first, second⟩ := Prod.mk.inj facts
  obtain ⟨definition, found, name⟩ := Option.map_eq_some_iff.mp first
  obtain ⟨definition', found', name'⟩ := Option.map_eq_some_iff.mp second
  refine ⟨state, run, fun separated => ?_⟩
  have same := separated.injective ⟨definition, found, definition.count_pos, name⟩
    ⟨definition', found', definition'.count_pos, name'⟩
  exact absurd same.1 (by decide)

end Storage

end ToriPy.PersistentStreams.RabbitMq
