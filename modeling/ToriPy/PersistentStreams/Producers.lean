import ToriPy.PersistentStreams.Runs

/-!
# Named producers

The `producers` table of a stream holds, for each partition and producer name, the last publication
accepted there. `Recorded.Remembers` says so against the list of everything accepted, and adds that
the publishing IDs of one scope strictly increase; it is kept by every call. What an append of a
known ID does is then read off the table.

That trims do not matter is a simulation: two logs that agree on definitions, producers tables, next
offsets and last timestamps (`SameAppends`) give every append the same outcome and go on agreeing,
and a trim changes none of these.
-/

namespace ToriPy.PersistentStreams

open List

/-- The publishing ID of an accepted request with a producer. -/
def Accepted.publishingId (a : Accepted) : Nat := (a.request.producer.map Prod.snd).getD 0

/-- The publications accepted for one producer name in one partition, in order. -/
def Recorded.publications (w : Recorded) (stream : String) (index : Nat) (name : String) :
    List Accepted :=
  w.accepted.filter fun a =>
    a.record.stream = stream ∧ a.record.partition = index ∧
    a.request.producer.map Prod.fst = some name

def Accepted.receipt (a : Accepted) : PublishReceipt :=
  ⟨a.record.recordId, a.record.partition, .confirmed, ["in-memory-accepted"]⟩

/-- The producers tables hold the last accepted publication of each scope. -/
structure Recorded.Remembers (w : Recorded) : Prop where
  /-- A table entry is the last publication of its scope, and an absent one means there is none. -/
  latest : ∀ {stream state}, w.log.streams.lookup stream = some state → ∀ index name,
    state.producers.lookup (index, name) =
      (w.publications stream index name).getLast?.map fun a =>
        ⟨a.publishingId, a.request, a.receipt⟩
  undeclared : ∀ {stream}, w.log.streams.lookup stream = none →
    ∀ a ∈ w.accepted, a.record.stream ≠ stream
  increasing : ∀ stream index name,
    (w.publications stream index name).Pairwise fun a b =>
      a.record.offset < b.record.offset ∧ a.publishingId < b.publishingId
  /-- What was accepted is within the limits of its stream and went where the router answered. -/
  admitted : ∀ {stream state}, w.log.streams.lookup stream = some state →
    ∀ a ∈ w.accepted, a.record.stream = stream →
      validateAppendRequestLimits state.definition a.request = .ok () ∧
      routedPartition state.definition a.answer = .ok a.record.partition

lemma validate_of_eq {definition a b} (h : a.eq b = true)
    (ok : validateAppendRequestLimits definition b = .ok ()) :
    validateAppendRequestLimits definition a = .ok () := by
  obtain ⟨-, hkey, hpayload, hheaders, hproducer⟩ := AppendRequest.eq_iff.mp h
  rw [validateAppendRequestLimits_ok] at ok ⊢
  rw [hkey, hpayload, hheaders.length_eq, (hheaders.map _).sum_nat, hproducer]
  obtain ⟨h₁, h₂, h₃, h₄, h₅⟩ := ok
  exact ⟨h₁, h₂, h₃, fun x hx => h₄ x (hheaders.mem_iff.mp hx), h₅⟩

namespace StreamState

variable {state : StreamState} {index : Nat} {request : AppendRequest}

lemma lt_of_producerCheck {name publishingId existing}
    (h : state.producerCheck index request = .ok none)
    (hproducer : request.producer = some (name, publishingId))
    (hexisting : state.producers.lookup (index, name) = some existing) :
    existing.publishingId < publishingId := by
  simp only [producerCheck, hproducer, hexisting] at h
  split at h
  · split at h <;> cases h
  · split at h
    · cases h
    · omega

lemma remember_producers (receipt : PublishReceipt) (i : Nat) (name : String) :
    (state.remember index request receipt).producers.lookup (i, name)
      = match request.producer with
        | some (producer, publishingId) =>
          if i = index ∧ name = producer then some ⟨publishingId, request, receipt⟩
          else state.producers.lookup (i, name)
        | none => state.producers.lookup (i, name) := by
  unfold remember
  cases request.producer with
  | none => rfl
  | some => simp only [Dict.lookup_insert_ite, Prod.mk.injEq]

lemma remember_definition (receipt : PublishReceipt) :
    (state.remember index request receipt).definition = state.definition := by
  unfold remember
  split <;> rfl

end StreamState

namespace Recorded

lemma publications_accept (w : Recorded) (log : Log) (a : Accepted) (stream : String) (index : Nat)
    (name : String) :
    (Recorded.mk log (w.accepted ++ [a])).publications stream index name
      = w.publications stream index name ++
        if a.record.stream = stream ∧ a.record.partition = index ∧
          a.request.producer.map Prod.fst = some name then [a] else [] := by
  simp only [publications, filter_append, filter_cons, filter_nil, decide_eq_true_eq]

lemma remembers_start (maxActiveLeases : ℕ+) : (start maxActiveLeases).Remembers where
  latest := nofun
  undeclared := by simp [start]
  increasing := fun _ _ _ => .nil
  admitted := nofun

lemma Sound.offset_lt {w : Recorded} (inv : w.Sound) {stream} {state : StreamState} {index : Nat}
    {part : PartitionState} (hstate : w.log.streams.lookup stream = some state)
    (hpart : state.partitions[index]? = some part) {name} :
    ∀ a ∈ w.publications stream index name, a.record.offset < part.nextOffset := by
  intro a ha
  obtain ⟨mem, scope⟩ := mem_filter.mp ha
  simp only [decide_eq_true_eq] at scope
  refine (inv.refines.present (by rw [Log.partition?_of_lookup hstate, hpart])).below _ ?_
  exact mem_filter.mpr ⟨mem_map_of_mem mem, by simp [scope.1, scope.2.1]⟩

lemma Remembers.le_latest {w : Recorded} (rem : w.Remembers) {stream index name} {latest : Accepted}
    (h : (w.publications stream index name).getLast? = some latest) :
    ∀ a ∈ w.publications stream index name, a.publishingId ≤ latest.publishingId := by
  intro a ha
  obtain ⟨_, hfront⟩ := getLast?_eq_some_iff.mp h
  have inc := rem.increasing stream index name
  rw [hfront] at ha inc
  rcases mem_append.mp ha with h | h
  · exact ((pairwise_append.mp inc).2.2 a h latest (by simp)).2.le
  · rw [mem_singleton.mp h]

lemma Remembers.accept {w : Recorded} (inv : w.Sound) (rem : w.Remembers) {stream}
    {state : StreamState} {index : Nat} {part : PartitionState} {request : AppendRequest}
    {answer instant} (hstate : w.log.streams.lookup stream = some state)
    (hlimits : validateAppendRequestLimits state.definition request = .ok ())
    (hroute : routedPartition state.definition answer = .ok index)
    (hcheck : state.producerCheck index request = .ok none)
    (hpart : state.partitions[index]? = some part) :
    (Recorded.mk
      (w.log.setStream stream
        ((state.setPartition index
          (part.push (part.nextRecord stream index request instant))).remember index request
            ⟨request.recordId, index, .confirmed, ["in-memory-accepted"]⟩))
      (w.accepted ++
        [⟨request, answer, part.nextRecord stream index request instant⟩])).Remembers := by
  constructor
  case latest =>
    intro stream' state' hstate' i name
    rw [publications_accept]
    rcases Dict.insert_cases hstate' with ⟨rfl, rfl⟩ | ⟨hname, hstate'⟩
    · -- the stream appended to: its table has the new publication in one scope
      rw [StreamState.remember_producers]
      have old := rem.latest hstate i name
      cases hp : request.producer with
      | none => simpa [PartitionState.nextRecord, hp, StreamState.setPartition] using old
      | some p =>
        by_cases scope : i = index ∧ name = p.1
        · obtain ⟨rfl, rfl⟩ := scope
          simp [PartitionState.nextRecord, hp, Accepted.publishingId, Accepted.receipt]
        · have other : ¬ (index = i ∧ p.1 = name) := fun h => scope ⟨h.1.symm, h.2.symm⟩
          simpa [PartitionState.nextRecord, hp, scope, other, StreamState.setPartition] using old
    · simpa [PartitionState.nextRecord, Ne.symm hname] using rem.latest hstate' i name
  case undeclared =>
    intro stream' hnone a ha
    simp only [Log.setStream, Dict.lookup_insert_ite] at hnone
    split at hnone
    · cases hnone
    rename_i hname
    rcases mem_append.mp ha with h | h
    · exact rem.undeclared hnone a h
    · rw [mem_singleton.mp h]
      exact Ne.symm hname
  case increasing =>
    intro stream' i name
    rw [publications_accept]
    split
    · rename_i scope
      obtain ⟨rfl, rfl, hproducer⟩ := scope
      obtain ⟨⟨pname, publishingId⟩, hp, rfl⟩ := Option.map_eq_some_iff.mp hproducer
      change request.producer = _ at hp
      refine pairwise_append.mpr ⟨rem.increasing _ _ _, pairwise_singleton _ _, ?_⟩
      intro a ha b hb
      rw [mem_singleton.mp hb]
      refine ⟨inv.offset_lt hstate hpart a ha, ?_⟩
      obtain ⟨last, hlast⟩ := Option.ne_none_iff_exists'.mp
        (mt getLast?_eq_none_iff.mp (ne_nil_of_mem ha))
      have entry := rem.latest hstate index pname
      have hlast' : (w.publications stream index pname).getLast? = some last := hlast
      rw [hlast'] at entry
      have lt := StreamState.lt_of_producerCheck hcheck hp entry
      have le := rem.le_latest hlast' a ha
      have new : (⟨request, answer, part.nextRecord stream index request instant⟩ :
          Accepted).publishingId = publishingId := by simp [Accepted.publishingId, hp]
      rw [new]
      exact le.trans_lt lt
    · simpa using rem.increasing stream' i name
  case admitted =>
    intro stream' state' hstate' a ha hstream
    rcases Dict.insert_cases hstate' with ⟨rfl, rfl⟩ | ⟨hname, hstate'⟩
    · rw [StreamState.remember_definition]
      rcases mem_append.mp ha with h | h
      · exact rem.admitted hstate a h hstream
      · rw [mem_singleton.mp h]
        exact ⟨hlimits, hroute⟩
    · rcases mem_append.mp ha with h | h
      · exact rem.admitted hstate' a h hstream
      · rw [mem_singleton.mp h] at hstream
        exact absurd hstream.symm hname

lemma Remembers.setStream {w : Recorded} (rem : w.Remembers) {stream} {state state' : StreamState}
    (hstate : w.log.streams.lookup stream = some state)
    (hdef : state'.definition = state.definition)
    (hproducers : state'.producers = state.producers) :
    (Recorded.mk (w.log.setStream stream state') w.accepted).Remembers := by
  have lookup : ∀ {name s}, (w.log.setStream stream state').streams.lookup name = some s →
      ∃ s₀, w.log.streams.lookup name = some s₀ ∧ s.definition = s₀.definition ∧
        s.producers = s₀.producers := by
    intro name s h
    rcases Dict.insert_cases h with ⟨rfl, rfl⟩ | ⟨-, h⟩
    · exact ⟨state, hstate, hdef, hproducers⟩
    · exact ⟨s, h, rfl, rfl⟩
  constructor
  case latest =>
    intro name s h i producer
    obtain ⟨s₀, h₀, -, hp⟩ := lookup h
    rw [hp]
    exact rem.latest h₀ i producer
  case undeclared =>
    intro name h
    simp only [Log.setStream, Dict.lookup_insert_ite] at h
    split at h
    · cases h
    · exact rem.undeclared h
  case increasing => exact rem.increasing
  case admitted =>
    intro name s h
    obtain ⟨_, h₀, hd, -⟩ := lookup h
    rw [hd]
    exact rem.admitted h₀

lemma Remembers.declare {w : Recorded} (rem : w.Remembers) {state : StreamState} {stream}
    (hnone : w.log.streams.lookup stream = none) (hproducers : state.producers = ∅) :
    (Recorded.mk (w.log.setStream stream state) w.accepted).Remembers := by
  have none_of : ∀ i name, w.publications stream i name = [] := by
    intro i name
    refine filter_eq_nil_iff.mpr fun a ha => ?_
    have := rem.undeclared hnone a ha
    simp [this]
  constructor
  case latest =>
    intro name s h i producer
    rcases Dict.insert_cases h with ⟨rfl, rfl⟩ | ⟨-, h⟩
    · show _ = Option.map _ (w.publications _ i producer).getLast?
      rw [none_of, hproducers]
      rfl
    · exact rem.latest h i producer
  case undeclared =>
    intro name h
    simp only [Log.setStream, Dict.lookup_insert_ite] at h
    split at h
    · cases h
    · exact rem.undeclared h
  case increasing => exact rem.increasing
  case admitted =>
    intro name s h a ha hstream
    rcases Dict.insert_cases h with ⟨rfl, -⟩ | ⟨-, h⟩
    · exact absurd hstream (rem.undeclared hnone a ha)
    · exact rem.admitted h a ha hstream

lemma Remembers.perform {w : Recorded} (inv : w.Sound) (rem : w.Remembers) (op : Operation) :
    (w.perform op).2.Remembers := by
  cases op with
  | declareStream definition =>
    simp only [Recorded.perform]
    split
    · rename_i log h
      obtain rfl | ⟨-, hnone, rfl⟩ := Log.declareStream_ok h
      · exact rem
      · exact rem.declare hnone rfl
    · exact rem
  | append clock answer stream request =>
    simp only [Recorded.perform]
    split
    · rename_i res h
      obtain ⟨state, index, -, hstate, hlimits, hroute, ⟨_, -, rfl⟩ |
        ⟨part, _, hcheck, hpart, -, rfl⟩⟩ := Log.append_ok h
      · simpa using rem
      · exact rem.accept inv hstate hlimits hroute hcheck hpart
    · exact rem
  | trim stream partition beforeOffset =>
    simp only [Recorded.perform]
    split
    · rename_i count log h
      obtain ⟨_, _, _, -, hstate, -, -, -, -, rfl⟩ := Log.trim_ok h
      exact rem.setStream hstate rfl rfl
    · exact rem

lemma Remembers.run {w : Recorded} (inv : w.Sound) (rem : w.Remembers) (ops : List Operation) :
    (w.run ops).Remembers := by
  induction ops generalizing w with
  | nil => exact rem
  | cons op ops ih => exact ih (inv.perform op) (rem.perform inv op)

end Recorded

/-! ## Appends do not depend on retention -/

def StreamState.forAppends (state : StreamState) :
    StreamDefinition × Dict (Nat × String) ProducerState × List (Nat × Option Instant) :=
  (state.definition, state.producers, state.partitions.map fun p => (p.nextOffset, p.lastTimestamp))

variable {s' : StreamState} {part part' : PartitionState} {route : String → Bytes → RouterAnswer}

lemma StreamState.forAppends_eq {s : StreamState} :
    s.forAppends = s'.forAppends ↔ s.definition = s'.definition ∧ s.producers = s'.producers ∧
      s.partitions.map (fun p => (p.nextOffset, p.lastTimestamp))
        = s'.partitions.map fun p => (p.nextOffset, p.lastTimestamp) := by
  simp [StreamState.forAppends]

lemma StreamState.forAppends_setPartition {state : StreamState} {index : Nat}
    (hpart : state.partitions[index]? = some part)
    (h : (part'.nextOffset, part'.lastTimestamp) = (part.nextOffset, part.lastTimestamp)) :
    (state.setPartition index part').forAppends = state.forAppends := by
  obtain ⟨hlt, hget⟩ := List.getElem?_eq_some_iff.mp hpart
  have hlt' : index < (state.partitions.map fun p => (p.nextOffset, p.lastTimestamp)).length := by
    simpa using hlt
  have here : (part'.nextOffset, part'.lastTimestamp)
      = (state.partitions.map fun p => (p.nextOffset, p.lastTimestamp))[index] := by
    rw [getElem_map, hget, h]
  refine StreamState.forAppends_eq.mpr ⟨rfl, rfl, ?_⟩
  simp only [StreamState.setPartition, map_set]
  rw [here, set_getElem_self]

lemma StreamState.producerCheck_congr {s : StreamState} (h : s.producers = s'.producers)
    (index : Nat) (request : AppendRequest) :
    s.producerCheck index request = s'.producerCheck index request := by
  simp only [StreamState.producerCheck, h]

lemma StreamState.forAppends_accept {s : StreamState} (h : s.forAppends = s'.forAppends)
    (next : part.nextOffset = part'.nextOffset)
    (last : part.lastTimestamp = part'.lastTimestamp) (stream : String) (index : Nat)
    (request : AppendRequest) (instant : Instant) (receipt : PublishReceipt) :
    ((s.setPartition index (part.push (part.nextRecord stream index request instant))).remember
        index request receipt).forAppends
      = ((s'.setPartition index
          (part'.push (part'.nextRecord stream index request instant))).remember
        index request receipt).forAppends := by
  obtain ⟨hdef, hproducers, hparts⟩ := StreamState.forAppends_eq.mp h
  have stamp : part.appendedAt instant = part'.appendedAt instant := by
    simp only [PartitionState.appendedAt, last]
  have pushed : (fun p : PartitionState => (p.nextOffset, p.lastTimestamp))
        (part.push (part.nextRecord stream index request instant))
      = (fun p : PartitionState => (p.nextOffset, p.lastTimestamp))
        (part'.push (part'.nextRecord stream index request instant)) := by
    simp only [PartitionState.push, PartitionState.nextRecord, next, stamp]
  refine StreamState.forAppends_eq.mpr ⟨?_, ?_, ?_⟩
  · rw [StreamState.remember_definition, StreamState.remember_definition]
    exact hdef
  · unfold StreamState.remember
    split
    · exact hproducers
    · simp only [StreamState.setPartition, hproducers]
  · simp only [Log.remember_partitions, StreamState.setPartition, map_set, hparts, pushed]

/-- Two logs that appends cannot tell apart. -/
structure Log.SameAppends (a b : Log) : Prop where
  closed : a.closed = b.closed
  streams : ∀ name,
    (a.streams.lookup name).map (·.forAppends) = (b.streams.lookup name).map (·.forAppends)

namespace Log.SameAppends

variable {a b : Log}

lemma refl (a : Log) : SameAppends a a := ⟨rfl, fun _ => rfl⟩

lemma setStream (same : SameAppends a b) {stream s s'} (h : s.forAppends = s'.forAppends) :
    SameAppends (a.setStream stream s) (b.setStream stream s') where
  closed := same.closed
  streams := by
    intro name
    simp only [Log.setStream, Dict.lookup_insert_ite]
    split
    · simp [h]
    · exact same.streams name

lemma trim (same : SameAppends a b) {a' stream partition beforeOffset n}
    (h : a.trim stream partition beforeOffset = .ok (n, a')) : SameAppends a' b := by
  obtain ⟨state, index, part, -, hstate, -, hpart, -, -, rfl⟩ := trim_ok h
  refine ⟨same.closed, fun name => ?_⟩
  rw [← same.streams name]
  simp only [Log.setStream, Dict.lookup_insert_ite]
  split
  · rename_i hname
    subst hname
    have kept : (state.setPartition index (part.trim beforeOffset.toNat).2).forAppends
        = state.forAppends := StreamState.forAppends_setPartition hpart rfl
    rw [hstate, Option.map_some, Option.map_some, kept]
  · rfl

lemma declareStream (same : SameAppends a b) (definition : StreamDefinition) :
    (∃ a' b', a.declareStream definition = .ok a' ∧ b.declareStream definition = .ok b' ∧
      SameAppends a' b') ∨
    ∃ e, a.declareStream definition = .error e ∧ b.declareStream definition = .error e := by
  have stream := same.streams definition.name
  simp only [Log.declareStream, Log.requireOpen, same.closed]
  cases hopen : require (b.closed = false) (StreamsError.lifecycle "persistent log is closed") with
  | error e => exact .inr ⟨e, rfl, rfl⟩
  | ok u =>
    simp only [ok_bind]
    cases ha : a.streams.lookup definition.name with
    | none =>
      rw [ha, Option.map_none, eq_comm, Option.map_eq_none_iff] at stream
      rw [stream]
      exact .inl ⟨_, _, rfl, rfl, same.setStream rfl⟩
    | some s =>
      rw [ha, Option.map_some, eq_comm, Option.map_eq_some_iff] at stream
      obtain ⟨s', hb, hs⟩ := stream
      have hdef : s'.definition = s.definition := congrArg Prod.fst hs
      rw [hb]
      simp only [hdef]
      cases require (s.definition.compatibilityKey = definition.compatibilityKey)
          (StreamsError.incompatibleStream definition.name) with
      | error e => exact .inr ⟨e, rfl, rfl⟩
      | ok => exact .inl ⟨a, b, rfl, rfl, same⟩

lemma append (same : SameAppends a b) (clock : ClockReading) (answer : RouterAnswer)
    (stream : String) (request : AppendRequest) :
    (∃ r r', a.append clock answer stream request = .ok r ∧
      b.append clock answer stream request = .ok r' ∧ r.receipt = r'.receipt ∧
      SameAppends r.log r'.log) ∨
    ∃ e, a.append clock answer stream request = .error e ∧
      b.append clock answer stream request = .error e := by
  have streams := same.streams stream
  simp only [Log.append, Log.requireOpen, same.closed]
  cases require (b.closed = false) (StreamsError.lifecycle "persistent log is closed") with
  | error e => exact .inr ⟨e, rfl, rfl⟩
  | ok u =>
    cases ha : a.streams.lookup stream with
    | none =>
      rw [ha, Option.map_none, eq_comm, Option.map_eq_none_iff] at streams
      simp only [Log.stream, ha, streams, ok_bind, error_bind]
      exact .inr ⟨_, rfl, rfl⟩
    | some s =>
      rw [ha, Option.map_some, eq_comm, Option.map_eq_some_iff] at streams
      obtain ⟨_, hb, hs⟩ := streams
      obtain ⟨hdef, hproducers, hparts⟩ := StreamState.forAppends_eq.mp hs
      simp only [Log.stream, ha, hb, ok_bind, hdef]
      -- the limits, the router's answer and the producers table decide alike on both sides
      cases validateAppendRequestLimits s.definition request with
      | error e => exact .inr ⟨e, rfl, rfl⟩
      | ok =>
        cases routedPartition s.definition answer with
        | error e => exact .inr ⟨e, rfl, rfl⟩
        | ok index =>
          simp only [ok_bind, StreamState.producerCheck_congr hproducers]
          cases s.producerCheck index request with
          | error e => exact .inr ⟨e, rfl, rfl⟩
          | ok check =>
            cases check with
            | some => exact .inl ⟨_, _, rfl, rfl, rfl, same⟩
            | none =>
              have parts := congrArg (·[index]?) hparts
              simp only [getElem?_map] at parts
              simp only [ok_bind, StreamState.partitionAt]
              cases hp : s.partitions[index]? with
              | none =>
                rw [hp, Option.map_none, Option.map_eq_none_iff] at parts
                rw [parts]
                exact .inr ⟨_, rfl, rfl⟩
              | some =>
                rw [hp, Option.map_some, Option.map_eq_some_iff] at parts
                obtain ⟨_, hp', hpart⟩ := parts
                rw [hp']
                cases now clock with
                | error e => exact .inr ⟨e, rfl, rfl⟩
                | ok =>
                  refine .inl ⟨_, _, rfl, rfl, rfl, same.setStream ?_⟩
                  exact StreamState.forAppends_accept hs.symm (congrArg Prod.fst hpart).symm
                    (congrArg Prod.snd hpart).symm _ _ _ _ _

end Log.SameAppends

def Operation.isTrim : Operation → Bool
  | .trim _ _ _ => true
  | _ => false

/-- What the appends of a list of calls return or raise, in order. -/
def Recorded.appendOutcomes (w : Recorded) : List Operation → List (Except StreamsError Result)
  | [] => []
  | .append clock answer stream request :: ops =>
    (w.perform (.append clock answer stream request)).1 ::
      (w.perform (.append clock answer stream request)).2.appendOutcomes ops
  | op :: ops => (w.perform op).2.appendOutcomes ops

lemma Recorded.appendOutcomes_filter {w w' : Recorded} (same : w.log.SameAppends w'.log)
    (ops : List Operation) :
    w.appendOutcomes ops = w'.appendOutcomes (ops.filter fun op => !op.isTrim) := by
  induction ops generalizing w w' with
  | nil => rfl
  | cons op ops ih =>
    cases op with
    | declareStream definition =>
      refine ih ?_
      simp only [Recorded.perform]
      obtain ⟨a, b, ha, hb, same'⟩ | ⟨e, ha, hb⟩ := same.declareStream definition
      · rw [ha, hb]
        exact same'
      · rw [ha, hb]
        exact same
    | append clock answer stream request =>
      rw [filter_cons_of_pos rfl, Recorded.appendOutcomes, Recorded.appendOutcomes]
      simp only [Recorded.perform]
      obtain ⟨r, r', ha, hb, receipt, same'⟩ | ⟨e, ha, hb⟩ :=
        same.append clock answer stream request
      · rw [ha, hb]
        show Except.ok (Result.appended r.receipt) :: _ =
          Except.ok (Result.appended r'.receipt) :: _
        rw [receipt]
        exact congrArg (List.cons _) (ih same')
      · rw [ha, hb]
        exact congrArg₂ List.cons rfl (ih same)
    | trim stream partition beforeOffset =>
      rw [filter_cons_of_neg (by simp [Operation.isTrim]), Recorded.appendOutcomes]
      · refine ih ?_
        simp only [Recorded.perform]
        cases ht : w.log.trim stream partition beforeOffset with
        | error => exact same
        | ok => exact same.trim ht
      · intro clock answer stream request same
        cases same

/-- Every append of the list meets the same router, a function of the stream and the key. -/
def Deterministic (route : String → Bytes → RouterAnswer) (ops : List Operation) : Prop :=
  ∀ clock answer stream request, .append clock answer stream request ∈ ops →
    answer = route stream request.partitionKey

lemma Recorded.answers_run {w : Recorded} {ops} (det : Deterministic route ops)
    (h : ∀ a ∈ w.accepted, a.answer = route a.record.stream a.request.partitionKey) :
    ∀ a ∈ (w.run ops).accepted, a.answer = route a.record.stream a.request.partitionKey := by
  induction ops generalizing w with
  | nil => exact h
  | cons op ops ih =>
    refine ih (fun clock answer stream request mem =>
      det clock answer stream request (by simp [mem])) ?_
    cases op with
    | declareStream | trim =>
      simp only [Recorded.perform]
      split <;> exact h
    | append clock answer stream request =>
      simp only [Recorded.perform]
      split
      · rename_i res ha
        obtain ⟨_, _, -, -, -, -, ⟨_, -, rfl⟩ | ⟨_, _, -, -, -, rfl⟩⟩ :=
          Log.append_ok ha
        · simpa using h
        intro a mem
        rcases mem_append.mp mem with old | new
        · exact h a old
        · rw [mem_singleton.mp new]
          exact det clock answer stream request (by simp)
      · exact h

/-! ## Appends of a known publishing ID -/

namespace Recorded

variable {w : Recorded} {stream name : String} {state : StreamState} {index publishingId : Nat}
  {request : AppendRequest} {latest : Accepted} {answer : RouterAnswer}

lemma perform_of_check (inv : w.Sound) (hstate : w.log.streams.lookup stream = some state)
    (hlimits : validateAppendRequestLimits state.definition request = .ok ())
    (hroute : routedPartition state.definition answer = .ok index) (clock : ClockReading) :
    (∀ receipt, state.producerCheck index request = .ok (some receipt) →
      (w.perform (.append clock answer stream request)).1 = .ok (.appended receipt)) ∧
    ∀ e, state.producerCheck index request = .error e →
      (w.perform (.append clock answer stream request)).1 = .error e := by
  have isOpen : w.log.requireOpen = .ok () := require_ok.mpr inv.opened
  constructor
  · intro receipt hcheck
    simp only [perform, Log.append, isOpen, Log.stream_ok.mpr hstate, ok_bind, hlimits, hroute,
      hcheck]
    rfl
  · intro e hcheck
    simp only [perform, Log.append, isOpen, Log.stream_ok.mpr hstate, ok_bind, hlimits, hroute,
      hcheck, error_bind]

lemma Remembers.check (rem : w.Remembers) (hstate : w.log.streams.lookup stream = some state)
    (hproducer : request.producer = some (name, publishingId))
    (hlatest : (w.publications stream index name).getLast? = some latest) :
    state.producerCheck index request =
      if publishingId = latest.publishingId then
        if request.eq latest.request then
          .ok (some ⟨latest.record.recordId, index, .deduplicated, ["in-memory-accepted"]⟩)
        else .error (.publishingConflict "publishing ID request differs")
      else if publishingId < latest.publishingId then
        .error (.stalePublishingId "publishing ID is stale")
      else .ok none := by
  have entry := rem.latest hstate index name
  rw [hlatest] at entry
  simp only [StreamState.producerCheck, hproducer, entry, Option.map_some, Accepted.receipt]

lemma mem_publications {a} (h : a ∈ w.publications stream index name) :
    a ∈ w.accepted ∧ a.record.stream = stream ∧ a.record.partition = index ∧
      a.request.producer = some (name, a.publishingId) := by
  obtain ⟨mem, scope⟩ := mem_filter.mp h
  simp only [decide_eq_true_eq] at scope
  obtain ⟨hstream, hindex, hname⟩ := scope
  obtain ⟨⟨n, _⟩, hp, rfl⟩ := Option.map_eq_some_iff.mp hname
  exact ⟨mem, hstream, hindex, by simp [Accepted.publishingId, hp]⟩

/-- A request equal to the latest publication is within the limits, goes to the same partition and
has the same producer and publishing ID. -/
lemma Remembers.retry (rem : w.Remembers)
    (answers : ∀ a ∈ w.accepted, a.answer = route a.record.stream a.request.partitionKey)
    (hstate : w.log.streams.lookup stream = some state)
    (hlatest : (w.publications stream index name).getLast? = some latest)
    (heq : request.eq latest.request = true) :
    request.producer = some (name, latest.publishingId) ∧
    validateAppendRequestLimits state.definition request = .ok () ∧
    routedPartition state.definition (route stream request.partitionKey) = .ok index := by
  obtain ⟨mem, hstream, hindex, hproducer⟩ := mem_publications (mem_of_getLast? hlatest)
  obtain ⟨-, hkey, -, -, hsame⟩ := AppendRequest.eq_iff.mp heq
  obtain ⟨hlimits, hroute⟩ := rem.admitted hstate latest mem hstream
  refine ⟨hsame.trans hproducer, validate_of_eq heq hlimits, ?_⟩
  rw [answers latest mem, hstream, hindex] at hroute
  rw [hkey]
  exact hroute

lemma check_of_perform {clock receipt} (hstate : w.log.streams.lookup stream = some state)
    (hroute : routedPartition state.definition answer = .ok index)
    (h : (w.perform (.append clock answer stream request)).1 = .ok (.appended receipt)) :
    state.producerCheck index request = .ok (some receipt) ∨
      state.producerCheck index request = .ok none := by
  cases ha : w.log.append clock answer stream request with
  | error =>
    simp only [perform, ha] at h
    cases h
  | ok =>
    simp only [perform, ha] at h
    obtain ⟨_, _, -, hstate', -, hroute', done⟩ := Log.append_ok ha
    cases hstate.symm.trans hstate'
    cases hroute.symm.trans hroute'
    obtain ⟨_, hcheck, rfl⟩ | ⟨_, _, hcheck, -, -, -⟩ := done
    · cases h
      exact .inl hcheck
    · exact .inr hcheck

lemma perform_unchanged (clock : ClockReading) (answer : RouterAnswer)
    (h : (∃ receipt, (w.perform (.append clock answer stream request)).1 = .ok (.appended receipt) ∧
        receipt.outcome = .deduplicated) ∨
      ∃ e, (w.perform (.append clock answer stream request)).1 = .error e) :
    (w.perform (.append clock answer stream request)).2.log = w.log := by
  cases ha : w.log.append clock answer stream request with
  | error => simp [perform, ha]
  | ok =>
    obtain ⟨_, _, -, -, -, -, ⟨_, -, rfl⟩ | ⟨_, _, -, -, -, rfl⟩⟩ := Log.append_ok ha
    · simp [perform, ha]
    simp only [perform, ha] at h
    obtain ⟨_, h, hout⟩ | ⟨e, h⟩ := h
    · cases h
      cases hout
    · cases h

end Recorded

/-- Named-producer idempotence, for an append within the limits of its stream: within one scope IDs
strictly increase, the latest ID is deduplicated exactly for an equal request and conflicts
otherwise, a smaller one is stale, neither changes the log, and no outcome depends on trims. -/
theorem named_producer_idempotence (maxActiveLeases : ℕ+) (route : String → Bytes → RouterAnswer)
    (ops : List Operation) (det : Deterministic route ops) :
    let w := (Recorded.start maxActiveLeases).run ops
    (∀ stream index name,
      (w.publications stream index name).Pairwise (fun a b =>
        a.record.offset < b.record.offset ∧ a.publishingId < b.publishingId) ∧
      ((w.publications stream index name).map (·.publishingId)).Nodup) ∧
    (∀ stream state index name latest request publishingId clock,
      w.log.streams.lookup stream = some state →
      (w.publications stream index name).getLast? = some latest →
      request.producer = some (name, publishingId) →
      routedPartition state.definition (route stream request.partitionKey) = .ok index →
      let outcome :=
        (w.perform (.append clock (route stream request.partitionKey) stream request)).1
      (publishingId = latest.publishingId →
        (outcome = .ok (.appended ⟨latest.record.recordId, index, .deduplicated,
            ["in-memory-accepted"]⟩) ↔ request.eq latest.request = true) ∧
        (request.eq latest.request = false →
          validateAppendRequestLimits state.definition request = .ok () →
          outcome = .error (.publishingConflict "publishing ID request differs"))) ∧
      (publishingId < latest.publishingId →
        validateAppendRequestLimits state.definition request = .ok () →
        outcome = .error (.stalePublishingId "publishing ID is stale"))) ∧
    (∀ stream state index name latest (request : AppendRequest),
      w.log.streams.lookup stream = some state →
      (w.publications stream index name).getLast? = some latest → request.eq latest.request = true →
      routedPartition state.definition (route stream request.partitionKey) = .ok index) ∧
    (∀ stream request clock answer,
      let done := w.perform (.append clock answer stream request)
      (∃ receipt, done.1 = .ok (.appended receipt) ∧ receipt.outcome = .deduplicated) ∨
        (∃ e, done.1 = .error e) →
      done.2.log = w.log) ∧
    (Recorded.start maxActiveLeases).appendOutcomes ops
      = (Recorded.start maxActiveLeases).appendOutcomes (ops.filter fun op => !op.isTrim) := by
  intro w
  have sound := Recorded.sound_start maxActiveLeases
  have inv : w.Sound := sound.run ops
  have rem : w.Remembers := (Recorded.remembers_start maxActiveLeases).run sound ops
  have answers : ∀ a ∈ w.accepted, a.answer = route a.record.stream a.request.partitionKey :=
    Recorded.answers_run det nofun
  refine ⟨?_, ?_, ?_, ?_, Recorded.appendOutcomes_filter (.refl _) ops⟩
  · intro stream index name
    have inc := rem.increasing stream index name
    refine ⟨inc, ?_⟩
    rw [nodup_iff_pairwise_ne, pairwise_map]
    exact inc.imp fun h => Nat.ne_of_lt h.2
  · intro stream state index name latest request publishingId clock hstate hlatest hproducer hroute
      outcome
    have check := rem.check hstate hproducer hlatest
    refine ⟨?_, ?_⟩
    · rintro rfl
      rw [if_pos rfl] at check
      refine ⟨⟨fun done => ?_, fun heq => ?_⟩, fun hne hlimits => ?_⟩
      · by_contra hne
        rw [if_neg hne] at check
        obtain h | h := Recorded.check_of_perform hstate hroute done
        · cases check.symm.trans h
        · cases check.symm.trans h
      · rw [if_pos heq] at check
        obtain ⟨-, hlimits, -⟩ := rem.retry answers hstate hlatest heq
        exact (Recorded.perform_of_check inv hstate hlimits hroute clock).1 _ check
      · rw [if_neg (by simp [hne])] at check
        exact (Recorded.perform_of_check inv hstate hlimits hroute clock).2 _ check
    · intro hlt hlimits
      rw [if_neg (by omega), if_pos hlt] at check
      exact (Recorded.perform_of_check inv hstate hlimits hroute clock).2 _ check
  · intro stream state index name latest request hstate hlatest heq
    exact (rem.retry answers hstate hlatest heq).2.2
  · intro stream request clock answer done h
    exact Recorded.perform_unchanged clock answer h

/-- One accepted publication under a payload limit of one byte. -/
def publishedRun : List Operation :=
  [.declareStream (eventsDefinition 1),
    .append (.aware 0) (.returned 0) "events" (eventsRequest 1 [1] (some 7)),
    .trim "events" 0 2]

theorem named_producer_idempotence_published :
    Deterministic (fun _ _ => .returned 0) publishedRun ∧
    (((Recorded.start 1).run publishedRun).perform
        (.append .raised (.returned 0) "events" (eventsRequest 1 [1] (some 7)))).1
      = .ok (.appended ⟨1, 0, .deduplicated, ["in-memory-accepted"]⟩) := by
  have det : Deterministic (fun _ _ => .returned 0) publishedRun := by
    intro clock answer stream request mem
    simp only [publishedRun, mem_cons, Operation.append.injEq, reduceCtorEq, not_mem_nil, or_false,
      false_or] at mem
    exact mem.2.1
  have result := (named_producer_idempotence 1 (fun _ _ => .returned 0) publishedRun det).2.1
    "events" _ 0 "producer" _ (eventsRequest 1 [1] (some 7)) 7 .raised rfl rfl rfl rfl
  exact ⟨det, (result.1 rfl).1.mpr rfl⟩

/-- A different request under the latest ID that is also over a limit is refused for the limit. -/
theorem oversized_conflict_is_a_limit_error :
    let w := (Recorded.start 1).run publishedRun
    let request := eventsRequest 1 [1, 2] (some 7)
    ∃ latest, (w.publications "events" 0 "producer").getLast? = some latest ∧
      request.producer = some ("producer", latest.publishingId) ∧
      request.eq latest.request = false ∧
      ¬ (w.perform (.append (.aware 1) (.returned 0) "events" request)).1
        = .error (.publishingConflict "publishing ID request differs") ∧
      (w.perform (.append (.aware 1) (.returned 0) "events" request)).1
        = .error (.resourceLimit "payload exceeds stream limit") := by
  refine ⟨_, rfl, rfl, rfl, ?_, rfl⟩
  intro h
  cases h

end ToriPy.PersistentStreams
