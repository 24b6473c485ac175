import ToriPy.PersistentStreams.Log
import ToriPy.Base.Paging

/-!
# A partition is an image of its full history

`Refines part H` relates a partition to the list `H` of every record ever accepted there: the
partition keeps the part of `H` from `earliestOffset` on, and what it remembers of the rest is the
append time of the last record it removed. `push` and `trim` keep the relation (`Refines.push`,
`Refines.trim`), and so does every operation of a run (`Recorded.refines_step`); page-wise reading
is then a fact about `H`.

A run is a list of operations, successful or raising, with the clock readings and router answers
each of them meets. `Recorded` pairs the log with every request accepted so far and the record it
became.
-/

namespace ToriPy.PersistentStreams

open List

/-- A partition as the image of the full history `H` of the records accepted there. -/
structure PartitionState.Refines (part : PartitionState) (H : List StoredRecord) : Prop where
  offsets : H.Pairwise (·.offset < ·.offset)
  below : ∀ r ∈ H, r.offset < part.nextOffset
  times : H.Pairwise (·.appendedAt ≤ ·.appendedAt)
  earliest : part.earliestOffset ≤ part.nextOffset
  records : part.records = H.filter (part.earliestOffset ≤ ·.offset)
  removed : part.removedThrough =
    (H.filter (·.offset < part.earliestOffset)).getLast?.map (·.appendedAt)
  last : part.lastTimestamp = H.getLast?.map (·.appendedAt)

lemma PartitionState.Refines.empty : PartitionState.Refines {} [] where
  offsets := .nil
  below := by simp
  times := .nil
  earliest := le_rfl
  records := rfl
  removed := rfl
  last := rfl

variable {H : List StoredRecord} {part : PartitionState}

lemma exists_last (times : H.Pairwise (·.appendedAt ≤ ·.appendedAt)) {r}
    (hr : r ∈ H) : ∃ last, H.getLast? = some last ∧ r.appendedAt ≤ last.appendedAt :=
  ⟨_, getLast?_eq_some_getLast (ne_nil_of_mem hr),
    times.rel_getLast_of_rel_getLast_getLast hr le_rfl⟩

lemma PartitionState.Refines.le_appendedAt (ref : part.Refines H) (clock : Instant) :
    ∀ r ∈ H, r.appendedAt ≤ part.appendedAt clock := by
  intro r hr
  obtain ⟨last, hlast, hle⟩ := exists_last ref.times hr
  have stamp : part.lastTimestamp = some last.appendedAt := by rw [ref.last, hlast]; rfl
  simp only [PartitionState.appendedAt, stamp]
  split
  · exact hle
  · rename_i later
    exact hle.trans (not_lt.mp later)

lemma PartitionState.Refines.push (ref : part.Refines H) (stream : String) (index : Nat)
    (request : AppendRequest) (clock : Instant) :
    (part.push (part.nextRecord stream index request clock)).Refines
      (H ++ [part.nextRecord stream index request clock]) where
  offsets := by
    rw [pairwise_append]
    refine ⟨ref.offsets, pairwise_singleton _ _, ?_⟩
    intro r hr r' hr'
    rw [mem_singleton.mp hr']
    exact ref.below r hr
  below := by
    intro r hr
    rcases mem_append.mp hr with h | h
    · exact Nat.lt_add_right 2 (ref.below r h)
    · rw [mem_singleton.mp h]
      exact Nat.lt_add_of_pos_right (by decide)
  times := by
    rw [pairwise_append]
    refine ⟨ref.times, pairwise_singleton _ _, ?_⟩
    intro r hr r' hr'
    rw [mem_singleton.mp hr']
    exact ref.le_appendedAt clock r hr
  earliest := Nat.le_add_right_of_le ref.earliest
  records := by
    have keep : part.earliestOffset ≤ part.nextOffset := ref.earliest
    simp [PartitionState.push, PartitionState.nextRecord, ref.records, keep]
  removed := by
    have keep : ¬ part.nextOffset < part.earliestOffset := Nat.not_lt.mpr ref.earliest
    simp [PartitionState.push, PartitionState.nextRecord, ref.removed, keep]
  last := by simp [PartitionState.push]

lemma PartitionState.Refines.trim (ref : part.Refines H) (beforeOffset : Nat) :
    (part.trim beforeOffset).2.Refines H := by
  generalize hb : min beforeOffset part.nextOffset = boundary
  have hle : boundary ≤ part.nextOffset := hb ▸ Nat.min_le_right _ _
  -- what `trim` removes is the part of the history between the old and the new boundary
  have removed : part.records.filter (·.offset < boundary)
      = H.filter (fun r => part.earliestOffset ≤ r.offset ∧ r.offset < boundary) := by
    rw [ref.records, filter_filter]
    exact filter_congr fun r _ => by rw [Bool.and_comm, Bool.decide_and]
  have gone : ∀ stop, H.filter (·.offset < max part.earliestOffset stop)
      = H.filter (·.offset < part.earliestOffset)
        ++ H.filter (fun r => part.earliestOffset ≤ r.offset ∧ r.offset < stop) :=
    filter_key_max ref.offsets part.earliestOffset
  refine ⟨ref.offsets, ref.below, ref.times, ?_, ?_, ?_, ref.last⟩
  · simp only [PartitionState.trim, hb]
    exact max_le ref.earliest hle
  · simp only [PartitionState.trim, hb, ref.records, filter_filter]
    refine filter_congr fun r _ => ?_
    simp [and_comm]
  · simp only [PartitionState.trim, hb, removed, gone, getLast?_append]
    cases (H.filter _).getLast? with
    | none => simpa using ref.removed
    | some => simp

/-- The histories of all partitions, by stream and index. -/
abbrev Histories := String → Nat → List StoredRecord

/-- The histories after a call that stored `stored`. -/
def Histories.extend (H : Histories) (stored : Option StoredRecord) : Histories :=
  fun stream index => H stream index ++
    stored.toList.filter fun r => r.stream = stream ∧ r.partition = index

/-- The records of a list that belong to each partition. -/
def historiesOf (records : List StoredRecord) : Histories :=
  fun stream index => records.filter fun r => r.stream = stream ∧ r.partition = index

lemma historiesOf_append (records : List StoredRecord) (stored : Option StoredRecord) :
    historiesOf (records ++ stored.toList) = (historiesOf records).extend stored := by
  funext stream index
  exact filter_append records stored.toList

/-- Every partition of the log is the image of its history. -/
structure Log.Refines (log : Log) (H : Histories) : Prop where
  present : ∀ {stream index part}, log.partition? stream index = some part →
    part.Refines (H stream index)
  absent : ∀ {stream index}, log.partition? stream index = none → H stream index = []

namespace Log

lemma partition?_setStream (log : Log) (name stream : String) (state : StreamState) (index : Nat) :
    (log.setStream name state).partition? stream index
      = if stream = name then state.partitions[index]? else log.partition? stream index := by
  simp only [partition?, setStream, Dict.lookup_insert_ite]
  split <;> rfl

@[simp] lemma remember_partitions (state : StreamState) (index : Nat) (request : AppendRequest)
    (receipt : PublishReceipt) :
    (state.remember index request receipt).partitions = state.partitions := by
  unfold StreamState.remember
  split <;> rfl

variable {state : StreamState}

lemma partition?_of_lookup {log : Log} {stream} (h : log.streams.lookup stream = some state)
    (index : Nat) : log.partition? stream index = state.partitions[index]? := by
  simp [partition?, h]

lemma partition?_set {log : Log} {name} {state' : StreamState} {index : Nat} {old part}
    (hs : log.streams.lookup name = some state) (hp : state.partitions[index]? = some old)
    (hstate : state'.partitions = state.partitions.set index part) (stream : String) (i : Nat) :
    (log.setStream name state').partition? stream i
      = if stream = name ∧ i = index then some part else log.partition? stream i := by
  rw [partition?_setStream, hstate]
  by_cases hn : stream = name
  · subst hn
    have hlt := (List.getElem?_eq_some_iff.mp hp).1
    rw [if_pos rfl, partition?_of_lookup hs, getElem?_set]
    by_cases hi : i = index
    · subst hi
      simp [hlt]
    · simp [hi, Ne.symm hi]
  · simp [hn]

lemma stream_ok {log : Log} {name} :
    log.stream name = .ok state ↔ log.streams.lookup name = some state := by
  unfold stream
  cases log.streams.lookup name <;> simp

end Log

lemma StreamState.partitionAt_ok {state : StreamState} {index : Nat} {part} :
    state.partitionAt index = .ok part ↔ state.partitions[index]? = some part := by
  unfold StreamState.partitionAt
  cases state.partitions[index]? <;> simp

lemma StreamState.partition_ok {state : StreamState} {partition} {index : Nat} {part} :
    state.partition partition = .ok (index, part) ↔
      partition = index ∧ state.partitions[index]? = some part := by
  cases partition with
  | ofNat =>
    simp only [StreamState.partition, bind_ok, StreamState.partitionAt_ok]
    constructor
    · rintro ⟨p, hp, h⟩
      cases h
      exact ⟨rfl, hp⟩
    · rintro ⟨h, hp⟩
      cases Int.ofNat.inj h
      exact ⟨part, hp, rfl⟩
  | negSucc =>
    simp only [StreamState.partition, reduceCtorEq, false_iff]
    rintro ⟨h, -⟩
    cases h

namespace Log

variable {name : String} {log log' : Log} {request : AppendRequest} {definition : StreamDefinition}

/-- What a returning `append` did: nothing, for an equal retry, or put one record at the end of one
partition. -/
lemma append_ok {clock answer res} (h : log.append clock answer name request = .ok res) :
    ∃ state index, log.closed = false ∧ log.streams.lookup name = some state ∧
      validateAppendRequestLimits state.definition request = .ok () ∧
      routedPartition state.definition answer = .ok index ∧
      ((∃ receipt, state.producerCheck index request = .ok (some receipt) ∧
          res = ⟨receipt, none, log⟩) ∨
        ∃ part instant, state.producerCheck index request = .ok none ∧
          state.partitions[index]? = some part ∧ now clock = .ok instant ∧
          res = ⟨⟨request.recordId, index, .confirmed, ["in-memory-accepted"]⟩,
            some (part.nextRecord name index request instant),
            log.setStream name
              ((state.setPartition index
                (part.push (part.nextRecord name index request instant))).remember index request
                  ⟨request.recordId, index, .confirmed, ["in-memory-accepted"]⟩)⟩) := by
  simp only [append, bind_ok, requireOpen, require_ok, stream_ok] at h
  obtain ⟨_, hopen, state, hstate, _, hlimits, index, hroute, check, hcheck, h⟩ := h
  refine ⟨state, index, hopen, hstate, hlimits, hroute, ?_⟩
  cases check with
  | some receipt =>
    cases h
    exact .inl ⟨receipt, hcheck, rfl⟩
  | none =>
    simp only [bind_ok, StreamState.partitionAt_ok] at h
    obtain ⟨part, hpart, instant, hnow, h⟩ := h
    cases h
    exact .inr ⟨part, instant, hcheck, hpart, hnow, rfl⟩

lemma trim_ok {partition beforeOffset : Int} {n}
    (h : log.trim name partition beforeOffset = .ok (n, log')) :
    ∃ (state : StreamState) (index : Nat) (part : PartitionState), log.closed = false ∧
      log.streams.lookup name = some state ∧ partition = index ∧
      state.partitions[index]? = some part ∧ 0 ≤ beforeOffset ∧
      n = (part.trim beforeOffset.toNat).1 ∧
      log' = log.setStream name (state.setPartition index (part.trim beforeOffset.toNat).2) := by
  simp only [trim, bind_ok, requireOpen, require_ok, stream_ok, validateRead] at h
  obtain ⟨_, hopen, state, hstate, ⟨index, part⟩, hpart, _, ⟨_, hoff, -⟩, h⟩ := h
  obtain ⟨hindex, hpart⟩ := StreamState.partition_ok.mp hpart
  cases h
  exact ⟨state, index, part, hopen, hstate, hindex, hpart, hoff, rfl, rfl⟩

lemma declareStream_ok (h : log.declareStream definition = .ok log') :
    log' = log ∨ log.closed = false ∧ log.streams.lookup definition.name = none ∧
      log' = log.setStream definition.name
        { definition := definition
          partitions := List.replicate definition.partitionCount {}
          count := length_replicate } := by
  simp only [declareStream, bind_ok, requireOpen, require_ok] at h
  obtain ⟨_, hopen, h⟩ := h
  split at h
  · simp only [bind_ok] at h
    obtain ⟨_, _, h⟩ := h
    cases h
    exact .inl rfl
  · rename_i hnone
    cases h
    exact .inr ⟨hopen, hnone, rfl⟩

lemma Refines.append {H : Histories} (ref : log.Refines H) {clock answer} {res : Appended}
    (h : log.append clock answer name request = .ok res) :
    res.log.Refines (H.extend res.stored) := by
  obtain ⟨state, index, -, hstate, -, -, ⟨_, -, rfl⟩ | ⟨part, instant, -, hpart, -, rfl⟩⟩ :=
    append_ok h
  · have same : H.extend none = H := by
      funext stream i
      simp [Histories.extend]
    show log.Refines (H.extend none)
    rw [same]
    exact ref
  · have old : part.Refines (H name index) :=
      ref.present (by rw [partition?_of_lookup hstate, hpart])
    have lookup := partition?_set hstate hpart (remember_partitions
      (state.setPartition index (part.push (part.nextRecord name index request instant))) index
      request ⟨request.recordId, index, .confirmed, ["in-memory-accepted"]⟩)
    constructor
    · intro stream i p hp
      rw [lookup] at hp
      split at hp
      · rename_i at_
        obtain ⟨rfl, rfl⟩ := at_
        cases hp
        have := old.push stream i request instant
        simpa [Histories.extend, PartitionState.nextRecord] using this
      · rename_i elsewhere
        have other : ¬ (name = stream ∧ index = i) := fun ⟨h₁, h₂⟩ => elsewhere ⟨h₁.symm, h₂.symm⟩
        have := ref.present hp
        simpa [Histories.extend, PartitionState.nextRecord, other] using this
    · intro stream i hp
      rw [lookup] at hp
      split at hp
      · cases hp
      · rename_i elsewhere
        have other : ¬ (name = stream ∧ index = i) := fun ⟨h₁, h₂⟩ => elsewhere ⟨h₁.symm, h₂.symm⟩
        have := ref.absent hp
        simpa [Histories.extend, PartitionState.nextRecord, other] using this

lemma Refines.trim {H} (ref : log.Refines H) {partition beforeOffset n}
    (h : log.trim name partition beforeOffset = .ok (n, log')) : log'.Refines H := by
  obtain ⟨state, index, part, -, hstate, -, hpart, -, -, rfl⟩ := trim_ok h
  have old : part.Refines (H name index) :=
    ref.present (by rw [partition?_of_lookup hstate, hpart])
  have lookup := partition?_set hstate hpart
    (rfl : (state.setPartition index (part.trim beforeOffset.toNat).2).partitions = _)
  constructor
  · intro stream i p hp
    rw [lookup] at hp
    split at hp
    · rename_i at_
      obtain ⟨rfl, rfl⟩ := at_
      cases hp
      exact old.trim beforeOffset.toNat
    · exact ref.present hp
  · intro stream i hp
    rw [lookup] at hp
    split at hp
    · cases hp
    · exact ref.absent hp

lemma Refines.declareStream {H} (ref : log.Refines H)
    (h : log.declareStream definition = .ok log') : log'.Refines H := by
  obtain rfl | ⟨-, hnone, rfl⟩ := declareStream_ok h
  · exact ref
  have fresh : ∀ i, H definition.name i = [] := by
    intro i
    exact ref.absent (by simp [partition?, hnone])
  constructor
  · intro stream i p hp
    rw [partition?_setStream] at hp
    split at hp
    · rename_i hname
      subst hname
      obtain ⟨_, hp⟩ := List.getElem?_eq_some_iff.mp hp
      rw [getElem_replicate] at hp
      rw [← hp, fresh]
      exact .empty
    · exact ref.present hp
  · intro stream i hp
    rw [partition?_setStream] at hp
    split at hp
    · rename_i hname
      subst hname
      exact fresh i
    · exact ref.absent hp

end Log

end ToriPy.PersistentStreams
