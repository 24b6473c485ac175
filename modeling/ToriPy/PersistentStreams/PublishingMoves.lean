import ToriPy.PersistentStreams.Publishing

/-!
# The moves of publication

What a step of `append` can do, said once: `Moves` has one constructor for each kind of step, with
what the step has checked, and `Goes` says which stage of a call follows which. Every step is one of
them (`step_moves`), so that an invariant is proved by cases on the moves.
-/

namespace ToriPy.PersistentStreams.RabbitMq.Publishing

/-- The call returned a receipt for a partition with an outcome. -/
def Answer.Got (a : Answer) (partition : Nat) (outcome : PublishOutcome) : Prop :=
  ∃ receipt, a.result = .returned receipt ∧ receipt.partition = partition ∧
    receipt.outcome = outcome

def Answer.Accepted (a : Answer) (partition : Nat) : Prop :=
  a.Got partition .confirmed ∨ a.Got partition .deduplicated

lemma Answer.Got.unique {a : Answer} {partition partition' outcome outcome'}
    (got : a.Got partition outcome) (got' : a.Got partition' outcome') :
    partition = partition' ∧ outcome = outcome' := by
  obtain ⟨_, result, rfl, rfl⟩ := got
  obtain ⟨_, result', rfl, rfl⟩ := got'
  rw [result] at result'
  cases result'
  exact ⟨rfl, rfl⟩

def Result.Rejects (result : Result) : Prop :=
  ∀ receipt, result = .returned receipt →
    receipt.outcome ≠ .confirmed ∧ receipt.outcome ≠ .deduplicated

lemma Result.Rejects.not_accepted {a : Answer} {partition} (rejects : a.result.Rejects) :
    ¬ a.Accepted partition := by
  rintro (⟨receipt, result, -, outcome⟩ | ⟨receipt, result, -, outcome⟩)
  · exact (rejects receipt result).1 outcome
  · exact (rejects receipt result).2 outcome

lemma Result.Rejects.of_receipt {call : Call} {outcome facts} (confirmed : outcome ≠ .confirmed)
    (deduplicated : outcome ≠ .deduplicated) :
    (Result.returned (call.receipt outcome facts)).Rejects := by
  rintro receipt ⟨⟩
  exact ⟨confirmed, deduplicated⟩

namespace World

variable {setup : Setup} {w w' : World} {i : Nat} {call : Call}

/-! ### The steps of calls -/

lemma during_eq_some {stages act} :
    w.during i stages act = some w' ↔
      ∃ call, w.calls[i]? = some call ∧ stages call.stage = true ∧ act call = some w' := by
  unfold during
  constructor
  · intro h
    obtain ⟨call, found, acted⟩ := bind_some.mp h
    split at acted
    · exact ⟨call, found, ‹_›, acted⟩
    · cases acted
  · rintro ⟨call, found, stage, acted⟩
    rw [found, Option.bind_some, if_pos stage, acted]

/-- The call was routed to a partition of a declared stream and its envelope encoded. -/
def Routed (log : RabbitLog) (call : Call) : Prop :=
  ∃ definition, log.definitions.lookup call.stream = some definition ∧
    call.partition < definition.partitionCount ∧
    call.physical = physicalName definition call.partition ∧
    encodeEnvelope (.ofRequest call.request) (envelopeLimits definition) = .ok call.body

lemma prepare_ok {stream answer request}
    (prepared : w.prepare setup stream answer request = .ok call) :
    call.stage = .slot ∧ Routed w.log call := by
  simp only [prepare, bind_ok, mapError_ok, require_ok, exists_const, Prod.exists] at prepared
  obtain ⟨_, _, routed, definition, found, _, encoded, -, -, -, same⟩ := prepared
  cases same
  obtain ⟨_, found', inside, rfl⟩ := Storage.route_ok routed
  have same := Storage.definition_ok found
  rw [found'] at same
  cases same
  exact ⟨rfl, definition, found', inside, rfl, encoded⟩

def Extends (log log' : RabbitLog) : Prop :=
  ∀ {stream definition}, log.definitions.lookup stream = some definition →
    log'.definitions.lookup stream = some definition

lemma extends_declared {log answers definition} :
    Extends log (declared log answers definition) := by
  intro stream known found
  unfold declared
  split
  · rename_i log' ok
    obtain rfl | ⟨absent, definitions⟩ := Storage.declareStream_ok ok
    · exact found
    · rw [definitions, AList.lookup_insert_ne, found]
      rintro rfl
      rw [absent] at found
      cases found
  · exact found

lemma Routed.mono {log log'} (routed : Routed log call) (grows : Extends log log') :
    Routed log' call := by
  obtain ⟨definition, found, rest⟩ := routed
  exact ⟨definition, grows found, rest⟩

/-- The publishing ID of a call is above the one in the table. -/
def Ahead (w : World) (call : Call) : Prop :=
  ∀ {name publishingId latest request}, call.request.producer = some (name, publishingId) →
    w.coordinates.lookup (call.stream, call.partition, name) = some (latest, request) →
      latest < publishingId

/-- No message of the producer with the ID or a higher one is on its way to the stream. -/
def Quiet (w : World) (physical name : String) (publishingId : Nat) : Prop :=
  ∀ message ∈ w.inFlight, message.physical = physical → ∀ sent ∈ message.producer, sent.1 = name →
    sent.2 < publishingId

/-- The sequence of a producer is only queried once its earlier messages have arrived or are lost. -/
def Settled (w : World) : Action → Prop
  | .query i => ∀ call ∈ w.calls[i]?, ∀ producer ∈ call.request.producer,
      w.Quiet call.physical producer.1 producer.2
  | _ => True

/-- Where a call in one stage goes next; `settled` says that the step of the query was. -/
inductive Goes (settled : Prop) (w : World) (call : Call) : Stage → Prop where
  | lock (stage : call.stage = .slot) : Goes settled w call .lock
  | querying (stage : call.stage = .lock) (free : w.locked call.slotKey = false)
      (ahead : w.Ahead call) : Goes settled w call .querying
  | unnamed (stage : call.stage = .lock) (free : w.locked call.slotKey = false)
      (ahead : w.Ahead call) (producer : call.request.producer = none) :
      Goes settled w call .sending
  | answered {name publishingId} (stage : call.stage = .querying)
      (producer : call.request.producer = some (name, publishingId))
      (quiet : settled → w.Quiet call.physical name publishingId) :
      Goes settled w call (.answered (w.broker.sequence call.physical name))
  | resumed {name publishingId sequence next} (stage : call.stage = .answered sequence)
      (producer : call.request.producer = some (name, publishingId)) (above : sequence < publishingId)
      (ready : next = .publisher ∨ next = .sending) : Goes settled w call next
  | publisher {next} (stage : call.stage = .publisher) (ready : next = .starting ∨ next = .sending) :
      Goes settled w call next
  | started (stage : call.stage = .starting) : Goes settled w call .sending

/-- What a step does. -/
inductive Moves (settled : Prop) (w : World) : World → Prop where
  | answered {a} (rejects : a.result.Rejects) :
      Moves settled w { w with history := w.history ++ [a] }
  | admitted {call : Call} {pending pendingBytes} (stage : call.stage = .slot)
      (routed : Routed w.log call) :
      Moves settled w { w with calls := w.calls ++ [call], pending, pendingBytes }
  | moved {i : Nat} {call : Call} {stage slots} (found : w.calls[i]? = some call)
      (goes : Goes settled w call stage) :
      Moves settled w { w.moved i call stage with slots }
  | finished {i : Nat} {call : Call} {result} (found : w.calls[i]? = some call)
      (rejects : result.Rejects) :
      Moves settled w (w.finish i call result)
  | deduplicated {i : Nat} {call : Call} {name publishingId request facts}
      (found : w.calls[i]? = some call)
      (producer : call.request.producer = some (name, publishingId))
      (known : w.coordinates.lookup (call.stream, call.partition, name) =
        some (publishingId, request))
      (same : request.eq call.request = true) :
      Moves settled w (w.finish i call (.returned (call.receipt .deduplicated facts)))
  | transmitted {i : Nat} {call : Call} (found : w.calls[i]? = some call)
      (stage : call.stage = .sending) :
      Moves settled w (w.transmit i call)
  | confirmed {i : Nat} {call : Call} {message} (found : w.calls[i]? = some call)
      (stage : call.stage = .confirming)
      (received : message ∈ w.broker.received) (confirms : Confirms i call message) :
      Moves settled w (w.confirm i call)
  | received {k : Nat} {message} (found : w.inFlight[k]? = some message) :
      Moves settled w
        { w with inFlight := w.inFlight.eraseIdx k, broker := w.broker.receive message }
  | lost {k : Nat} : Moves settled w { w with inFlight := w.inFlight.eraseIdx k }
  | foreign {entry} : Moves settled w
      { w with broker := { w.broker with stored := w.broker.stored ++ [entry] } }
  | extended {log} (grows : Extends w.log log) : Moves settled w { w with log }

lemma localResult_cases (w : World) (call : Call) :
    (∃ result, w.localResult call = some result ∧ result.Rejects) ∨
    (∃ name publishingId request facts, call.request.producer = some (name, publishingId) ∧
      w.coordinates.lookup (call.stream, call.partition, name) = some (publishingId, request) ∧
      request.eq call.request = true ∧
      w.localResult call = some (.returned (call.receipt .deduplicated facts))) ∨
    w.localResult call = none ∧ w.Ahead call := by
  unfold localResult Ahead
  cases producer : call.request.producer with
  | none => exact .inr (.inr ⟨rfl, nofun⟩)
  | some owner =>
    obtain ⟨name, publishingId⟩ := owner
    dsimp only
    cases known : w.coordinates.lookup (call.stream, call.partition, name) with
    | none =>
      refine .inr (.inr ⟨rfl, ?_⟩)
      rintro _ _ latest request ⟨⟩ found
      rw [known] at found
      cases found
    | some entry =>
      obtain ⟨latest, request⟩ := entry
      dsimp only
      split
      · exact .inl ⟨_, rfl, nofun⟩
      rename_i notStale
      split
      · rename_i same
        subst same
        split
        · rename_i equal
          exact .inr (.inl ⟨name, latest, request, _, rfl, known, equal, rfl⟩)
        · exact .inl ⟨_, rfl, nofun⟩
      · rename_i different
        refine .inr (.inr ⟨rfl, ?_⟩)
        rintro _ _ latest' request' ⟨⟩ found
        rw [known] at found
        cases found
        omega

variable {settled : Prop}

lemma append_moves {stream answer request} :
    Moves settled w (w.append setup stream answer request) := by
  unfold append
  cases prepared : w.prepare setup stream answer request with
  | error => exact .answered nofun
  | ok =>
    dsimp only
    split
    · exact .answered (.of_receipt nofun nofun)
    · obtain ⟨stage, routed⟩ := prepare_ok prepared
      exact .admitted stage routed

lemma publisherSlot_moves (found : w.calls[i]? = some call) (stage : call.stage = .slot) :
    Moves settled w (w.publisherSlot setup i call) := by
  unfold publisherSlot
  split
  · exact .moved found (.lock stage)
  · split
    · exact .finished found nofun
    · exact .moved found (.lock stage)

lemma enter_moves (found : w.calls[i]? = some call) (stage : call.stage = .lock)
    (free : w.locked call.slotKey = false) : Moves settled w (w.enter i call) := by
  unfold enter
  obtain ⟨_, checked, rejects⟩ | ⟨_, _, request, _, producer, known, same,
    checked⟩ | ⟨checked, ahead⟩ := localResult_cases w call
  · rw [checked]
    exact .finished found rejects
  · rw [checked]
    exact .deduplicated found producer known same
  · rw [checked]
    cases producer : call.request.producer with
    | none => exact .moved found (.unnamed stage free ahead producer)
    | some => exact .moved found (.querying stage free ahead)

lemma query_moves (routed : Routed w.log call) (found : w.calls[i]? = some call)
    (stage : call.stage = .querying) (queried : w.query i call = some w') :
    Moves (Settled w (.query i)) w w' := by
  obtain ⟨⟨name, publishingId⟩, producer, rfl⟩ := Option.map_eq_some_iff.mp queried
  dsimp only
  split
  · rename_i sequence answer
    simp only [querySequence, bind_ok, mapError_ok, require_ok, exists_const] at answer
    obtain ⟨_, declared, -, same⟩ := answer
    cases same
    obtain ⟨_, declared', -, physical, -⟩ := routed
    have known := Storage.definition_ok declared
    rw [declared'] at known
    cases known
    rw [← physical]
    refine .moved found (.answered stage producer fun settled => ?_)
    exact settled call found (name, publishingId) producer
  · exact .finished found fun _ h => by cases h

lemma resume_moves {sequence} (found : w.calls[i]? = some call)
    (stage : call.stage = .answered sequence) (resumed : w.resume i call sequence = some w') :
    Moves settled w w' := by
  obtain ⟨⟨name, publishingId⟩, producer, rfl⟩ := Option.map_eq_some_iff.mp resumed
  dsimp only
  split
  · exact .finished found nofun
  split
  · exact .finished found (.of_receipt nofun nofun)
  · have above : sequence < publishingId := by omega
    split
    · exact .moved found (.resumed stage producer above (.inr rfl))
    · exact .moved found (.resumed stage producer above (.inl rfl))

lemma publisher_moves (found : w.calls[i]? = some call) (stage : call.stage = .publisher) :
    Moves settled w (w.publisher i call) := by
  unfold publisher
  split
  · exact .moved found (.publisher stage (.inr rfl))
  · exact .moved found (.publisher stage (.inl rfl))

lemma excepted_rejects {exception} : (excepted call exception).Rejects := by
  unfold excepted
  split
  · exact .of_receipt nofun nofun
  · exact .of_receipt nofun nofun

lemma step_moves (routed : ∀ {i : Nat} {call}, w.calls[i]? = some call → Routed w.log call) {action}
    (stepped : step setup w action = some w') : Moves (Settled w action) w w' := by
  cases action with
  | append =>
    cases stepped
    exact append_moves
  | publisherSlot =>
    rw [step, during_eq_some] at stepped
    obtain ⟨call, found, stage, acted⟩ := stepped
    split at acted
    · cases acted
    · cases acted
      exact publisherSlot_moves found (of_decide_eq_true stage)
  | enter i =>
    rw [step, during_eq_some] at stepped
    obtain ⟨call, found, stage, acted⟩ := stepped
    split at acted
    · cases acted
    · rename_i free
      cases acted
      exact enter_moves found (of_decide_eq_true stage) (Bool.eq_false_iff.mpr free)
  | query =>
    rw [step, during_eq_some] at stepped
    obtain ⟨call, found, stage, acted⟩ := stepped
    exact query_moves (routed found) found (of_decide_eq_true stage) acted
  | failQuery =>
    rw [step, during_eq_some] at stepped
    obtain ⟨call, found, stage, acted⟩ := stepped
    cases acted
    exact .finished found nofun
  | resume i =>
    rw [step, during_eq_some] at stepped
    obtain ⟨call, found, -, acted⟩ := stepped
    split at acted
    · rename_i sequence stage
      exact resume_moves found stage acted
    · cases acted
  | publisher =>
    rw [step, during_eq_some] at stepped
    obtain ⟨call, found, stage, acted⟩ := stepped
    split at acted
    · cases acted
    · cases acted
      exact publisher_moves found (of_decide_eq_true stage)
  | started =>
    rw [step, during_eq_some] at stepped
    obtain ⟨call, found, stage, acted⟩ := stepped
    cases acted
    exact .moved found (.started (of_decide_eq_true stage))
  | transmit =>
    rw [step, during_eq_some] at stepped
    obtain ⟨call, found, stage, acted⟩ := stepped
    cases acted
    exact .transmitted found (of_decide_eq_true stage)
  | confirm i =>
    rw [step, during_eq_some] at stepped
    obtain ⟨call, found, stage, acted⟩ := stepped
    split at acted
    · rename_i confirmation
      obtain ⟨message, received, confirms⟩ := confirmation
      cases acted
      exact .confirmed found (of_decide_eq_true stage) received confirms
    · cases acted
  | except =>
    rw [step, during_eq_some] at stepped
    obtain ⟨call, found, -, acted⟩ := stepped
    cases acted
    exact .finished found excepted_rejects
  | cancel =>
    rw [step, during_eq_some] at stepped
    obtain ⟨_, found, -, acted⟩ := stepped
    cases acted
    exact .finished found nofun
  | deliver =>
    obtain ⟨_, found, rfl⟩ := Option.map_eq_some_iff.mp stepped
    exact .received found
  | lose =>
    cases stepped
    exact .lost
  | foreign =>
    cases stepped
    exact .foreign
  | declare =>
    cases stepped
    exact .extended extends_declared
  | configure =>
    cases stepped
    exact .extended fun found => found

end World

end ToriPy.PersistentStreams.RabbitMq.Publishing
