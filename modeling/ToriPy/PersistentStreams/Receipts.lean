import ToriPy.PersistentStreams.PublishingMoves

/-!
# What publication receipts say

Two invariants of the runs of `append`. `Sound` holds in all of them: the lock of a slot lets one call
at a time past the table of confirmed requests, so that the publishing IDs in the table only grow; a
request is deduplicated against an equal one that was confirmed before, and no two different requests
of a producer are accepted under one ID.

`Clean` is about the messages on their way. A call that ends without its confirmation leaves its
message behind, and the next call with the ID may be told by the broker that the ID is free, overtake
the message in the books and be overtaken by it on the wire: its own message is then ignored, and
confirmed (`overtaken_not_stored`). Where the sequence is only queried once no message with that ID
or a higher one is on its way, a confirmed request is stored (`receipts_truthful`).
-/

namespace ToriPy.PersistentStreams.RabbitMq.Publishing

open List

lemma eq_refl (a : AppendRequest) : a.eq a = true :=
  AppendRequest.eq_iff.mpr ⟨rfl, rfl, rfl, .refl _, rfl⟩

lemma eq_symm {a b : AppendRequest} (same : a.eq b = true) : b.eq a = true := by
  obtain ⟨id, key, payload, headers, producer⟩ := AppendRequest.eq_iff.mp same
  exact AppendRequest.eq_iff.mpr ⟨id.symm, key.symm, payload.symm, headers.symm, producer.symm⟩

lemma eq_trans {a b c : AppendRequest} (same : a.eq b = true) (same' : b.eq c = true) :
    a.eq c = true := by
  obtain ⟨id, key, payload, headers, producer⟩ := AppendRequest.eq_iff.mp same
  obtain ⟨id', key', payload', headers', producer'⟩ := AppendRequest.eq_iff.mp same'
  exact AppendRequest.eq_iff.mpr ⟨id.trans id', key.trans key', payload.trans payload',
    headers.trans headers', producer.trans producer'⟩

variable {partition : Nat} {stream : String}

namespace World

variable {w w' : World} {i : Nat} {call : Call} {stage : Stage} {name : String} {log : RabbitLog}
  {settled : Prop} {message : Message} {broker : Broker} {sequences : Dict (String × String) Nat}
  {stored : List (String × Bytes)} {entry : Nat × AppendRequest}

/-! ### The table of confirmed requests -/

def Repeats (before : List Answer) (a : Answer) : Prop :=
  ∀ {partition}, a.Got partition .deduplicated → ∃ b ∈ before, b.stream = a.stream ∧
    b.Got partition .confirmed ∧ b.request.eq a.request = true

/-- What every run keeps. -/
structure Sound (w : World) : Prop where
  routed : ∀ {i : Nat} {call}, w.calls[i]? = some call → Routed w.log call
  exclusive : ∀ {i j : Nat} {c d}, w.calls[i]? = some c → w.calls[j]? = some d → c.stage.holds = true →
    d.stage.holds = true → c.slotKey = d.slotKey → i = j
  ahead : ∀ {i : Nat} {call}, w.calls[i]? = some call → call.stage.holds = true → w.Ahead call
  recorded : ∀ {stream partition name latest request},
    w.coordinates.lookup (stream, partition, name) = some (latest, request) →
      request.producer = some (name, latest) ∧
      ∃ a ∈ w.history, a.stream = stream ∧ a.Got partition .confirmed ∧ a.request = request
  bounded : ∀ {a partition name publishingId}, a ∈ w.history → a.Accepted partition →
    a.request.producer = some (name, publishingId) → ∃ latest request,
      w.coordinates.lookup (a.stream, partition, name) = some (latest, request) ∧
      (publishingId < latest ∨ request.eq a.request = true)
  repeats : Justified Repeats w.history
  distinct : ∀ {a b partition producer}, a ∈ w.history → b ∈ w.history → a.stream = b.stream →
    a.Accepted partition → b.Accepted partition → a.request.producer = some producer →
    b.request.producer = some producer → a.request.eq b.request = true

lemma Sound.moved (sound : w.Sound) (found : w.calls[i]? = some call)
    (enters : stage.holds = true → call.stage.holds = true ∨
      w.locked call.slotKey = false ∧ w.Ahead call) : (w.moved i call stage).Sound where
  __ := sound
  routed := by
    intro j c at_j
    obtain ⟨-, at_j⟩ | ⟨rfl, rfl⟩ := set_cases at_j
    · exact sound.routed at_j
    · have routed := sound.routed found
      exact routed
  exclusive := by
    -- The call that moves against another one: it held the lock before, or nobody did.
    have against : ∀ {j : Nat} {d}, i ≠ j → w.calls[j]? = some d → stage.holds = true →
        d.stage.holds = true → call.slotKey ≠ d.slotKey := by
      intro j d ne at_j holds other key
      obtain before | ⟨free, -⟩ := enters holds
      · exact ne (sound.exclusive found at_j before other key)
      · have held : w.locked call.slotKey = true :=
          any_eq_true.mpr ⟨d, mem_of_getElem? at_j, by simp [key, other]⟩
        rw [free] at held
        cases held
    intro j k c d at_j at_k c_holds d_holds key
    obtain ⟨ne, at_j⟩ | ⟨rfl, rfl⟩ := set_cases at_j
    · obtain ⟨ne', at_k⟩ | ⟨rfl, rfl⟩ := set_cases at_k
      · exact sound.exclusive at_j at_k c_holds d_holds key
      · exact absurd key.symm (against ne at_j d_holds c_holds)
    · obtain ⟨ne', at_k⟩ | ⟨rfl, rfl⟩ := set_cases at_k
      · exact absurd key (against ne' at_k c_holds d_holds)
      · rfl
  ahead := by
    intro j c at_j holds
    obtain ⟨-, at_j⟩ | ⟨rfl, rfl⟩ := set_cases at_j
    · exact sound.ahead at_j holds
    · obtain before | ⟨-, ahead⟩ := enters holds
      · exact sound.ahead found before
      · exact ahead

lemma Sound.distinct_snoc (sound : w.Sound) {a : Answer}
    (new : ∀ {b partition producer}, b ∈ w.history → a.stream = b.stream → a.Accepted partition →
      b.Accepted partition → a.request.producer = some producer →
      b.request.producer = some producer → a.request.eq b.request = true) {b c : Answer} {producer}
    (mem : b ∈ w.history ++ [a]) (mem' : c ∈ w.history ++ [a]) (stream : b.stream = c.stream)
    (accepted : b.Accepted partition) (accepted' : c.Accepted partition)
    (owner : b.request.producer = some producer)
    (owner' : c.request.producer = some producer) : b.request.eq c.request = true := by
  obtain old | rfl := mem_snoc.mp mem
  · obtain old' | rfl := mem_snoc.mp mem'
    · exact sound.distinct old old' stream accepted accepted' owner owner'
    · exact eq_symm (new old stream.symm accepted' accepted owner' owner)
  · obtain old' | rfl := mem_snoc.mp mem'
    · exact new old' stream accepted accepted' owner owner'
    · exact eq_refl _

lemma Sound.recorded_snoc (sound : w.Sound) {a latest request}
    (known : w.coordinates.lookup (stream, partition, name) = some (latest, request)) :
    request.producer = some (name, latest) ∧ ∃ b ∈ w.history ++ [a], b.stream = stream ∧
      b.Got partition .confirmed ∧ b.request = request := by
  obtain ⟨producer, b, mem, rest⟩ := sound.recorded known
  exact ⟨producer, b, mem_append_left _ mem, rest⟩

lemma partition_of_receipt {outcome facts} (accepted : Answer.Accepted ⟨call.stream, call.request,
      .returned (call.receipt outcome facts)⟩ partition) : call.partition = partition := by
  obtain got | got := accepted
  all_goals exact (Answer.Got.unique ⟨_, rfl, rfl, rfl⟩ got).1

lemma Sound.answered (sound : w.Sound) {a} (rejected : ∀ {partition}, ¬ a.Accepted partition) :
    Sound { w with history := w.history ++ [a] } where
  __ := sound
  recorded := sound.recorded_snoc
  bounded := by
    intro b partition name publishingId mem accepted
    obtain mem | rfl := mem_snoc.mp mem
    · exact sound.bounded mem accepted
    · exact absurd accepted rejected
  repeats := sound.repeats.snoc fun {partition} got => absurd (Or.inr got) rejected
  distinct := sound.distinct_snoc fun _ _ accepted => absurd accepted rejected

lemma Sound.finish (sound : w.Sound) (found : w.calls[i]? = some call) {result}
    (rejected : ∀ {partition}, ¬ Answer.Accepted ⟨call.stream, call.request, result⟩ partition) :
    (w.finish i call result).Sound := by
  have ended : (w.moved i call .ended).Sound := sound.moved found nofun
  exact { ended.answered rejected with }

lemma Sound.deduplicate (sound : w.Sound) (found : w.calls[i]? = some call) {publishingId}
    {request : AppendRequest} {facts} (producer : call.request.producer = some (name, publishingId))
    (known : w.coordinates.lookup (call.stream, call.partition, name) = some (publishingId, request))
    (same : request.eq call.request = true) :
    (w.finish i call (.returned (call.receipt .deduplicated facts))).Sound := by
  have ended : (w.moved i call .ended).Sound := sound.moved found nofun
  obtain ⟨-, a, mem, stream, got, rfl⟩ := sound.recorded known
  -- What was accepted before under this ID is equal to the request in the table.
  have equal : ∀ {b partition}, b ∈ w.history → call.stream = b.stream → b.Accepted partition →
      call.partition = partition → b.request.producer = some (name, publishingId) →
      call.request.eq b.request = true := by
    rintro b partition mem' stream' accepted rfl producer'
    obtain ⟨latest, request, lookup, later | eq⟩ := sound.bounded mem' accepted producer'
    · rw [← stream', known] at lookup
      cases lookup
      exact absurd later (Nat.lt_irrefl _)
    · rw [← stream', known] at lookup
      cases lookup
      exact eq_trans (eq_symm same) eq
  constructor
  · exact ended.routed
  · exact ended.exclusive
  · exact ended.ahead
  · exact sound.recorded_snoc
  · intro b partition name publishingId mem accepted producer'
    obtain mem | rfl := mem_snoc.mp mem
    · exact sound.bounded mem accepted producer'
    · obtain rfl := partition_of_receipt accepted
      rw [producer] at producer'
      cases producer'
      exact ⟨_, _, known, .inr same⟩
  · refine sound.repeats.snoc fun {partition} repeated => ?_
    obtain rfl := partition_of_receipt (.inr repeated)
    exact ⟨a, mem, stream, got, same⟩
  · refine sound.distinct_snoc fun mem stream accepted accepted' owner owner' => ?_
    rw [producer] at owner
    cases owner
    exact equal mem stream accepted' (partition_of_receipt accepted) owner'

lemma slotKey_eq {c d m n} (c_routed : Routed log c) (d_routed : Routed log d)
    (stream : c.stream = d.stream) (partition : c.partition = d.partition)
    (c_producer : c.request.producer = some (name, m))
    (d_producer : d.request.producer = some (name, n)) : c.slotKey = d.slotKey := by
  obtain ⟨_, found, -, physical, -⟩ := c_routed
  obtain ⟨_, found', -, physical', -⟩ := d_routed
  rw [← stream, found] at found'
  cases found'
  rw [Call.slotKey, Call.slotKey, physical, physical', partition, c_producer, d_producer]
  rfl

lemma remembered_cases (w : World) (call : Call) (stream : String) (partition : Nat) (name : String) :
    (w.remembered call).lookup (stream, partition, name) =
        w.coordinates.lookup (stream, partition, name) ∨
      ∃ n, call.request.producer = some (name, n) ∧ stream = call.stream ∧
        partition = call.partition ∧
        (w.remembered call).lookup (stream, partition, name) = some (n, call.request) := by
  unfold remembered
  split
  · exact .inl rfl
  rename_i owner n producer
  rw [Dict.lookup_insert_ite]
  split
  · rename_i key
    cases key
    exact .inr ⟨n, producer, rfl, rfl, rfl⟩
  · exact .inl rfl

lemma Sound.confirm (sound : w.Sound) (found : w.calls[i]? = some call)
    (holds : call.stage.holds = true) : (w.confirm i call).Sound := by
  have ended : (w.moved i call .ended).Sound := sound.moved found nofun
  have confirmed : Answer.Got ⟨call.stream, call.request,
      .returned (call.receipt .confirmed ["rabbitmq-stream-confirmed"])⟩ call.partition .confirmed :=
    ⟨_, rfl, rfl, rfl⟩
  -- What was accepted before in the partition has a lower ID.
  have below : ∀ {b partition name m n}, b ∈ w.history → call.stream = b.stream →
      b.Accepted partition → call.partition = partition → call.request.producer = some (name, n) →
      b.request.producer = some (name, m) → m < n := by
    rintro b partition name m n mem stream accepted rfl producer producer'
    obtain ⟨latest, request, lookup, later | same⟩ := sound.bounded mem accepted producer'
    · rw [← stream] at lookup
      exact later.trans (sound.ahead found holds producer lookup)
    rw [← stream] at lookup
    obtain ⟨owner, -⟩ := sound.recorded lookup
    obtain ⟨-, -, -, -, owner'⟩ := AppendRequest.eq_iff.mp same
    rw [owner, producer'] at owner'
    cases owner'
    exact sound.ahead found holds producer lookup
  constructor
  · exact ended.routed
  · exact ended.exclusive
  · intro j c at_j c_holds name n latest request producer known
    obtain ⟨ne, at_j⟩ | ⟨rfl, rfl⟩ := set_cases at_j
    · obtain same | ⟨m, producer', stream, partition, -⟩ := remembered_cases w call _ _ _
      · exact sound.ahead at_j c_holds producer (same ▸ known)
      · have key := slotKey_eq (sound.routed found) (sound.routed at_j) stream.symm partition.symm
          producer' producer
        exact absurd (sound.exclusive found at_j holds c_holds key) ne
    · cases c_holds
  · intro stream partition name latest request known
    obtain same | ⟨n, producer, rfl, rfl, entry⟩ := remembered_cases w call stream partition name
    · exact sound.recorded_snoc (same ▸ known)
    · cases entry.symm.trans known
      exact ⟨producer, _, mem_append_right _ mem_cons_self, rfl, confirmed, rfl⟩
  · intro b partition name m mem accepted producer'
    obtain mem | rfl := mem_snoc.mp mem
    · obtain ⟨_, request, known, rest⟩ := sound.bounded mem accepted producer'
      obtain same | ⟨n, producer, stream, partition, new⟩ :=
        remembered_cases w call b.stream partition name
      · exact ⟨_, _, same.trans known, rest⟩
      · exact ⟨_, _, new, .inl (below mem stream.symm accepted partition.symm producer producer')⟩
    · obtain rfl := partition_of_receipt accepted
      refine ⟨m, call.request, ?_, .inr (eq_refl _)⟩
      show (w.remembered call).lookup (call.stream, call.partition, name) = _
      unfold remembered
      rw [show call.request.producer = some (name, m) from producer']
      exact AList.lookup_insert _
  · refine sound.repeats.snoc fun {partition} repeated => ?_
    exact absurd (Answer.Got.unique confirmed repeated).2 nofun
  · refine sound.distinct_snoc fun mem stream accepted accepted' owner owner' => ?_
    exact absurd (below mem stream accepted' (partition_of_receipt accepted) owner owner') (Nat.lt_irrefl _)

lemma Sound.admitted (sound : w.Sound) {pending pendingBytes} (stage : call.stage = .slot)
    (routed : Routed w.log call) :
    Sound { w with calls := w.calls ++ [call], pending, pendingBytes } where
  __ := sound
  routed := by
    intro j c at_j
    obtain at_j | ⟨-, rfl⟩ := concat_cases at_j
    · exact sound.routed at_j
    · exact routed
  exclusive := by
    intro j k c d at_j at_k c_holds d_holds
    obtain at_j | ⟨-, rfl⟩ := concat_cases at_j
    · obtain at_k | ⟨-, rfl⟩ := concat_cases at_k
      · exact sound.exclusive at_j at_k c_holds d_holds
      · rw [stage] at d_holds
        cases d_holds
    · rw [stage] at c_holds
      cases c_holds
  ahead := by
    intro j c at_j holds
    obtain at_j | ⟨-, rfl⟩ := concat_cases at_j
    · exact sound.ahead at_j holds
    · rw [stage] at holds
      cases holds

lemma Goes.enters (goes : Goes settled w call stage) (holds : stage.holds = true) :
    call.stage.holds = true ∨ w.locked call.slotKey = false ∧ w.Ahead call := by
  cases goes with
  | lock => cases holds
  | querying stage free ahead | unnamed stage free ahead => exact .inr ⟨free, ahead⟩
  | answered stage producer quiet | resumed stage producer above ready | publisher stage ready
  | started stage => exact .inl (by rw [stage]; rfl)

lemma Sound.moves (sound : w.Sound) (moves : Moves settled w w') : w'.Sound := by
  cases moves with
  | answered rejects => exact sound.answered rejects.not_accepted
  | admitted stage routed => exact sound.admitted stage routed
  | moved found goes =>
    exact { sound.moved found goes.enters with }
  | finished found rejects => exact sound.finish found rejects.not_accepted
  | deduplicated found producer known same => exact sound.deduplicate found producer known same
  | transmitted found stage =>
    have moved : Sound (w.moved _ _ .confirming) := sound.moved found fun _ =>
      .inl (by rw [stage]; rfl)
    exact { moved with }
  | confirmed found stage => exact sound.confirm found (by rw [stage]; rfl)
  | received | lost | foreign =>
    exact { sound with }
  | extended grows =>
    exact { sound with routed := fun found => (sound.routed found).mono grows }

/-! ### Messages on their way -/

def Of (calls : List Call) (message : Message) : Prop :=
  ∃ call, calls[message.call]? = some call ∧ message.physical = call.physical ∧
    message.producer = call.request.producer ∧ message.body = call.body

/-- The ID of the call is free at the broker, and stays so. -/
def Free (w : World) (call : Call) (name : String) (publishingId : Nat) : Prop :=
  w.broker.sequence call.physical name < publishingId ∧ w.Quiet call.physical name publishingId

/-- What is known of a call with a named producer behind its query. -/
def Clear (w : World) (i : Nat) (call : Call) (name : String) (publishingId : Nat) : Prop :=
  match call.stage with
  | .answered sequence => sequence < publishingId → w.Free call name publishingId
  | .publisher | .starting | .sending => w.Free call name publishingId
  | .confirming =>
    (∀ message ∈ w.inFlight, message.physical = call.physical → ∀ sent ∈ message.producer,
      sent.1 = name → publishingId ≤ sent.2 → message.call = i) ∧
    (w.broker.sequence call.physical name < publishingId ∨
      (call.physical, call.body) ∈ w.broker.stored)
  | .slot | .lock | .querying | .ended => True

/-- The partition holds a record that decodes to the request. -/
def Contains (w : World) (stream : String) (partition : Nat) (request : AppendRequest) : Prop :=
  ∃ definition body envelope, w.log.definitions.lookup stream = some definition ∧
    (physicalName definition partition, body) ∈ w.broker.stored ∧
    decodeEnvelope body (envelopeLimits definition) = .ok envelope ∧
    envelope.eq (.ofRequest request) = true

/-- What a run of settled steps keeps. -/
structure Clean (w : World) : Prop where
  onWay : ∀ message ∈ w.inFlight, Of w.calls message
  arrived : ∀ message ∈ w.broker.received, Of w.calls message
  counted : ∀ message ∈ w.broker.received, ∀ sent ∈ message.producer,
    sent.2 ≤ w.broker.sequence message.physical sent.1
  kept : ∀ message ∈ w.broker.received, message.producer = none →
    (message.physical, message.body) ∈ w.broker.stored
  clear : ∀ {i : Nat} {call name publishingId}, w.calls[i]? = some call →
    call.request.producer = some (name, publishingId) → w.Clear i call name publishingId
  confirmed : ∀ {a partition}, a ∈ w.history → a.Got partition .confirmed →
    w.Contains a.stream partition a.request

lemma Of.set (found : w.calls[i]? = some call)
    (of : Of w.calls message) : Of (w.calls.set i { call with stage }) message := by
  obtain ⟨c, at_c, rest⟩ := of
  by_cases same : i = message.call
  · subst same
    rw [found] at at_c
    cases at_c
    exact ⟨_, set_new found, rest⟩
  · exact ⟨c, by rw [getElem?_set_ne same, at_c], rest⟩

lemma Clean.moved (clean : w.Clean) (found : w.calls[i]? = some call)
    (clear : ∀ {name publishingId}, call.request.producer = some (name, publishingId) →
      w.Clear i { call with stage } name publishingId) : (w.moved i call stage).Clean where
  __ := clean
  onWay message mem := (clean.onWay message mem).set found
  arrived message mem := (clean.arrived message mem).set found
  clear := by
    intro j c name publishingId at_j producer
    obtain ⟨-, at_j⟩ | ⟨rfl, rfl⟩ := set_cases at_j
    · exact clean.clear at_j producer
    · exact clear producer

lemma Clean.answered (clean : w.Clean) {a} (contained : ∀ {partition}, a.Got partition .confirmed →
      w.Contains a.stream partition a.request) : Clean { w with history := w.history ++ [a] } where
  __ := clean
  confirmed := by
    intro b partition mem got
    obtain mem | rfl := mem_snoc.mp mem
    · exact clean.confirmed mem got
    · exact contained got

lemma Clean.finish (clean : w.Clean) (found : w.calls[i]? = some call) {result}
    (contained : ∀ {partition}, Answer.Got ⟨call.stream, call.request, result⟩ partition .confirmed →
      w.Contains call.stream partition call.request) : (w.finish i call result).Clean := by
  have ended : (w.moved i call .ended).Clean := clean.moved found fun _ => trivial
  exact { ended.answered contained with }

lemma Clean.admitted (clean : w.Clean) {pending pendingBytes} (stage : call.stage = .slot) :
    Clean { w with calls := w.calls ++ [call], pending, pendingBytes } where
  __ := clean
  onWay message mem := by
    obtain ⟨c, at_c, rest⟩ := clean.onWay message mem
    exact ⟨c, concat_old at_c, rest⟩
  arrived message mem := by
    obtain ⟨c, at_c, rest⟩ := clean.arrived message mem
    exact ⟨c, concat_old at_c, rest⟩
  clear := by
    intro j c name publishingId at_j producer
    obtain at_j | ⟨-, rfl⟩ := concat_cases at_j
    · exact clean.clear at_j producer
    · rw [Clear, stage]
      trivial

lemma Clean.goes (clean : w.Clean) (found : w.calls[i]? = some call)
    (goes : Goes settled w call stage) (ok : settled) {publishingId}
    (producer : call.request.producer = some (name, publishingId)) :
    w.Clear i { call with stage } name publishingId := by
  have clear := clean.clear found producer
  cases goes with
  | lock | querying => trivial
  | unnamed stage free ahead none =>
    rw [none] at producer
    cases producer
  | answered stage owner quiet =>
    rw [owner] at producer
    cases producer
    exact fun above => ⟨above, quiet ok⟩
  | resumed stage owner above ready =>
    rw [owner] at producer
    cases producer
    rw [Clear, stage] at clear
    obtain rfl | rfl := ready
    · exact clear above
    · exact clear above
  | publisher stage ready =>
    rw [Clear, stage] at clear
    obtain rfl | rfl := ready
    · exact clear
    · exact clear
  | started stage =>
    rw [Clear, stage] at clear
    exact clear

lemma sequence_receive_named {n} (producer : message.producer = some (name, n)) :
    (broker.receive message).sequence message.physical name =
      max (broker.sequence message.physical name) n := by
  unfold Broker.receive Broker.sequence
  by_cases accepts : broker.accepts message = true
  · have below : broker.sequence message.physical name < n := by
      rw [Broker.accepts, producer] at accepts
      exact of_decide_eq_true accepts
    simp only [accepts, if_true, Broker.advanced, producer, AList.lookup_insert, Option.getD_some]
    exact (Nat.max_eq_right (Nat.le_of_lt below)).symm
  · have above : n ≤ broker.sequence message.physical name := by
      rw [Broker.accepts, producer] at accepts
      exact Nat.not_lt.mp fun below => accepts (decide_eq_true below)
    simp only [accepts, Bool.false_eq_true, if_false]
    exact (Nat.max_eq_left above).symm

lemma sequence_receive_other {physical name}
    (other : ∀ n, message.producer = some (name, n) → message.physical ≠ physical) :
    (broker.receive message).sequence physical name = broker.sequence physical name := by
  unfold Broker.receive Broker.sequence
  dsimp only
  split
  · unfold Broker.advanced
    split
    · rfl
    rename_i owner n producer
    rw [AList.lookup_insert_ne]
    intro key
    cases key
    exact other n producer rfl
  · rfl

lemma sequence_le_receive {physical name} :
    broker.sequence physical name ≤ (broker.receive message).sequence physical name := by
  by_cases same : message.physical = physical ∧ ∃ n, message.producer = some (name, n)
  · obtain ⟨rfl, n, producer⟩ := same
    rw [sequence_receive_named producer]
    exact Nat.le_max_left _ _
  · rw [sequence_receive_other fun n producer physical => same ⟨physical, n, producer⟩]

lemma mem_stored_receive {entry}
    (mem : entry ∈ broker.stored) : entry ∈ (broker.receive message).stored := by
  unfold Broker.receive
  dsimp only
  split
  · exact mem_append_left _ mem
  · exact mem

lemma stored_receive (accepts : broker.accepts message = true) :
    (message.physical, message.body) ∈ (broker.receive message).stored := by
  unfold Broker.receive
  rw [if_pos accepts]
  exact mem_append_right _ mem_cons_self

/-- A call is as clear as its ID is free, until its message is on its way. -/
lemma Clear.imp {publishingId} (clear : w.Clear i call name publishingId)
    (free : call.stage.holds = true → w.Free call name publishingId →
      w'.Free call name publishingId)
    (own : call.stage = .confirming → w'.Clear i call name publishingId) :
    w'.Clear i call name publishingId := by
  unfold Clear at clear own ⊢
  split at clear
  case h_1 stage => exact fun above => free (by rw [stage]; rfl) (clear above)
  case h_2 stage | h_3 stage | h_4 stage => exact free (by rw [stage]; rfl) clear
  case h_5 stage => simpa only [stage] using own stage
  all_goals trivial

lemma Clear.mono {publishingId} (clear : w.Clear i call name publishingId)
    (fewer : ∀ message ∈ w'.inFlight, message ∈ w.inFlight)
    (free : w.broker.sequence call.physical name < publishingId →
      w'.broker.sequence call.physical name < publishingId)
    (more : ∀ entry ∈ w.broker.stored, entry ∈ w'.broker.stored) :
    w'.Clear i call name publishingId := by
  refine clear.imp (fun _ before => ?_) fun stage => ?_
  · exact ⟨free before.1, fun message mem => before.2 message (fewer message mem)⟩
  · rw [Clear, stage] at clear ⊢
    exact ⟨fun message mem => clear.1 message (fewer message mem), clear.2.imp free (more _)⟩

lemma Contains.mono {request} (contains : w.Contains stream partition request)
    (grows : Extends w.log w'.log) (more : ∀ entry ∈ w.broker.stored, entry ∈ w'.broker.stored) :
    w'.Contains stream partition request := by
  obtain ⟨definition, body, envelope, found, mem, decoded⟩ := contains
  exact ⟨definition, body, envelope, grows found, more _ mem, decoded⟩

lemma Clean.transmit (clean : w.Clean) (sound : w.Sound) (found : w.calls[i]? = some call)
    (stage : call.stage = .sending) : (w.transmit i call).Clean where
  __ := clean
  onWay := by
    intro message mem
    obtain mem | rfl := mem_snoc.mp mem
    · exact (clean.onWay message mem).set found
    · exact ⟨_, set_new found, rfl, rfl, rfl⟩
  arrived message mem := (clean.arrived message mem).set found
  clear := by
    intro j c name publishingId at_j producer
    obtain ⟨ne, at_j⟩ | ⟨rfl, rfl⟩ := set_cases at_j
    · have clear := clean.clear at_j producer
      -- The new message is of another slot, or the other call is not behind its query.
      have other : c.stage.holds = true → call.physical = c.physical →
          ∀ sent ∈ call.request.producer, sent.1 ≠ name := by
        rintro holds physical sent owner rfl
        refine ne (sound.exclusive found at_j (by rw [stage]; rfl) holds ?_)
        rw [Call.slotKey, Call.slotKey, physical, producer, show call.request.producer = _ from owner]
        rfl
      refine clear.imp (fun holds free => ⟨free.1, ?_⟩) fun at_stage => ?_
      · intro message mem physical sent owner same
        obtain mem | rfl := mem_snoc.mp mem
        · exact free.2 message mem physical sent owner same
        · exact absurd same (other holds physical sent owner)
      · have holds : c.stage.holds = true := by rw [at_stage]; rfl
        rw [Clear, at_stage] at clear ⊢
        refine ⟨fun message mem physical sent owner same => ?_, clear.2⟩
        obtain mem | rfl := mem_snoc.mp mem
        · exact clear.1 message mem physical sent owner same
        · exact absurd same (other holds physical sent owner)
    · have clear := clean.clear found producer
      rw [Clear, stage] at clear
      refine ⟨fun message mem physical sent owner same above => ?_, .inl clear.1⟩
      obtain mem | rfl := mem_snoc.mp mem
      · exact absurd (clear.2 message mem physical sent owner same) (Nat.not_lt.mpr above)
      · rfl

lemma Clean.is_stored (clean : w.Clean) (found : w.calls[i]? = some call)
    (stage : call.stage = .confirming) (received : message ∈ w.broker.received)
    (confirms : Confirms i call message) : (call.physical, call.body) ∈ w.broker.stored := by
  -- The message is the call's own, or it has its producer and ID.
  have same : message.physical = call.physical ∧ message.producer = call.request.producer ∧
      (call.request.producer = none → message.body = call.body) := by
    obtain own | ⟨physical, producer, named⟩ := confirms
    · obtain ⟨c, at_c, physical, producer, body⟩ := clean.arrived message received
      rw [own, found] at at_c
      cases at_c
      exact ⟨physical, producer, fun _ => body⟩
    · exact ⟨physical, producer, fun none => by simp [none] at named⟩
  obtain ⟨physical, producer, body⟩ := same
  cases owner : call.request.producer with
  | none =>
    rw [← physical, ← body owner]
    exact clean.kept message received (producer.trans owner)
  | some sent =>
    have clear := clean.clear found owner
    rw [Clear, stage] at clear
    obtain free | stored := clear.2
    · have counted := clean.counted message received sent (producer.trans owner)
      rw [physical] at counted
      exact absurd counted (Nat.not_le.mpr free)
    · exact stored

lemma Clean.confirm (clean : w.Clean) (sound : w.Sound) (found : w.calls[i]? = some call)
    (stage : call.stage = .confirming) (received : message ∈ w.broker.received)
    (confirms : Confirms i call message) : (w.confirm i call).Clean := by
  have contained : w.Contains call.stream call.partition call.request := by
    obtain ⟨definition, declared, -, physical, encoded⟩ := sound.routed found
    refine ⟨definition, call.body, _, declared, ?_, decodeEnvelope_encodeEnvelope encoded,
      RecordEnvelope.sorted_eq _⟩
    exact physical ▸ clean.is_stored found stage received confirms
  have finished : Clean (w.finish i call
      (.returned (call.receipt .confirmed ["rabbitmq-stream-confirmed"]))) := by
    refine clean.finish found fun {partition} got => ?_
    obtain ⟨rfl, -⟩ := Answer.Got.unique ⟨_, rfl, rfl, rfl⟩ got
    exact contained
  exact { finished with }

lemma Clean.receive (clean : w.Clean) {k} (found : w.inFlight[k]? = some message) :
    Clean { w with inFlight := w.inFlight.eraseIdx k, broker := w.broker.receive message } where
  onWay other mem := clean.onWay other (mem_of_mem_eraseIdx mem)
  arrived := by
    intro other mem
    obtain mem | rfl := mem_snoc.mp mem
    · exact clean.arrived other mem
    · exact clean.onWay other (mem_of_getElem? found)
  counted := by
    intro other mem sent producer
    obtain mem | rfl := mem_snoc.mp mem
    · exact (clean.counted other mem sent producer).trans sequence_le_receive
    · rw [show _ = max _ sent.2 from sequence_receive_named producer]
      exact Nat.le_max_right _ _
  kept := by
    intro other mem producer
    obtain mem | rfl := mem_snoc.mp mem
    · exact mem_stored_receive (clean.kept other mem producer)
    · exact stored_receive (by rw [Broker.accepts, producer])
  clear := by
    intro i call name publishingId at_i producer
    have clear := clean.clear at_i producer
    have mem := mem_of_getElem? found
    by_cases competes : message.physical = call.physical ∧
        ∃ n, message.producer = some (name, n) ∧ publishingId ≤ n
    · -- Only the message of the call itself competes for its ID.
      obtain ⟨physical, n, sent, above⟩ := competes
      have busy : ¬ w.Quiet call.physical name publishingId := fun quiet =>
        absurd (quiet message mem physical _ sent rfl) (Nat.not_lt.mpr above)
      refine clear.imp (fun _ free => absurd free.2 busy) fun stage => ?_
      rw [Clear, stage] at clear ⊢
      refine ⟨fun other mem => clear.1 other (mem_of_mem_eraseIdx mem), .inr ?_⟩
      obtain ⟨c, at_c, -, owner, body⟩ := clean.onWay message mem
      rw [clear.1 message mem physical _ sent rfl above, at_i] at at_c
      cases at_c
      rw [owner, producer] at sent
      cases sent
      obtain free | stored := clear.2
      · rw [← physical, ← body]
        apply stored_receive
        rw [Broker.accepts, owner, producer, physical]
        exact decide_eq_true free
      · exact mem_stored_receive stored
    · refine clear.mono (fun _ mem => mem_of_mem_eraseIdx mem) ?_
        fun _ mem => mem_stored_receive mem
      intro free
      by_cases same : message.physical = call.physical ∧ ∃ n, message.producer = some (name, n)
      · obtain ⟨physical, n, sent⟩ := same
        have below : n < publishingId := by
          by_contra above
          exact competes ⟨physical, n, sent, Nat.not_lt.mp above⟩
        rw [← physical, show _ = max _ n from sequence_receive_named sent, physical]
        exact Nat.max_lt.mpr ⟨free, below⟩
      · rw [show _ = w.broker.sequence call.physical name from sequence_receive_other fun n sent =>
          fun physical => same ⟨physical, n, sent⟩]
        exact free
  confirmed mem got :=
    (clean.confirmed mem got).mono (fun found => found) fun _ mem => mem_stored_receive mem

lemma Clean.lost (clean : w.Clean) {k} : Clean { w with inFlight := w.inFlight.eraseIdx k } where
  __ := clean
  onWay other mem := clean.onWay other (mem_of_mem_eraseIdx mem)
  clear at_i producer := (clean.clear at_i producer).mono
    (fun _ mem => mem_of_mem_eraseIdx mem) (fun free => free) fun _ mem => mem

lemma Clean.foreign (clean : w.Clean) {entry} :
    Clean { w with broker := { w.broker with stored := w.broker.stored ++ [entry] } } where
  __ := clean
  kept message mem none := mem_append_left _ (clean.kept message mem none)
  clear at_i producer := (clean.clear at_i producer).mono (fun _ mem => mem) (fun free => free)
    fun _ mem => mem_append_left _ mem
  confirmed mem got := (clean.confirmed mem got).mono (fun found => found)
    fun _ mem => mem_append_left _ mem

lemma Clean.moves (clean : w.Clean) (sound : w.Sound) (moves : Moves settled w w')
    (ok : settled) : w'.Clean := by
  cases moves with
  | answered rejects => exact clean.answered fun got => absurd (.inl got) rejects.not_accepted
  | admitted stage => exact clean.admitted stage
  | moved found goes =>
    exact { clean.moved found (clean.goes found goes ok) with }
  | finished found rejects =>
    exact clean.finish found fun {partition} got =>
      absurd (Or.inl got : Answer.Accepted _ partition) rejects.not_accepted
  | deduplicated found =>
    refine clean.finish found fun {partition} got => ?_
    exact absurd (Answer.Got.unique ⟨_, rfl, rfl, rfl⟩ got).2 nofun
  | transmitted found stage => exact clean.transmit sound found stage
  | confirmed found stage received confirms =>
    exact clean.confirm sound found stage received confirms
  | received found => exact clean.receive found
  | lost => exact clean.lost
  | foreign => exact clean.foreign
  | extended grows =>
    exact { clean with
      confirmed := fun mem got => (clean.confirmed mem got).mono grows fun _ mem => mem }

/-! ### Runs -/

/-- A log without calls, over a broker with any contents. -/
def start (log : RabbitLog) (stored : List (String × Bytes))
    (sequences : Dict (String × String) Nat) : World :=
  { log, broker := { stored, sequences } }

lemma sound_start : (start log stored sequences).Sound where
  routed found := by cases found
  exclusive found := by cases found
  ahead found := by cases found
  recorded known := by cases known
  bounded mem := by cases mem
  repeats := .nil
  distinct mem := by cases mem

lemma clean_start : (start log stored sequences).Clean where
  onWay _ mem := by cases mem
  arrived _ mem := by cases mem
  counted _ mem := by cases mem
  kept _ mem := by cases mem
  clear found := by cases found
  confirmed mem := by cases mem

lemma sound_of_reach {setup ok}
    (run : Reach (step setup) ok (start log stored sequences) w) : w.Sound :=
  run.invariant sound_start fun sound _ stepped => sound.moves (step_moves sound.routed stepped)

lemma clean_of_reach {setup}
    (run : Reach (step setup) Settled (start log stored sequences) w) : w.Clean := by
  induction run with
  | refl => exact clean_start
  | tail run settled stepped ih =>
    have sound := sound_of_reach run
    exact ih.moves sound (step_moves sound.routed stepped) settled

/-- In a run that queries the sequence of a producer only while no message of it with the ID or a
higher one is on its way, the partition holds what is confirmed. In every run, what is deduplicated
was confirmed before, and no two different requests are accepted under one ID. -/
theorem receipts_truthful (setup : Setup) (log : RabbitLog) (stored : List (String × Bytes))
    (sequences : Dict (String × String) Nat) :
    (∀ w, Reach (step setup) Settled (start log stored sequences) w →
      ∀ a ∈ w.history, ∀ partition, a.Got partition .confirmed →
        w.Contains a.stream partition a.request) ∧
    ∀ w, Reachable (step setup) (start log stored sequences) w →
      Justified Repeats w.history ∧
      ∀ a ∈ w.history, ∀ b ∈ w.history, ∀ partition producer, a.stream = b.stream →
        a.Accepted partition → b.Accepted partition → a.request.producer = some producer →
        b.request.producer = some producer → a.request.eq b.request = true := by
  refine ⟨?_, ?_⟩
  · intro w run a mem partition got
    exact (clean_of_reach run).confirmed mem got
  intro w run
  have sound := sound_of_reach run
  refine ⟨sound.repeats, ?_⟩
  intro a mem b mem' partition producer stream accepted accepted' producer_a producer_b
  exact sound.distinct mem mem' stream accepted accepted' producer_a producer_b

end World

/-! ### Runs of two calls -/

def orders : StreamDefinition := .standard "orders" 1 (by decide)

def ordersWorld : World :=
  .start { definitions := AList.insert "orders" orders ∅, accepting := true } [] ∅

def plainSetup : Setup where
  amqpSize _ body := body.length

lemma orderKey_ne : ([1] : Bytes) ≠ [] := by decide

def order (amount : UInt8) (publishingId : Nat) : AppendRequest where
  recordId := 7#128
  partitionKey := [1]
  payload := [amount]
  headers := []
  producer := some ("checkout", publishingId)
  key_ne := orderKey_ne
  names_nodup := nodup_nil
  names_ne _ mem := by cases mem
  producer_ne p named := by
    cases named
    exact show "checkout" ≠ "" by decide

/-- What a call returned: the stream, the payload, and the partition and outcome of its receipt. -/
def Answer.outcome (a : Answer) : String × Bytes × Option (Nat × PublishOutcome) :=
  (a.stream, a.request.payload,
    match a.result with
    | .returned receipt => some (receipt.partition, receipt.outcome)
    | .raised _ | .cancelled => none)

lemma Answer.got_of_outcome {a : Answer} {payload outcome}
    (h : a.outcome = (stream, payload, some (partition, outcome))) :
    a.stream = stream ∧ a.request.payload = payload ∧ a.Got partition outcome := by
  obtain ⟨_, _, result⟩ := a
  cases result with
  | returned receipt =>
    cases h
    exact ⟨rfl, rfl, receipt, rfl, rfl, rfl⟩
  | raised | cancelled => cases h

namespace World

instance (w : World) (action : Action) : Decidable (Settled w action) := by
  cases action <;> unfold Settled <;> first | infer_instance | (unfold Quiet; infer_instance)

/-- A call up to its message, by the producer of a new slot. -/
def firstSend (i : Nat) : List Action :=
  [.publisherSlot i, .enter i, .query i, .resume i, .publisher i, .started i, .transmit i]

/-- A call up to its message, by the producer of its slot. -/
def nextSend (i : Nat) : List Action :=
  [.publisherSlot i, .enter i, .query i, .resume i, .transmit i]

/-- An order is confirmed, repeated, and followed by another one. -/
def orderly : List Action :=
  .append "orders" (.returned 0) (order 1 1) :: firstSend 0 ++ [.deliver 0, .confirm 0] ++
  [.append "orders" (.returned 0) (order 1 1), .publisherSlot 1, .enter 1] ++
  .append "orders" (.returned 0) (order 2 2) :: nextSend 2 ++ [.deliver 0, .confirm 2]

/-- The three receipts are truthful. -/
theorem orders_truthful : ∃ w, Reach (step plainSetup) Settled ordersWorld w ∧
    w.history.map Answer.outcome = [("orders", [1], some (0, .confirmed)),
      ("orders", [1], some (0, .deduplicated)), ("orders", [2], some (0, .confirmed))] ∧
    (∀ a ∈ w.history, a.Got 0 .confirmed → w.Contains a.stream 0 a.request) ∧
    Justified Repeats w.history := by
  have ran : (execBy (step plainSetup) (fun w action => decide (Settled w action)) ordersWorld
      orderly).map (fun w => w.history.map Answer.outcome) = some
        [("orders", [1], some (0, .confirmed)), ("orders", [1], some (0, .deduplicated)),
          ("orders", [2], some (0, .confirmed))] := by
    decide +kernel
  obtain ⟨w, run, outcomes⟩ := Option.map_eq_some_iff.mp ran
  have settled : Reach (step plainSetup) Settled ordersWorld w :=
    Reach.of_execBy (fun _ _ ok => of_decide_eq_true ok) .refl run
  have reachable : Reachable (step plainSetup) ordersWorld w :=
    Reach.of_execBy (fun _ _ _ => trivial) .refl run
  refine ⟨w, settled, outcomes, ?_, ?_⟩
  · intro a mem got
    exact (receipts_truthful plainSetup _ _ _).1 w settled a mem 0 got
  · exact ((receipts_truthful plainSetup _ _ _).2 w reachable).1

/-- An order runs into its deadline, and another one with its ID overtakes it in the books. -/
def overtaking : List Action :=
  .append "orders" (.returned 0) (order 1 1) :: firstSend 0 ++ [.except 0 "TimeoutError"] ++
  .append "orders" (.returned 0) (order 2 1) :: nextSend 1 ++ [.deliver 0, .deliver 0, .confirm 1]

/-- The second order is confirmed, but the partition holds the first one. -/
theorem overtaken_not_stored : ∃ w, Reachable (step plainSetup) ordersWorld w ∧
    ∃ a ∈ w.history, a.Got 0 .confirmed ∧ ¬ w.Contains a.stream 0 a.request := by
  have ran : (exec (step plainSetup) ordersWorld overtaking).map (fun w =>
      (decide (w.history.map Answer.outcome =
          [("orders", [1], some (0, .timedOut)), ("orders", [2], some (0, .confirmed))]),
        decide ((w.log.definitions.lookup "orders").map (·.limits) = some orders.limits),
        w.broker.stored.all fun entry =>
          (decodeEnvelope entry.2 (envelopeLimits orders)).toOption.map (·.payload) = some [1])) =
      some (true, true, true) := by
    decide +kernel
  obtain ⟨w, run, same⟩ := Option.map_eq_some_iff.mp ran
  have outcomes := of_decide_eq_true (congrArg (·.1) same)
  have limits := of_decide_eq_true (congrArg (·.2.1) same)
  have payloads := all_eq_true.mp (congrArg (·.2.2) same)
  have last : ("orders", [2], some (0, .confirmed)) ∈ w.history.map Answer.outcome := by
    rw [outcomes]
    exact mem_cons_of_mem _ mem_cons_self
  obtain ⟨a, mem, outcome⟩ := mem_map.mp last
  obtain ⟨stream, payload, got⟩ := Answer.got_of_outcome outcome
  refine ⟨w, Reach.of_exec .refl run, a, mem, got, ?_⟩
  rintro ⟨definition, body, envelope, declared, stored, decoded, equal⟩
  rw [stream] at declared
  have known : definition.limits = orders.limits := by
    rw [declared] at limits
    exact Option.some.inj limits
  have first := of_decide_eq_true (payloads _ stored)
  obtain ⟨-, -, -, second, -⟩ := RecordEnvelope.eq_iff.mp equal
  have same_limits : envelopeLimits definition = envelopeLimits orders := by
    rw [envelopeLimits, known]
    rfl
  rw [← same_limits, decoded] at first
  have contradiction : envelope.payload = [1] := Option.some.inj first
  rw [second, show (RecordEnvelope.ofRequest a.request).payload = _ from payload] at contradiction
  exact absurd contradiction (by decide)

end World

end ToriPy.PersistentStreams.RabbitMq.Publishing
