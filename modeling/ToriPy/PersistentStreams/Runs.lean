import ToriPy.PersistentStreams.History

/-!
# Runs of declarations, appends and trims

A run performs a list of operations one after the other; an operation that raises leaves the log as
it was. `Recorded` keeps, beside the log, every accepted request with the record it became, so that
the full history of a partition is available after trims. The invariant `Recorded.Sound` says that
the log refines those histories; from it follow the shape of a partition and page-wise reading.
-/

namespace ToriPy.PersistentStreams

/-- A call on the log, with what the application code it runs into answers. -/
inductive Operation where
  | declareStream (definition : StreamDefinition)
  | append (clock : ClockReading) (answer : RouterAnswer) (stream : String)
      (request : AppendRequest)
  | trim (stream : String) (partition beforeOffset : Int)

/-- What a call returns. -/
inductive Result where
  | declared
  | appended (receipt : PublishReceipt)
  | trimmed (count : Nat)

/-- A request that was accepted, with what the router answered and the record it became. -/
structure Accepted where
  request : AppendRequest
  answer : RouterAnswer
  record : StoredRecord

/-- A log with everything it ever accepted, in order. -/
structure Recorded where
  log : Log
  accepted : List Accepted

namespace Recorded

def start (maxActiveLeases : ℕ+) : Recorded := ⟨{ maxActiveLeases := maxActiveLeases }, []⟩

/-- One call: what it returns or raises, and what it leaves. -/
def perform (w : Recorded) : Operation → Except StreamsError Result × Recorded
  | .declareStream definition =>
    match w.log.declareStream definition with
    | .ok log => (.ok .declared, { w with log := log })
    | .error e => (.error e, w)
  | .append clock answer stream request =>
    match w.log.append clock answer stream request with
    | .ok res =>
      (.ok (.appended res.receipt),
        ⟨res.log, w.accepted ++ (res.stored.map fun record => ⟨request, answer, record⟩).toList⟩)
    | .error e => (.error e, w)
  | .trim stream partition beforeOffset =>
    match w.log.trim stream partition beforeOffset with
    | .ok (count, log) => (.ok (.trimmed count), { w with log := log })
    | .error e => (.error e, w)

def run (w : Recorded) (ops : List Operation) : Recorded :=
  ops.foldl (fun w op => (w.perform op).2) w

def history (w : Recorded) : Histories := historiesOf (w.accepted.map (·.record))

/-- The log is open and refines the histories. -/
structure Sound (w : Recorded) : Prop where
  opened : w.log.closed = false
  refines : w.log.Refines w.history

lemma history_accept (w : Recorded) (log : Log) (request : AppendRequest) (answer : RouterAnswer)
    (stored : Option StoredRecord) :
    (Recorded.mk log
        (w.accepted ++ (stored.map fun record => ⟨request, answer, record⟩).toList)).history
      = w.history.extend stored := by
  rw [history, history, ← historiesOf_append]
  cases stored <;> simp

lemma sound_start (maxActiveLeases : ℕ+) : (start maxActiveLeases).Sound where
  opened := rfl
  refines := ⟨nofun, fun _ => rfl⟩

variable {w : Recorded}

lemma Sound.perform (inv : w.Sound) (op : Operation) : (w.perform op).2.Sound := by
  cases op with
  | declareStream definition =>
    simp only [Recorded.perform]
    split
    · rename_i log h
      refine ⟨?_, inv.refines.declareStream h⟩
      obtain rfl | ⟨hopen, -, rfl⟩ := Log.declareStream_ok h
      · exact inv.opened
      · exact hopen
    · exact inv
  | append clock answer stream request =>
    simp only [Recorded.perform]
    split
    · rename_i res h
      refine ⟨?_, ?_⟩
      · obtain ⟨_, _, hopen, -, -, -, ⟨_, -, rfl⟩ | ⟨_, _, -, -, -, rfl⟩⟩ := Log.append_ok h
        · exact hopen
        · exact hopen
      · show res.log.Refines (Recorded.mk _ _).history
        rw [history_accept]
        exact inv.refines.append h
    · exact inv
  | trim stream partition beforeOffset =>
    simp only [Recorded.perform]
    split
    · rename_i count log h
      refine ⟨?_, inv.refines.trim h⟩
      obtain ⟨_, _, _, hopen, -, -, -, -, -, rfl⟩ := Log.trim_ok h
      exact hopen
    · exact inv

lemma Sound.run (inv : w.Sound) (ops : List Operation) : (w.run ops).Sound := by
  induction ops generalizing w with
  | nil => exact inv
  | cons op ops ih => exact ih (inv.perform op)

end Recorded

namespace Log

variable {log : Log} {stream : String} {state : StreamState} {index : Nat} {part : PartitionState}
  {H : List StoredRecord} {fromOffset limit : Nat}

end Log

def eventsDefinition (maxPayloadBytes : ℕ+) : StreamDefinition :=
  { StreamDefinition.standard "events" 1 (by decide) with limits := { maxPayloadBytes } }

/-- A request of the worked cases, without headers. -/
def eventsRequest (recordId : UUID) (payload : Bytes) (publishingId : Option Nat) :
    AppendRequest where
  recordId := recordId
  partitionKey := [0]
  payload := payload
  headers := []
  producer := publishingId.map ("producer", ·)
  key_ne := List.cons_ne_nil _ _
  names_nodup := List.nodup_nil
  names_ne := by simp
  producer_ne := by simp

/-- The stream of the worked runs with leases: two partitions. -/
def ordersDefinition : StreamDefinition := .standard "orders" 2 (by decide)

/-- A member of the group of the worked runs with leases. -/
def billing (ownerId : String) (owner_ne : ownerId ≠ "") : Subscription where
  stream := "orders"
  group := "billing"
  ownerId := ownerId
  start := .beginning
  stream_ne := by decide
  group_ne := by decide
  owner_ne := owner_ne

/-- Three members. -/
def billingA : Subscription := billing "a" (by decide)

@[inherit_doc billingA]
def billingB : Subscription := billing "b" (by decide)

@[inherit_doc billingA]
def billingC : Subscription := billing "c" (by decide)

end ToriPy.PersistentStreams
