import ToriPy.Microservices.Transport

/-!
# The confirm publisher

One call of `RabbitMqPublisher.publish` (`rabbitmq/publisher.py`). The call waits for the exchange
and then for the confirm; meanwhile the connection may be lost and recovered any number of times.
What each wait ends with, and what happened to the manager during it, is given. `_fence` swallows
whatever `fence_connection` raises, a cancellation as well: all that counts is that it was called.
-/

namespace ToriPy.Microservices.RabbitMq

/-- `RabbitMqStatus`. -/
inductive Status where
  | created
  | connecting
  | ready
  | recovering
  | failed
  | closed
deriving DecidableEq

/-- What a publication reads of the `RabbitMqConnectionManager`. -/
structure Manager where
  generation : Nat
  status : Status

/-- What happens to the manager: `notify_connection_lost` takes effect, or a status is set. -/
inductive Notice where
  | lost
  | set (status : Status)
deriving DecidableEq

def Manager.notified (manager : Manager) : Notice → Manager
  | .lost => ⟨manager.generation + 1, .recovering⟩
  | .set status => { manager with status }

/-- The classes that `publish` tests an `Exception` for. -/
inductive ErrorClass where
  | optionalDependencyError
  | transportTimeoutError
  | publishError
  | deliveryError
  | uncertaintyError
  | timeoutError
  | osError
deriving DecidableEq

/-- What is raised: an `Exception` that is an instance of some of the classes, or another
`BaseException`. -/
inductive Raised where
  | cancelledError
  | exit
  | exception (classes : List ErrorClass)
deriving DecidableEq

/-- `isinstance`. A `PublishError` is a `DeliveryError`. -/
def Raised.isInstance (error : Raised) (c : ErrorClass) : Bool :=
  match error with
  | .exception classes => c ∈ classes || (c = .deliveryError && .publishError ∈ classes)
  | _ => false

lemma Raised.delivery_of_publish {error : Raised} (h : error.isInstance .publishError = true) :
    error.isInstance .deliveryError = true := by
  cases error with
  | exception classes => simp_all [Raised.isInstance]
  | _ => cases h

/-- The class of what `exchange.publish` returns. -/
inductive Confirm where
  | ack
  | nack
  | reject
  | other
deriving DecidableEq

/-- What a wait ends with, and what happened during it. -/
structure Awaited (α : Type) where
  outcome : Except Raised α
  notices : List Notice

/-- The manager when a wait is over. -/
def Awaited.after {α : Type} (awaited : Awaited α) (manager : Manager) : Manager :=
  awaited.notices.foldl Manager.notified manager

/-- What a publication meets: the manager when it begins, how all up to the exchange ends (loading
aio-pika, the message, `channels`, `get_exchange`), the confirm, what `fence_on_cancel` does. -/
structure Setting where
  manager : Manager
  exchange : Awaited Unit
  confirm : Awaited Confirm
  fenceOnCancel : Option (Except Raised Bool)
  now : Instant

inductive PublishError where
  | timeout (message : String)
  | connection (message : String)
  | unroutable (message : String)
  | rejected (message : String)
  | indeterminate (message : String)
  | raised (error : Raised)
deriving DecidableEq

/-- How a publication ends, with the generation in which it called `exchange.publish` and the one
whose fencing it attempted. -/
structure Report where
  written : Option Nat
  fenced : Option Nat
  ending : Except PublishError PublicationReceipt

/-- Errors that the handlers let through. -/
def Raised.passes (error : Raised) : Bool :=
  error = .exit || error.isInstance .optionalDependencyError ||
    error.isInstance .transportTimeoutError

/-- The handlers before `publish_started`. -/
def beforeWrite (error : Raised) : PublishError :=
  if error = .cancelledError then .timeout "RabbitMQ publication was cancelled before broker write"
  else if error.passes then .raised error
  else .connection "RabbitMQ publication failed before broker write"

/-- `await self._fence(uncertainty, written)` and `raise uncertainty`. -/
def fenceAndRaise (written : Nat) (message : String) : Report :=
  ⟨some written, some written, .error (.indeterminate message)⟩

/-- An error after the write, without fencing. -/
def raiseError (written : Nat) (error : PublishError) : Report :=
  ⟨some written, none, .error error⟩

/-- The handlers after it. -/
def afterWrite (publication : Publication) (written : Nat) (manager : Manager)
    (fenceOnCancel : Option (Except Raised Bool)) (error : Raised) : Report :=
  if error = .cancelledError then
    let uncertainty := "RabbitMQ publication outcome is indeterminate after cancellation"
    if manager.status = .ready then
      match fenceOnCancel with
      | none | some (.ok true) => fenceAndRaise written uncertainty
      | some (.ok false) => raiseError written (.indeterminate uncertainty)
      | some (.error error) => raiseError written (.raised error)
    else raiseError written (.indeterminate uncertainty)
  else if error.passes then raiseError written (.raised error)
  else if written ≠ manager.generation then
    fenceAndRaise written "RabbitMQ publication crossed a connection generation"
  else if error.isInstance .publishError ∧ publication.mandatory then
    raiseError written
      (.unroutable ("RabbitMQ publication was unroutable: " ++ publication.routingKey))
  else if error.isInstance .deliveryError then
    raiseError written (.rejected "RabbitMQ publisher confirm rejected the publication")
  else if error.isInstance .uncertaintyError ∨ error.isInstance .timeoutError ∨
      error.isInstance .osError then
    fenceAndRaise written "RabbitMQ publication outcome is indeterminate"
  else raiseError written (.connection "RabbitMQ publication failed before broker acceptance")

/-- What follows the `try` statement. -/
def settle (publication : Publication) (now : Instant) (written : Nat) (manager : Manager) :
    Confirm → Report
  | .ack =>
    if written ≠ manager.generation then
      fenceAndRaise written "RabbitMQ publication confirm crossed a connection generation"
    else ⟨some written, none, .ok ⟨publication.messageId, now, publication.mandatory⟩⟩
  | .nack | .reject =>
    raiseError written (.rejected "RabbitMQ publisher confirm rejected the publication")
  | .other =>
    fenceAndRaise written "RabbitMQ publisher did not provide a definitive confirmation"

/-- `publish`. -/
def publish (publication : Publication) (setting : Setting) : Report :=
  match setting.exchange.outcome with
  | .error error => ⟨none, none, .error (beforeWrite error)⟩
  | .ok () =>
    let manager := setting.exchange.after setting.manager
    if setting.manager.generation ≠ manager.generation then
      ⟨none, none, .error (.timeout "RabbitMQ publication was interrupted before broker write")⟩
    else match setting.confirm.outcome with
      | .ok confirm => settle publication setting.now manager.generation
        (setting.confirm.after manager) confirm
      | .error error => afterWrite publication manager.generation
        (setting.confirm.after manager) setting.fenceOnCancel error

lemma Awaited.generation_after {α : Type} (awaited : Awaited α) (manager : Manager) :
    (awaited.after manager).generation = manager.generation + awaited.notices.count .lost := by
  unfold Awaited.after
  induction awaited.notices generalizing manager with
  | nil => rfl
  | cons notice notices ih =>
    rw [List.foldl_cons, ih]
    cases notice with
    | lost =>
      rw [List.count_cons_self]
      exact Nat.add_right_comm _ _ _
    | set => rw [List.count_cons_of_ne (by simp), Manager.notified]

lemma Awaited.generation_ne {α : Type} {awaited : Awaited α} {manager : Manager} :
    manager.generation ≠ (awaited.after manager).generation ↔ .lost ∈ awaited.notices := by
  rw [awaited.generation_after, ← List.count_pos_iff]
  omega

/-! ### Truthful outcomes -/

/-- The answers by which the broker did not accept a message. -/
def Refused : Except Raised Confirm → Prop
  | .ok confirm => confirm = .nack ∨ confirm = .reject
  | .error error => error.isInstance .deliveryError

/-- A report says no more than what is known. -/
def Truthful (setting : Setting) (report : Report) : Prop :=
  match report.ending with
  | .ok _ => report.written.isSome ∧ setting.confirm.outcome = .ok .ack ∧
    .lost ∉ setting.confirm.notices
  | .error (.unroutable _) | .error (.rejected _) =>
    report.written.isSome ∧ Refused setting.confirm.outcome
  | .error (.timeout _) | .error (.connection _) | .error (.raised _) => report.written = none
  | .error (.indeterminate _) => ∀ generation ∈ report.written,
    report.fenced = some generation ∨ setting.fenceOnCancel = some (.ok false)

/-- The publication gets as far as calling `exchange.publish`. -/
def Setting.Writes (setting : Setting) : Prop :=
  setting.exchange.outcome = .ok () ∧ .lost ∉ setting.exchange.notices

/-- A confirm that is cut off leaves a connection to be fenced, or a reply had won. One that fails does
so with a known error, or after a loss. -/
def Setting.Classified (setting : Setting) : Prop :=
  ∀ error, setting.confirm.outcome = .error error →
    if error = .cancelledError then setting.fenceOnCancel = some (.ok false) ∨
      (setting.confirm.after (setting.exchange.after setting.manager)).status = .ready ∧
        ∀ error, setting.fenceOnCancel ≠ some (.error error)
    else ¬ error.passes ∧ (.lost ∈ setting.confirm.notices ∨ error.isInstance .deliveryError ∨
      error.isInstance .uncertaintyError ∨ error.isInstance .timeoutError ∨
        error.isInstance .osError)

variable {setting : Setting}

lemma truthful_fenceAndRaise (written : Nat) (message : String) :
    Truthful setting (fenceAndRaise written message) :=
  fun _ same => .inl same

lemma truthful_settle (publication : Publication) (manager : Manager) {confirm}
    (h : setting.confirm.outcome = .ok confirm) :
    Truthful setting (settle publication setting.now manager.generation
      (setting.confirm.after manager) confirm) := by
  cases confirm with
  | ack =>
    rw [settle]
    split
    · exact truthful_fenceAndRaise _ _
    · rename_i same
      exact ⟨rfl, h, mt Awaited.generation_ne.mpr same⟩
  | nack | reject => simp [settle, raiseError, Truthful, h, Refused]
  | other => exact truthful_fenceAndRaise _ _

lemma truthful_afterWrite_iff (publication : Publication) {error}
    (h : setting.confirm.outcome = .error error) {manager : Manager}
    (same : setting.exchange.after setting.manager = manager) :
    Truthful setting (afterWrite publication manager.generation (setting.confirm.after manager)
      setting.fenceOnCancel error) ↔ setting.Classified := by
  have classified : setting.Classified ↔ _ := ⟨fun c => c error h, fun c e raised => by
    cases h.symm.trans raised
    exact c⟩
  rw [classified, same, afterWrite]
  by_cases cut : error = .cancelledError
  · rw [if_pos cut, if_pos cut]
    by_cases ready : (setting.confirm.after manager).status = .ready
    · rw [if_pos ready, and_iff_right ready]
      split
      · exact iff_of_true (truthful_fenceAndRaise _ _) (by simp [*])
      · exact iff_of_true (truthful_fenceAndRaise _ _) (by simp [*])
      · simp [Truthful, raiseError, *]
      · simp [Truthful, raiseError, *]
    · rw [if_neg ready, or_iff_left fun both => ready both.1]
      simp [Truthful, raiseError]
  rw [if_neg cut, if_neg cut]
  by_cases passes : error.passes = true
  · simp [Truthful, raiseError, passes]
  rw [if_neg passes, and_iff_right passes]
  by_cases lost : .lost ∈ setting.confirm.notices
  · rw [if_pos (Awaited.generation_ne.mpr lost)]
    exact iff_of_true (truthful_fenceAndRaise _ _) (.inl lost)
  rw [if_neg (mt Awaited.generation_ne.mp lost), or_iff_right lost]
  by_cases refused : error.isInstance .deliveryError = true
  · refine iff_of_true ?_ (.inl refused)
    split <;> simp [Truthful, raiseError, h, Refused, refused]
  rw [if_neg fun both => refused (Raised.delivery_of_publish both.1), if_neg refused,
    or_iff_right refused]
  split
  · exact iff_of_true (truthful_fenceAndRaise _ _) ‹_›
  · exact iff_of_false (by simp [Truthful, raiseError]) ‹_›

/-- A publication that does not get to its write says so. One that does is truthful just if the end of
its confirm is told apart. -/
theorem publish_truthful_iff (publication : Publication) (setting : Setting) :
    Truthful setting (publish publication setting) ↔ (setting.Writes → setting.Classified) := by
  rw [publish]
  split
  · rename_i error failed
    refine iff_of_true ?_ fun writes => ?_
    · unfold beforeWrite
      split_ifs <;> rfl
    · cases failed.symm.trans writes.1
  rename_i found
  by_cases lost : .lost ∈ setting.exchange.notices
  · rw [if_pos (Awaited.generation_ne.mpr lost)]
    exact iff_of_true rfl fun writes => absurd lost writes.2
  have writes : setting.Writes := ⟨found, lost⟩
  rw [if_neg (mt Awaited.generation_ne.mp lost), forall_prop_of_true writes]
  split
  · rename_i confirm h
    refine iff_of_true (truthful_settle publication _ h) fun error raised => ?_
    cases h.symm.trans raised
  · rename_i error h
    exact truthful_afterWrite_iff publication h rfl

def publishedOrder : Publication where
  messageId := 7#128
  routingKey := "orders.place"
  body := []

/-- An error of another class than the known ones is reported as if nothing had been written. -/
theorem unknown_error_denied :
    let setting : Setting := ⟨⟨3, .ready⟩, ⟨.ok (), []⟩, ⟨.error (.exception []), []⟩, none, 0⟩
    let report := publish publishedOrder setting
    report.written = some 3 ∧ report.fenced = none ∧
      report.ending =
        .error (.connection "RabbitMQ publication failed before broker acceptance") ∧
      ¬ Truthful setting report := by
  refine ⟨rfl, rfl, rfl, fun truthful => ?_⟩
  cases show some 3 = none from truthful

end ToriPy.Microservices.RabbitMq
