import ToriPy.EventSourcing.Aggregate

/-!
# Units of work

`EventSourcingUnitOfWork` of `repository.py`. A method of a unit of work works on its own fields and
on the aggregates, which together are its `Session`. What the event store answers to a call is an
argument: the methods below are the code between two such calls, and hold for any adapter.
`System.lean` puts them together with the in-memory store.
-/

namespace ToriPy.EventSourcing

variable {app : App}

inductive UnitOfWorkState where
  | new
  | entering
  | active
  | committing
  | rollingBack
  | committed
  | rolledBack
  | faulted
deriving DecidableEq

def UnitOfWorkState.value : UnitOfWorkState → String
  | .new => "new"
  | .entering => "entering"
  | .active => "active"
  | .committing => "committing"
  | .rollingBack => "rolling_back"
  | .committed => "committed"
  | .rolledBack => "rolled_back"
  | .faulted => "faulted"

/-- What a unit of work will append for one aggregate. -/
structure CommitPlan (app : App) where
  aggregate : Nat
  streamId : StreamId
  expectedVersion : Nat
  pending : List (PendingEvent app)
  appendEvents : List AppendEvent

def CommitPlan.finalVersion (plan : CommitPlan app) : Nat :=
  plan.expectedVersion + plan.pending.length

/-- What the result of a commit has to contain for a plan: stream, version and event. -/
def CommitPlan.expected (plan : CommitPlan app) : List (StreamId × Nat × AppendEvent) :=
  plan.appendEvents.mapIdx fun i event => (plan.streamId, plan.expectedVersion + (i + 1), event)

/-- The outcomes of `outcomes.py`. -/
inductive UnitOfWorkOutcome where
  | confirmedCommit (result : CommitResult)
  | confirmedNonCommit (cause : Option EventSourcingError)
  | indeterminateCommit (cause : EventSourcingError)

/-- A call that waits for the answer of the event store. -/
inductive Suspended (app : App) where
  | enter (t : Nat)
  | commit (t : Nat) (prepared : List (CommitPlan app × PreparedCommit app))

def Suspended.transaction : Suspended app → Nat
  | .enter t => t
  | .commit t _ => t

/-- A unit of work. Its context and its transaction are set together, and are one object of the
store. `suspended` is its call that waits, of which there is one at most. -/
structure UnitOfWork (app : App) where
  state : UnitOfWorkState := .new
  transaction : Option Nat := none
  plans : List (CommitPlan app) := []
  aggregates : Finset Nat := ∅
  streams : Finset StreamId := ∅
  commitResult : Option CommitResult := none
  outcome : Option UnitOfWorkOutcome := none
  suspended : Option (Suspended app) := none

namespace UnitOfWork

/-- `_require_active`. -/
def requireActive (uow : UnitOfWork app) (operation : String) : Except EventSourcingError Unit :=
  require (uow.state = .active)
    (.unitOfWorkLifecycle
      ("cannot " ++ operation ++ " Unit of Work in " ++ uow.state.value ++ " state"))

/-- The property `transaction`. -/
def activeTransaction (uow : UnitOfWork app) : Except EventSourcingError Nat := do
  uow.requireActive "access transaction"
  match uow.transaction with
  | none => .error .assertion
  | some t => return t

/-- `validate_stage`. -/
def validateStage (uow : UnitOfWork app) (a : Nat) (agg : Aggregate app) (streamId : StreamId) :
    Except EventSourcingError Unit := do
  uow.requireActive "stage aggregate"
  require (a ∉ uow.aggregates)
    (.duplicateAggregateSave "aggregate is already saved in this Unit of Work")
  require (streamId ∉ uow.streams) (.duplicateStreamAggregate streamId)
  agg.validateStaging streamId

/-- `_validate_result`. -/
def validateResult (uow : UnitOfWork app) (result : CommitResult) :
    Except EventSourcingError Unit := do
  let expected := uow.plans.flatMap CommitPlan.expected
  require (result.events.length = expected.length)
    (.commitResultMismatch "commit result event count does not match staged events")
  require (result.events.map (fun stored => (stored.streamId, stored.streamVersion, stored.event)) =
      expected)
    (.commitResultMismatch "commit result does not match staged stream event order")
  require ((result.events.map StoredEvent.eventId).Nodup)
    (.commitResultMismatch "commit result contains duplicate event identities")
  require (∀ pair ∈ result.events.zip result.events.tail,
      pair.2.globalPosition = pair.1.globalPosition + 1)
    (.commitResultMismatch "commit result global positions must be contiguous")

end UnitOfWork

/-- What a method of a unit of work works on. -/
structure Session (app : App) where
  uow : UnitOfWork app
  aggregates : List (Aggregate app)

abbrev Method (app : App) (α : Type) := EStateM EventSourcingError (Session app) α

namespace Session

def update (f : UnitOfWork app → UnitOfWork app) : Method app Unit :=
  modify fun s => { s with uow := f s.uow }

def setState (state : UnitOfWorkState) : Method app Unit :=
  update fun uow => { uow with state := state }

def finish (state : UnitOfWorkState) (outcome : UnitOfWorkOutcome) : Method app Unit :=
  update fun uow => { uow with state := state, outcome := some outcome }

def onAggregate (a : Nat) (f : Aggregate app → Except EventSourcingError (Aggregate app)) :
    Method app Unit := fun s =>
  match s.aggregates[a]? with
  | none => .error .assertion s
  | some agg =>
    match f agg with
    | .ok agg' => .ok () { s with aggregates := s.aggregates.set a agg' }
    | .error e => .error e s

/-- Call a method of every aggregate of a plan that is still enlisted. -/
def onEnlisted (f : Aggregate app → Except EventSourcingError (Aggregate app)) :
    Method app Unit := do
  (← get).uow.plans.forM fun plan =>
    onAggregate plan.aggregate fun agg => if agg.enlistment.isSome then f agg else .ok agg

/-- `_release_all`. -/
def releaseAll (u : Nat) : Method app Unit := onEnlisted (·.release u)

/-- `_fault_all`. -/
def faultAll (u : Nat) : Method app Unit := onEnlisted (·.fault u)

/-- `__aenter__` behind the entry of the transaction `t`. -/
def entered (t : Nat) : Except EventSourcingError Unit → Method app Unit
  | .ok () => update fun uow => { uow with transaction := some t, state := .active }
  | .error e => do
    finish .rolledBack (.confirmedNonCommit (some e))
    throw e

/-- `stage`. The transaction's `append` is called with the version of the aggregate and returns what
is left of the store, or raises. -/
def stage {τ : Type} (u a : Nat) (streamId : StreamId) (pending : List (PendingEvent app))
    (appendEvents : List AppendEvent) (append : Nat → Except EventSourcingError τ) :
    Method app τ := do
  let s ← get
  match s.aggregates[a]? with
  | none => throw .assertion
  | some agg => do
    check (s.uow.validateStage a agg streamId)
    onAggregate a (·.enlist u streamId pending)
    match append agg.version with
    | .error e => do
      onAggregate a (·.release u)
      throw e
    | .ok left => do
      update fun uow =>
        { uow with
          plans := uow.plans ++ [⟨a, streamId, agg.version, pending, appendEvents⟩]
          aggregates := insert a uow.aggregates
          streams := insert streamId uow.streams }
      return left

/-- The loop of `commit` that prepares the aggregates. -/
def prepareAll (u : Nat) (plans : List (CommitPlan app)) :
    Method app (List (CommitPlan app × PreparedCommit app)) :=
  plans.mapM fun plan => do
    onAggregate plan.aggregate (·.prepareCommit u plan.pending plan.finalVersion)
    return (plan, ⟨u, plan.pending, plan.finalVersion⟩)

/-- `commit` up to the call of the transaction's `commit`. -/
def prepare (u : Nat) : Method app (List (CommitPlan app × PreparedCommit app)) := do
  setState .committing
  prepareAll u (← get).uow.plans

/-- `_rollback_and_fault`, where `answer` is that of the transaction's `rollback`, and the `raise`
behind it. -/
def rollbackAndFault (u : Nat) (cause : EventSourcingError)
    (answer : Except EventSourcingError Unit) : Method app Unit := do
  faultAll u
  finish .faulted (.confirmedNonCommit (some cause))
  check answer
  throw cause

/-- The handlers of `commit` for what the transaction's `commit` raises, up to their `raise`. -/
def handleRaised (u : Nat) (e : EventSourcingError) : Method app Unit :=
  match e with
  | .optimisticConcurrency .. | .duplicateEventId .. => do
    faultAll u
    finish .rolledBack (.confirmedNonCommit (some e))
  | .indeterminateCommit .. => do
    faultAll u
    finish .faulted (.indeterminateCommit e)
  | .cancelled | .confirmedCommit .. => do
    releaseAll u
    finish .rolledBack (.confirmedNonCommit (some e))
  | _ => do
    faultAll u
    finish .faulted (.indeterminateCommit e)

/-- `commit` behind what the transaction's `commit` raises. -/
def commitRaised (u : Nat) (e : EventSourcingError) : Method app Unit := do
  handleRaised u e
  throw e

/-- The loop of `commit` that marks the aggregates. -/
def markAll (prepared : List (CommitPlan app × PreparedCommit app)) : Method app Unit :=
  prepared.forM fun (plan, transition) => onAggregate plan.aggregate (·.markCommitted transition)

/-- `commit` behind the result of the transaction's `commit`. -/
def commitReturned (u : Nat) (prepared : List (CommitPlan app × PreparedCommit app))
    (result : CommitResult) : Method app Unit := do
  match (← get).uow.validateResult result with
  | .error e => do
    faultAll u
    finish .faulted (.indeterminateCommit e)
    throw e
  | .ok () => do
    update fun uow =>
      { uow with commitResult := some result, outcome := some (.confirmedCommit result) }
    markAll prepared
    setState .committed

/-- `_rollback`, where `answer` is that of the transaction's `rollback`. -/
def rollback (u : Nat) (cause : Option EventSourcingError)
    (answer : Except EventSourcingError Unit) : Method app Unit := do
  setState .rollingBack
  match answer with
  | .error e => do
    faultAll u
    finish .faulted (.confirmedNonCommit (some (cause.getD e)))
    throw e
  | .ok () => do
    releaseAll u
    finish .rolledBack (.confirmedNonCommit cause)

/-- The handler of `__aexit__` for what `_rollback` raises, up to the exit of the context. -/
def rollbackRaised (u : Nat) : Method app Unit := do
  faultAll u
  setState .faulted

/-- The end of `__aexit__`, where `answer` is that of the context's `__aexit__`. -/
def exited : Except EventSourcingError Unit → Method app Unit
  | .ok () => pure ()
  | .error e => do
    let uow := (← get).uow
    match uow.state, uow.commitResult with
    | .committed, some result => throw (.confirmedCommitCleanup result)
    | _, _ => throw e

end Session

end ToriPy.EventSourcing
