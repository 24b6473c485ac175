import ToriPy.EventSourcing.UnitOfWork

/-!
# Repositories and units of work over the in-memory store

`EventSourcedRepository` of `repository.py`, and the system of all units of work, aggregates and
transactions over one `InMemoryEventStore` and one frozen schema registry. The calls of the
in-memory store other than `__aenter__` and `commit` do not wait, so a call of a unit of work or a
repository is one step, except for these two: there the unit of work is `suspended` and `resume` or
`cancel` is the rest of the call. In between anything else may happen, calls on the same unit of
work included.

The store may also be used directly, through transactions of its own or through the transaction of a
unit of work; only the rest of a suspended call belongs to the call.
-/

namespace ToriPy.EventSourcing

variable {app : App} {schemas : EventSchemaRegistry app}

/-- What a call returned without a value, or that it raised. -/
def DbReply.answer : DbReply → Except EventSourcingError Unit
  | .raised e => .error e
  | _ => .ok ()

def Db.call (db : Db) (a : DbAction) : Except EventSourcingError Unit × Db :=
  match db.perform a with
  | none => (.error .assertion, db)
  | some (reply, db') => (reply.answer, db')

/-- `_stable_text` as `StreamId` calls it. -/
def App.stableText (app : App) (value fieldName : String) : Except EventSourcingError Unit := do
  require (value ≠ "" ∧ value = app.strip value)
    (.invalidStreamId (fieldName ++ " must be a non-empty string without surrounding whitespace"))
  require (app.isPrintable value) (.invalidStreamId (fieldName ++ " must contain printable text"))

/-- A repository of a unit of work. The factory returns the class, the id and the state of the new
aggregate; the operation lease says what it does at the time of the call. -/
structure Repository (schemas : EventSchemaRegistry app) where
  unitOfWork : Nat
  category : String
  aggregateFactory : app.Id → Option (app.AggregateType × app.Id × app.State)
  aggregateType : app.AggregateType
  idEncoder : app.Id → Option String
  pageSize : Nat := schemas.limits.readPageSize
  operationLease : Except EventSourcingError Unit := .ok ()
  frozen : schemas.frozen = true
  page : 0 < pageSize ∧ pageSize ≤ schemas.limits.readPageSize

namespace Repository

/-- `_stream_id`. -/
def streamId (repository : Repository schemas) (id : app.Id) : Except EventSourcingError StreamId :=
  match repository.idEncoder id with
  | none => .error (.repository "aggregate ID encoder failed")
  | some key => do
    app.stableText repository.category "category"
    app.stableText key "key"
    return ⟨repository.category, key⟩

/-- `_new_aggregate`. -/
def newAggregate (repository : Repository schemas) (id : app.Id) :
    Except EventSourcingError (Aggregate app) :=
  match repository.aggregateFactory id with
  | none => .error (.repository "aggregate factory failed")
  | some (aggregateType, id', initial) => do
    require (aggregateType = repository.aggregateType) .aggregateTypeMismatch
    require (id' = id) (.repository "aggregate factory returned a different ID")
    return Aggregate.construct aggregateType id' initial

/-- `load` up to its loop. -/
def openStream (repository : Repository schemas) (id : app.Id) :
    Except EventSourcingError (StreamId × Aggregate app) := do
  repository.operationLease
  let streamId ← repository.streamId id
  let agg ← repository.newAggregate id
  return (streamId, agg)

/-- The loop of `load`: whether an event was found, or `none` when the fuel is used up. -/
def replayPages (schemas : EventSchemaRegistry app)
    (read : Nat → Except EventSourcingError (List StoredEvent)) :
    Nat → Nat → Bool → EStateM EventSourcingError (Aggregate app) (Option Bool)
  | 0, _, _ => pure none
  | fuel + 1, afterVersion, found => do
    let page ← check (read afterVersion)
    match page.getLast? with
    | none => pure (some found)
    | some last => do
      let recorded ← check (page.mapM schemas.decode)
      Aggregate.replay recorded
      replayPages schemas read fuel last.streamVersion true

/-- `save` up to `stage`: the stream and the encoded events, or `none` when nothing is pending. -/
def encodePending (repository : Repository schemas) (uow : UnitOfWork app) (a : Nat)
    (agg : Aggregate app) : Except EventSourcingError (Option (StreamId × List AppendEvent)) := do
  repository.operationLease
  require (agg.aggregateType = repository.aggregateType) .aggregateTypeMismatch
  let streamId ← repository.streamId agg.id
  uow.validateStage a agg streamId
  if agg.pendingEvents = [] then return none
  let appendEvents ← agg.pendingEvents.mapM schemas.encode
  return some (streamId, appendEvents)

end Repository

/-- The store, the units of work and the aggregates, each in the order of their construction. -/
structure System (app : App) where
  db : Db
  uows : List (UnitOfWork app) := []
  aggregates : List (Aggregate app) := []

/-- A call, or the rest of a suspended one. -/
inductive Action (schemas : EventSchemaRegistry app) where
  | store (a : DbAction)
  | construct (aggregateType : app.AggregateType) (id : app.Id) (initial : app.State)
  | raiseEvent (a : Nat) (event : app.Event) (metadata : EventMetadata)
  | unitOfWork
  | enter (u : Nat)
  | load (repository : Repository schemas) (id : app.Id)
  | get (repository : Repository schemas) (id : app.Id)
  | save (repository : Repository schemas) (a : Nat)
  | commit (u : Nat)
  | rollback (u : Nat)
  | exit (u : Nat) (error : Option EventSourcingError)
  | resume (u : Nat)
  | cancel (u : Nat)

/-- How a call ends, or that it waits. -/
inductive Reply where
  | returned
  | waits
  | loaded (a : Nat)
  | missing
  | committed (result : CommitResult)
  | raised (error : EventSourcingError)
  | store (reply : DbReply)
deriving DecidableEq

namespace System

def start (limits : EventSourcingLimits) : System app := { db := Db.start limits }

/-- The system after a method of the unit of work `u`. -/
def put (w : System app) (u : Nat) (db : Db) (s : Session app) : System app :=
  ⟨db, w.uows.set u s.uow, s.aggregates⟩

/-- Reply as a method of the unit of work `u` ends. -/
def conclude (w : System app) (u : Nat) (db : Db) (reply : Reply) {α : Type} :
    EStateM.Result EventSourcingError (Session app) α → Reply × System app
  | .ok _ s => (reply, w.put u db s)
  | .error e s => (.raised e, w.put u db s)

/-- Whether a suspended call waits for what the action does. -/
def awaits (w : System app) : DbAction → Bool
  | .proceed t | .cancel t => w.uows.any fun uow => uow.suspended.any (·.transaction = t)
  | _ => false

/-- `__aenter__` up to its wait. -/
def enter (w : System app) (u : Nat) (uow : UnitOfWork app) : Reply × System app :=
  if uow.state = .new then
    let t := w.db.transactions.length
    let (answer, db) := (w.db.call .transaction).2.call (.enter t)
    match answer with
    | .ok () =>
      let uow := { uow with state := .entering, suspended := some (.enter t) }
      (.waits, w.put u db ⟨uow, w.aggregates⟩)
    | .error e => w.conclude u db .returned (Session.entered t (.error e) ⟨uow, w.aggregates⟩)
  else
    (.raised (.unitOfWorkLifecycle
      ("cannot enter Unit of Work in " ++ uow.state.value ++ " state")), w)

/-- One page of a stream through the transaction of a unit of work. -/
def readPage (w : System app) (uow : UnitOfWork app) (streamId : StreamId) (pageSize : Nat)
    (afterVersion : Nat) : Except EventSourcingError (List StoredEvent) := do
  let t ← uow.activeTransaction
  match w.db.transactions[t]? with
  | none => .error .assertion
  | some tx => tx.readStream w.db.limits streamId afterVersion pageSize

/-- `load`. -/
def load (w : System app) (repository : Repository schemas) (uow : UnitOfWork app) (id : app.Id) :
    Option (Reply × System app) :=
  match repository.openStream id with
  | .error e => some (.raised e, w)
  | .ok (streamId, agg) =>
    match Repository.replayPages schemas (w.readPage uow streamId repository.pageSize)
      ((w.db.state.stream streamId).length + 1) 0 false agg with
    | .ok none _ => none
    | .ok (some found) agg' =>
      some (if found then .loaded w.aggregates.length else .missing,
        { w with aggregates := w.aggregates ++ [agg'] })
    | .error e agg' => some (.raised e, { w with aggregates := w.aggregates ++ [agg'] })

/-- `get`. -/
def get (w : System app) (repository : Repository schemas) (uow : UnitOfWork app) (id : app.Id) :
    Option (Reply × System app) := do
  let (reply, w') ← w.load repository uow id
  match reply, repository.streamId id with
  | .missing, .ok streamId => return (.raised (.aggregateNotFound streamId), w')
  | .missing, .error e => return (.raised e, w')
  | reply, _ => return (reply, w')

/-- `save`. -/
def save (w : System app) (repository : Repository schemas) (uow : UnitOfWork app) (a : Nat)
    (agg : Aggregate app) : Reply × System app :=
  match repository.encodePending uow a agg with
  | .error e => (.raised e, w)
  | .ok none => (.returned, w)
  | .ok (some (streamId, appendEvents)) =>
    let append (version : Nat) : Except EventSourcingError Db := do
      let t ← uow.activeTransaction
      let (answer, db) := w.db.call (.append t streamId version appendEvents)
      answer
      return db
    match Session.stage repository.unitOfWork a streamId agg.pendingEvents appendEvents append
      ⟨uow, w.aggregates⟩ with
    | .ok db s => (.returned, w.put repository.unitOfWork db s)
    | .error e s => (.raised e, w.put repository.unitOfWork w.db s)

/-- `commit` up to its wait. -/
def commit (w : System app) (u : Nat) (uow : UnitOfWork app) : Reply × System app :=
  match uow.activeTransaction with
  | .error e => (.raised e, w)
  | .ok t =>
    match Session.prepare u ⟨uow, w.aggregates⟩ with
    | .error e s =>
      let (answer, db) := w.db.call (.rollback t)
      w.conclude u db .returned (Session.rollbackAndFault u e answer s)
    | .ok prepared s =>
      let (answer, db) := w.db.call (.commit t)
      match answer with
      | .ok () =>
        (.waits, w.put u db { s with uow := { s.uow with suspended := some (.commit t prepared) } })
      | .error e => w.conclude u db .returned (Session.commitRaised u e s)

/-- `rollback`. -/
def rollback (w : System app) (u : Nat) (uow : UnitOfWork app) : Reply × System app :=
  match uow.activeTransaction with
  | .error e => (.raised e, w)
  | .ok t =>
    let (answer, db) := w.db.call (.rollback t)
    w.conclude u db .returned (Session.rollback u none answer ⟨uow, w.aggregates⟩)

/-- The exit of the context in `__aexit__`. -/
def exitContext (w : System app) (u t : Nat) (db : Db) (s : Session app) : Reply × System app :=
  let (answer, db) := db.call (.exit t)
  w.conclude u db .returned (Session.exited answer s)

/-- `__aexit__`. -/
def exit (w : System app) (u : Nat) (uow : UnitOfWork app) (error : Option EventSourcingError) :
    Reply × System app :=
  match uow.transaction with
  | none => (.returned, w)
  | some t =>
    if uow.state = .committing ∨ uow.state = .rollingBack then
      (.raised (.unitOfWorkLifecycle
        ("cannot exit Unit of Work in " ++ uow.state.value ++ " state")), w)
    else if uow.state = .active then
      let (answer, db) := w.db.call (.rollback t)
      match Session.rollback u error answer ⟨uow, w.aggregates⟩ with
      | .ok () s => w.exitContext u t db s
      | .error e s =>
        match Session.rollbackRaised u s with
        | .ok () s => (.raised e, w.put u (db.call (.exit t)).2 s)
        | .error e s => (.raised e, w.put u db s)
    else w.exitContext u t w.db ⟨uow, w.aggregates⟩

/-- The rest of a suspended call, when the store proceeds with it or the call is cancelled. -/
def goOn (w : System app) (u : Nat) (uow : UnitOfWork app) (a : Nat → DbAction) :
    Option (Reply × System app) := do
  let suspended ← uow.suspended
  let (reply, db) ← w.db.perform (a suspended.transaction)
  let s : Session app := ⟨{ uow with suspended := none }, w.aggregates⟩
  match suspended, reply with
  | .enter t, reply => some (w.conclude u db .returned (Session.entered t reply.answer s))
  | .commit _ prepared, .committed result =>
    some (w.conclude u db (.committed result) (Session.commitReturned u prepared result s))
  | .commit _ _, .raised e => some (w.conclude u db .returned (Session.commitRaised u e s))
  | _, _ => none

def perform (w : System app) : Action schemas → Option (Reply × System app)
  | .store a =>
    if w.awaits a then none
    else do
      let (reply, db) ← w.db.perform a
      return (.store reply, { w with db := db })
  | .construct aggregateType id initial =>
    some (.returned,
      { w with aggregates := w.aggregates ++ [Aggregate.construct aggregateType id initial] })
  | .raiseEvent a event metadata => do
    let agg ← w.aggregates[a]?
    match Aggregate.raiseEvent event metadata agg with
    | .ok () agg' => some (.returned, { w with aggregates := w.aggregates.set a agg' })
    | .error e agg' => some (.raised e, { w with aggregates := w.aggregates.set a agg' })
  | .unitOfWork => some (.returned, { w with uows := w.uows ++ [{}] })
  | .enter u => do
    let uow ← w.uows[u]?
    return w.enter u uow
  | .load repository id => do
    let uow ← w.uows[repository.unitOfWork]?
    w.load repository uow id
  | .get repository id => do
    let uow ← w.uows[repository.unitOfWork]?
    w.get repository uow id
  | .save repository a => do
    let uow ← w.uows[repository.unitOfWork]?
    let agg ← w.aggregates[a]?
    return w.save repository uow a agg
  | .commit u => do
    let uow ← w.uows[u]?
    return w.commit u uow
  | .rollback u => do
    let uow ← w.uows[u]?
    return w.rollback u uow
  | .exit u error => do
    let uow ← w.uows[u]?
    return w.exit u uow error
  | .resume u => do
    let uow ← w.uows[u]?
    w.goOn u uow .proceed
  | .cancel u => do
    let uow ← w.uows[u]?
    w.goOn u uow .cancel

def step (schemas : EventSchemaRegistry app) (w : System app) (a : Action schemas) :
    Option (System app) := (w.perform a).map (·.2)

end System

end ToriPy.EventSourcing
