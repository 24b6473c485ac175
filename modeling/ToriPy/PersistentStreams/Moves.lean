import ToriPy.Base.Table
import ToriPy.PersistentStreams.Sections

/-!
# What a step can do

The inversion of `World.step`, said once and used by every invariant. `Sys.Advance` lists the
sections of a call in progress with the place the call goes to; those that only move the call are
gathered in `Quiet`. `World.Move` adds the calls that begin and the operations that are one section.

A step is a move, or for an `acquire` that does not wait two moves in a row; `World.step_preserves`
turns a property kept by moves into one kept by steps.
-/

namespace ToriPy.PersistentStreams

/-- What the release of a lease leaves of a log. -/
structure Log.Released (log log' : Log) : Prop where
  streams : log'.streams = log.streams
  transfers : log'.transfers = log.transfers
  strategies : log'.groupStrategies = log.groupStrategies
  pending : log'.pendingGroupStrategies = log.pendingGroupStrategies
  closed : log'.closed = log.closed

lemma Sys.release_log (s : Sys) (id : LeaseId) (lease : Lease) :
    s.log.Released (s.release id lease).log := by
  unfold Sys.release
  split
  · exact ⟨rfl, rfl, rfl, rfl, rfl⟩
  · dsimp only
    split <;> exact ⟨rfl, rfl, rfl, rfl, rfl⟩

/-- A place with nothing to remember but the lease: a call that ended without a record, that is
about to load a cursor, or that cleans up. -/
def Pc.Idle (id : LeaseId) : Pc → Prop
  | .finished (.record (some _)) => False
  | .finished _ => True
  | .consume lease _ .nextLoad => lease = id
  | .consume lease _ (.nextStop _) => lease = id
  | .consume lease _ (.complete _) => lease = id
  | .consume lease _ (.checkpointStop _ _) => lease = id
  | .consume lease _ (.runnerStop _) => lease = id
  | .consume lease _ (.runnerRelease _) => lease = id
  | _ => False

lemma nextRecord_idle (id : LeaseId) (lease : Lease) (c : Caller) :
    (nextRecord id lease c).Idle id := by
  unfold nextRecord
  split
  · exact rfl
  · trivial

lemma checkpointRaised_idle (id : LeaseId) (record : StoredRecord) (e : StreamsError) (c : Caller) :
    (checkpointRaised id record e c).Idle id := by
  cases c with
  | application => trivial
  | runner => exact rfl

lemma checkpointReturned_idle (id : LeaseId) (lease : Lease) (c : Caller) :
    (checkpointReturned id lease c).Idle id := by
  cases c with
  | application => trivial
  | runner =>
    simp only [checkpointReturned]
    split
    · exact nextRecord_idle _ _ _
    · trivial

/-- A section of `next_record`, `checkpoint` or `run_once` that changes nothing but the place. -/
inductive Quiet (s : Sys) (lease : Lease) (id : LeaseId) (c : Caller) : ConsumeStage → Pc →
    Prop where
  | idle {st pc} : pc.Idle id → Quiet s lease id c st pc
  | loaded {cursor} : s.cursor lease.store lease.key = some cursor →
    Quiet s lease id c .nextLoad (.consume id c (.nextOwner cursor))
  | loadedBroker {cursor} : s.cursor lease.store lease.key = some cursor →
    Quiet s lease id c .nextLoad (.consume id c (.nextDeliver cursor))
  | owned {cursor} : Quiet s lease id c (.nextOwner cursor) (.consume id c (.nextDeliver cursor))
  | entered {record} : lease.inFlight = some record →
    Quiet s lease id c (.checkpointEnter (.stored record)) (.consume id c (.checkpointLoad record))
  | expected {record cursor} :
    Quiet s lease id c (.checkpointLoad record) (.consume id c (.checkpointOwner record cursor))
  | expectedBroker {record cursor} : lease.store = none →
    Quiet s lease id c (.checkpointLoad record) (.consume id c (.commit record cursor))
  | checkpointOwned {record cursor} :
    Quiet s lease id c (.checkpointOwner record cursor) (.consume id c (.saveOwner record cursor))
  | saveOwned {record cursor} :
    Quiet s lease id c (.saveOwner record cursor) (.consume id c (.save record cursor))

variable {st : AcquireStage}

lemma Pc.cancel_acquire {pc : Pc} {f} (h : pc.cancel = some (.acquire f st)) :
    (∃ st', pc = .acquire f st') ∧ ∀ id since, st ≠ .wait id since := by
  cases pc with
  | acquire f' st' =>
    cases st' with
    | wait => cases h; exact ⟨⟨_, rfl⟩, nofun⟩
    | init id stage => cases stage <;> cases h <;> exact ⟨⟨_, rfl⟩, nofun⟩
    | _ => cases h
  | consume id c st' => cases c <;> cases st' <;> cases h
  | finished => cases h

/-- The stage an installed lease is initialized from. -/
def AcquireFrame.firstStage (f : AcquireFrame) : InitStage :=
  if f.binding.store.isSome then .fence else .broker

/-- Behind its first section, an `acquire` is ready for its second when it need not wait (and the
first section has just run) or when the event it waits for was set. -/
def AcquireStage.Ready (s : Sys) (f : AcquireFrame) : AcquireStage → Prop
  | .entered => f.currentLease = s.log.leases.lookup f.key ∧
      (f.currentLease = none → Dict.size s.log.owners < s.log.maxActiveLeases)
  | .wait id since => ∃ lease, s.objects[id]? = some lease ∧ since < lease.deliveryCompleted.sets
  | _ => False

namespace Sys

/-- The sections of a call in progress. -/
inductive Advance (s : Sys) : Pc → Sys → Pc → Prop where
  | install {f st token s'} : st.Ready s f → s.Installs f token s' →
    Advance s (.acquire f st) s' (.acquire f (.init s.objects.length f.firstStage))
  | refuse {f st e} : st.Ready s f → Advance s (.acquire f st) s (.acquire f (.cancel e))
  | cancel {f e} : Advance s (.acquire f (.cancel e)) (s.cancelAcquire f) (.finished (.raised e))
  | fence {f id lease store next} : s.objects[id]? = some lease → lease.store = some store →
    (next = .load ∨ ∃ e, next = .failed e) →
    Advance s (.acquire f (.init id .fence)) (s.fence lease store) (.acquire f (.init id next))
  | fail {f id st e} : st ≠ .finish → (∀ e', st ≠ .failed e') →
    Advance s (.acquire f (.init id st)) s (.acquire f (.init id (.failed e)))
  | vacant {f id} :
    Advance s (.acquire f (.init id .load)) s (.acquire f (.init id .resolve))
  | found {f id lease cursor} : s.objects[id]? = some lease →
    s.cursor lease.store lease.key = some cursor →
    Advance s (.acquire f (.init id .load)) s (.acquire f (.init id .owner))
  | resolve {f id start} :
    Advance s (.acquire f (.init id .resolve)) s
      (.acquire f (.init id (.create (.initialized start))))
  | create {f id lease store cursor next s'} : s.objects[id]? = some lease →
    lease.store = some store → s.createCursor lease store cursor = .ok s' →
    (next = .owner ∨ ∃ e, next = .failed e) →
    Advance s (.acquire f (.init id (.create cursor))) s' (.acquire f (.init id next))
  | owner {f id lease} : s.objects[id]? = some lease →
    s.log.owners.lookup lease.key = some lease.owner →
    Advance s (.acquire f (.init id .owner)) s (.acquire f (.init id .finish))
  | broker {f id lease clock s'} : s.objects[id]? = some lease →
    s.initBroker lease clock = .ok s' →
    Advance s (.acquire f (.init id .broker)) s' (.acquire f (.init id .finish))
  | finish {f id lease} : s.objects[id]? = some lease →
    Advance s (.acquire f (.init id .finish)) (s.finishAcquire f id lease)
      (.finished (.acquired id))
  | abandon {f id lease e} : s.objects[id]? = some lease →
    Advance s (.acquire f (.init id (.failed e))) (s.release id lease) (.acquire f (.unreserve e))
  | unreserve {f e} :
    Advance s (.acquire f (.unreserve e)) (s.unreserve f) (.finished (.raised e))
  | quiet {id c st lease pc} : s.objects[id]? = some lease → Quiet s lease id c st pc →
    Advance s (.consume id c st) s pc
  | deliver {id c lease cursor record s'} : s.objects[id]? = some lease →
    s.deliver id lease cursor = .ok (some record, s') →
    Advance s (.consume id c (.nextDeliver cursor)) s' (nextReturned id (some record) c)
  | handled {id c lease record} : s.objects[id]? = some lease →
    Advance s (.consume id c (.handling record))
      (s.emit (.handled lease.key lease.owner record)) (checkpoint id lease (.stored record) c)
  | save {id c lease store record expected s' pc} : s.objects[id]? = some lease →
    lease.store = some store →
    s.saveCursor lease store record expected c.isRunner = .ok s' → pc.Idle id →
    Advance s (.consume id c (.save record expected)) s' pc
  | complete {id c record pc} : pc.Idle id →
    Advance s (.consume id c (.complete record)) (s.modify id Lease.completeDelivery) pc
  | commit {id c lease record expected s' pc} : s.objects[id]? = some lease →
    s.commitBroker id lease record expected c.isRunner = .ok s' → pc.Idle id →
    Advance s (.consume id c (.commit record expected)) s' pc
  | stop {id c st pc} : pc.Idle id → Advance s (.consume id c st) (s.stop id) pc
  | release {id c st lease pc} : s.objects[id]? = some lease → pc.Idle id →
    Advance s (.consume id c st) (s.release id lease) pc

lemma Advance.acquire {s s' : Sys} {pc pc' f} (adv : s.Advance pc s' pc')
    (h : pc' = .acquire f st) : (∃ st', pc = .acquire f st') ∧ ∀ id since, st ≠ .wait id since := by
  have idle : ∀ {pc : Pc} {id : LeaseId}, pc.Idle id → pc ≠ .acquire f st := by
    rintro pc id idle rfl
    cases idle
  cases adv with
  | cancel | finish | unreserve => cases h
  | quiet _ q =>
    cases q with
    | idle hi => exact absurd h (idle hi)
    | _ => cases h
  | @deliver _ c => cases c <;> cases h
  | handled =>
    unfold checkpoint at h
    split at h
    · cases h
    · exact absurd h (idle (checkpointRaised_idle _ _ _ _))
  | save _ _ _ hi | complete hi | commit _ _ hi | stop hi | release _ hi => exact absurd h (idle hi)
  | _ => cases h; exact ⟨⟨_, rfl⟩, nofun⟩

/-- How a section takes a call on a lease from a stage to a place. -/
inductive Consumes (s : Sys) (id : LeaseId) (c : Caller) (st : ConsumeStage) (s' : Sys) :
    Pc → Prop where
  | idle {pc} : pc.Idle id → Consumes s id c st s' pc
  | quiet {lease pc} : s.objects[id]? = some lease → Quiet s lease id c st pc → s' = s →
    Consumes s id c st s' pc
  | delivered {lease cursor record} : s.objects[id]? = some lease → st = .nextDeliver cursor →
    s.deliver id lease cursor = .ok (some record, s') →
    Consumes s id c st s' (nextReturned id (some record) c)
  | handled {lease record} : s.objects[id]? = some lease → st = .handling record →
    s' = s.emit (.handled lease.key lease.owner record) →
    Consumes s id c st s' (checkpoint id lease (.stored record) c)

lemma Advance.consume {s s' : Sys} {pc pc' id c' st'} (adv : s.Advance pc s' pc')
    (h : pc' = .consume id c' st') : ∃ c st, pc = .consume id c st ∧ s.Consumes id c st s' pc' := by
  have idle : ∀ {id₀ : LeaseId} {c st}, pc = .consume id₀ c st →
      pc'.Idle id₀ → ∃ c st, pc = .consume id c st ∧ s.Consumes id c st s' pc' := by
    intro id₀ c st hpc hi
    have same : id = id₀ := by
      subst h
      cases st' <;> first | exact hi | cases hi
    subst same
    exact ⟨c, st, hpc, .idle hi⟩
  cases adv with
  | quiet obj q =>
    cases q with
    | idle hi => exact idle rfl hi
    | loaded load => cases h; exact ⟨_, _, rfl, .quiet obj (.loaded load) rfl⟩
    | loadedBroker load => cases h; exact ⟨_, _, rfl, .quiet obj (.loadedBroker load) rfl⟩
    | owned => cases h; exact ⟨_, _, rfl, .quiet obj .owned rfl⟩
    | entered busy => cases h; exact ⟨_, _, rfl, .quiet obj (.entered busy) rfl⟩
    | expected => cases h; exact ⟨_, _, rfl, .quiet obj .expected rfl⟩
    | expectedBroker none => cases h; exact ⟨_, _, rfl, .quiet obj (.expectedBroker none) rfl⟩
    | checkpointOwned => cases h; exact ⟨_, _, rfl, .quiet obj .checkpointOwned rfl⟩
    | saveOwned => cases h; exact ⟨_, _, rfl, .quiet obj .saveOwned rfl⟩
  | @deliver _ c _ _ _ _ obj made =>
    cases c with
    | application => cases h
    | runner =>
      cases h
      exact ⟨_, _, rfl, .delivered obj rfl made⟩
  | @handled id₀ c lease record obj =>
    by_cases live : ∃ u, lease.requireActive = .ok u
    · obtain ⟨u, live⟩ := live
      have same : checkpoint id₀ lease (.stored record) c =
          .consume id₀ c (.checkpointEnter (.stored record)) := by simp only [checkpoint, live]
      obtain rfl : id₀ = id := by rw [same] at h; cases h; rfl
      exact ⟨_, _, rfl, .handled obj rfl rfl⟩
    · refine idle rfl ?_
      unfold checkpoint
      split
      · exact absurd ⟨_, ‹_›⟩ live
      · exact checkpointRaised_idle _ _ _ _
  | save _ _ _ hi | complete hi | commit _ _ hi | stop hi | release _ hi => exact idle rfl hi
  | _ => cases h

variable {s s' : Sys} {env : Env} {pc pc' : Pc} {f : AcquireFrame} {id : LeaseId} {lease : Lease}

lemma call_cases {reply : StoreReply} {cursor result error}
    (h : reply.call s cursor result = (error, s')) :
    result = .ok s' ∨ s' = s ∧ ∃ e, error = some e := by
  cases reply <;> cases result <;> cases h
  · exact .inr ⟨rfl, _, rfl⟩
  · exact .inl rfl
  · exact .inr ⟨rfl, _, rfl⟩
  · exact .inr ⟨rfl, _, rfl⟩
  · exact .inr ⟨rfl, _, rfl⟩
  · exact .inl rfl

lemma load_some {reply : StoreReply} {store : CheckpointStore} {key cursor}
    (h : reply.load store key = .ok cursor) : store.cursors.lookup key = cursor := by
  cases reply <;> cases h
  rfl

lemma acquireInstall_advance (ready : st.Ready s f)
    (h : s.acquireInstall f = (s', pc')) : s.Advance (.acquire f st) s' pc' := by
  unfold acquireInstall at h
  split at h
  · cases h
    exact .refuse ready
  · rename_i made
    obtain ⟨_, inst⟩ := install_ok made
    cases h
    exact .install ready inst

lemma advanceInit_advance {st} (obj : s.objects[id]? = some lease)
    (h : s.advanceInit env f id lease st = some (s', pc')) :
    s.Advance (.acquire f (.init id st)) s' pc' := by
  cases st with
  | fence =>
    simp only [advanceInit, bind_some] at h
    obtain ⟨store, hstore, h⟩ := h
    rcases hcall : env.store.call s none (.ok (s.fence lease store)) with ⟨error, s₁⟩
    rw [hcall] at h
    obtain made | ⟨rfl, e, rfl⟩ := call_cases hcall
    · cases made
      cases error with
      | none => cases h; exact .fence obj hstore (.inl rfl)
      | some e => cases h; exact .fence obj hstore (.inr ⟨e, rfl⟩)
    · cases h
      exact .fail nofun nofun
  | load =>
    simp only [advanceInit, bind_some] at h
    obtain ⟨store, hstore, h⟩ := h
    cases hload : env.store.load (s.stores store) lease.key with
    | error =>
      rw [hload] at h
      cases h
      exact .fail nofun nofun
    | ok cursor =>
      rw [hload] at h
      cases cursor with
      | none => cases h; exact .vacant
      | some cursor =>
        cases h
        refine .found obj (?_ : s.cursor lease.store lease.key = some cursor)
        rw [hstore]
        exact load_some hload
  | resolve =>
    simp only [advanceInit] at h
    split at h
    · cases h
      exact .resolve
    · cases h
      exact .fail nofun nofun
  | create cursor =>
    simp only [advanceInit, bind_some] at h
    obtain ⟨store, hstore, h⟩ := h
    rcases hcall : env.store.call s (some cursor) (s.createCursor lease store cursor) with
      ⟨error, s₁⟩
    rw [hcall] at h
    obtain made | ⟨rfl, e, rfl⟩ := call_cases hcall
    · cases error with
      | none => cases h; exact .create obj hstore made (.inl rfl)
      | some e => cases h; exact .create obj hstore made (.inr ⟨e, rfl⟩)
    · cases h
      exact .fail nofun nofun
  | owner =>
    simp only [advanceInit] at h
    split at h
    · rename_i owns
      cases h
      exact .owner obj (requireOwner_ok.mp owns).2
    · cases h
      exact .fail nofun nofun
  | broker =>
    simp only [advanceInit] at h
    split at h
    · rename_i made
      cases h
      exact .broker obj made
    · cases h
      exact .fail nofun nofun
  | finish =>
    cases h
    exact .finish obj
  | failed =>
    cases h
    exact .abandon obj

lemma advanceConsume_advance {c st} (obj : s.objects[id]? = some lease)
    (h : s.advanceConsume env id lease c st = some (s', pc')) :
    s.Advance (.consume id c st) s' pc' := by
  cases st with
  | nextLoad =>
    simp only [advanceConsume] at h
    split at h
    · rename_i hstore
      split at h
      · rename_i cursor loaded
        cases h
        refine .quiet obj (.loadedBroker ?_)
        rw [hstore]
        exact loadBroker_ok loaded
      · cases h
        exact .quiet obj (.idle trivial)
    · rename_i store hstore
      split at h
      · rename_i cursor loaded
        cases h
        refine .quiet obj (.loaded ?_)
        rw [hstore]
        exact load_some loaded
      · cases h
        exact .quiet obj (.idle rfl)
      · cases h
        exact .quiet obj (.idle rfl)
  | nextOwner =>
    simp only [advanceConsume] at h
    split at h
    · cases h
      exact .quiet obj .owned
    · cases h
      exact .quiet obj (.idle trivial)
  | nextDeliver cursor =>
    simp only [advanceConsume] at h
    split at h
    · rename_i record s₁ made
      cases h
      cases record with
      | some => exact .deliver obj made
      | none =>
        cases deliver_none made
        cases c <;> exact .quiet obj (.idle trivial)
    · cases h
      exact .quiet obj (.idle trivial)
  | nextStop | runnerStop =>
    cases h
    exact .stop trivial
  | handling =>
    simp only [advanceConsume] at h
    split at h
    · cases h
      exact .handled obj
    · cases h
      exact .quiet obj (.idle rfl)
    · cases h
      exact .quiet obj (.idle rfl)
  | checkpointEnter ref =>
    simp only [advanceConsume] at h
    split at h
    · rename_i record checked
      obtain ⟨rfl, inFlight⟩ := checkpointChecks_ok checked
      cases h
      exact .quiet obj (.entered inFlight)
    · cases h
      exact .quiet obj (.idle (checkpointRaised_idle _ _ _ _))
  | checkpointLoad record =>
    simp only [advanceConsume] at h
    split at h
    · rename_i hstore
      split at h
      · cases h
        exact .quiet obj (.expectedBroker hstore)
      · cases h
        exact .quiet obj (.idle (checkpointRaised_idle _ _ _ _))
    · split at h
      · cases h
        exact .quiet obj .expected
      · cases h
        exact .quiet obj (.idle rfl)
      · cases h
        exact .quiet obj (.idle rfl)
  | checkpointOwner =>
    simp only [advanceConsume] at h
    split at h
    · cases h
      exact .quiet obj .checkpointOwned
    · cases h
      exact .quiet obj (.idle (checkpointRaised_idle _ _ _ _))
  | saveOwner =>
    simp only [advanceConsume] at h
    split at h
    · cases h
      exact .quiet obj .saveOwned
    · cases h
      exact .quiet obj (.idle (checkpointRaised_idle _ _ _ _))
  | save record expected =>
    simp only [advanceConsume, bind_some] at h
    obtain ⟨store, hstore, h⟩ := h
    rcases hcall : env.store.call s (some (.lastSuccessful record.offset))
      (s.saveCursor lease store record expected c.isRunner) with ⟨error, _⟩
    rw [hcall] at h
    obtain made | ⟨rfl, e, rfl⟩ := call_cases hcall
    · cases error with
      | none | some => cases h; exact .save obj hstore made rfl
    · cases h
      exact .quiet obj (.idle rfl)
  | complete record =>
    simp only [advanceConsume] at h
    split at h
    · rename_i made
      cases complete_ok made
      cases h
      exact .complete (checkpointReturned_idle _ _ _)
    · cases h
      exact .quiet obj (.idle (checkpointRaised_idle _ _ _ _))
  | commit record expected =>
    simp only [advanceConsume] at h
    split at h
    · rename_i made
      cases h
      exact .commit obj made (checkpointReturned_idle _ _ _)
    · cases h
      exact .quiet obj (.idle (checkpointRaised_idle _ _ _ _))
  | checkpointStop =>
    cases h
    exact .stop (checkpointRaised_idle _ _ _ _)
  | runnerRelease =>
    cases h
    exact .release obj trivial

lemma advance_advance (h : s.advance env pc = some (s', pc')) : s.Advance pc s' pc' := by
  cases pc with
  | acquire f st =>
    cases st with
    | entered => cases h
    | wait id since =>
      simp only [advance, advanceAcquire, bind_some] at h
      obtain ⟨lease, obj, h⟩ := h
      split at h
      · rename_i woken
        exact acquireInstall_advance ⟨lease, obj, woken⟩ (Option.some.inj h)
      · cases h
    | cancel =>
      cases h
      exact .cancel
    | init =>
      simp only [advance, advanceAcquire, bind_some] at h
      obtain ⟨lease, obj, h⟩ := h
      exact advanceInit_advance obj h
    | unreserve =>
      cases h
      exact .unreserve
  | consume =>
    simp only [advance, bind_some] at h
    obtain ⟨_, obj, h⟩ := h
    exact advanceConsume_advance obj h
  | finished => cases h

end Sys

namespace World

/-- The moves steps are made of. -/
inductive Move (w : World) : Action → World → Prop where
  | rewrite {a log} : log = { w.sys.log with streams := log.streams } →
    (∀ H, w.sys.log.Refines H → log.Refines H) →
    Move w a { w with sys := { w.sys with log := log } }
  | store {a log record} : log = { w.sys.log with streams := log.streams } →
    (∀ H, w.sys.log.Refines H → log.Refines (H.extend (some record))) →
    Move w a { w with sys := { w.sys with log := log }.emit (.stored record) }
  | close {a} : Move w a { w with sys := w.sys.close }
  | refuse {a pending e} : Sys.Refused w.sys.log.pendingGroupStrategies pending →
    Move w a {
      sys := { w.sys with log := { w.sys.log with pendingGroupStrategies := pending } }
      calls := w.calls ++ [.finished (.raised e)] }
  | enter {a f s} : w.sys.Enters f w.calls.length s →
    Move w a { sys := s, calls := w.calls ++ [.acquire f (s.afterEnter f)] }
  | begin {a pc} (id : LeaseId) : w.sys.returned id = true →
    (pc.Idle id ∨ ∃ ref, pc = .consume id .application (.checkpointEnter ref)) →
    Move w a (w.begin pc)
  | stop {a id} : Move w a { w with sys := w.sys.stop id }
  | release {a id lease} : w.sys.objects[id]? = some lease →
    Move w a { w with sys := w.sys.release id lease }
  | advance {call env pc s pc'} : w.calls[call]? = some pc → w.sys.Advance pc s pc' →
    Move w (.resume call env) { sys := s, calls := w.calls.set call pc' }
  | cancel {a call pc pc'} : w.calls[call]? = some pc → pc.cancel = some pc' →
    Move w a { w with calls := w.calls.set call pc' }

variable {w w' : World} {a : Action}

lemma lease?_some {id lease} (h : w.lease? id = some lease) :
    w.sys.returned id = true ∧ w.sys.objects[id]? = some lease := by
  unfold lease? at h
  split at h
  · exact ⟨‹_›, h⟩
  · cases h

lemma acquire_moves (w : World) (subscription : Subscription) (partition : Int)
    (binding : StrategyBinding) (transfer : Bool) (a : Action) :
    w.Move a (w.acquire subscription partition binding transfer) ∨
      ∃ f s, w.sys.Enters f w.calls.length s ∧ s.afterEnter f = .entered ∧
        Move { sys := s, calls := w.calls ++ [.acquire f .entered] } (.resume w.calls.length {})
          (w.acquire subscription partition binding transfer) := by
  unfold acquire
  obtain ⟨f, s, enter, ent⟩ | ⟨e, _, enter, refused⟩ :=
    w.sys.acquireEnter_cases subscription partition binding transfer w.calls.length
  · rw [enter]
    dsimp only
    split
    · rename_i hst
      refine .inr ⟨f, s, ent, hst, ?_⟩
      have same : s.log.leases = w.sys.log.leases ∧ s.log.owners = w.sys.log.owners ∧
          s.log.maxActiveLeases = w.sys.log.maxActiveLeases := by
        obtain ⟨-, -, -, hs⟩ | ⟨id, -, -, -, hs⟩ := ent.cases <;> rw [hs] <;> exact ⟨rfl, rfl, rfl⟩
      have ready : AcquireStage.entered.Ready s f := by
        refine ⟨by rw [same.1]; exact ent.captured, fun plain => ?_⟩
        obtain ⟨-, -, room, -⟩ | ⟨_, captured, -⟩ := ent.cases
        · rw [same.2.1, same.2.2]
          exact room
        · cases plain.symm.trans captured
      rcases made : s.acquireInstall f with ⟨_, _⟩
      have move : Move ⟨s, w.calls ++ [.acquire f .entered]⟩ (.resume w.calls.length {}) _ :=
        .advance List.getElem?_concat_length (Sys.acquireInstall_advance ready made)
      simpa using move
    · exact .inl (.enter ent)
  · rw [enter]
    exact .inl (.refuse refused)

lemma step_resume {call env} (st : w.step (.resume call env) = some w') :
    ∃ pc pc', w.calls[call]? = some pc ∧ w.sys.Advance pc w'.sys pc' ∧
      w' = { sys := w'.sys, calls := w.calls.set call pc' } := by
  simp only [step, bind_some] at st
  obtain ⟨pc, hpc, ⟨s, pc'⟩, adv, st⟩ := st
  cases st
  exact ⟨pc, pc', hpc, Sys.advance_advance adv, rfl⟩

lemma step_moves (st : w.step a = some w') :
    w' = w ∨ w.Move a w' ∨
      ∃ f s, w.sys.Enters f w.calls.length s ∧ s.afterEnter f = .entered ∧
        Move { sys := s, calls := w.calls ++ [.acquire f .entered] } (.resume w.calls.length {})
          w' := by
  cases a with
  | declareStream definition =>
    simp only [step] at st
    split at st
    · rename_i log made
      cases st
      refine .inr (.inl (.rewrite ?_ fun H ref => ref.declareStream made))
      obtain rfl | ⟨-, -, rfl⟩ := Log.declareStream_ok made <;> rfl
    · cases st
      exact .inl rfl
  | append clock answer stream request =>
    simp only [step] at st
    split at st
    · rename_i receipt stored log made
      cases st
      obtain ⟨_, _, -, -, -, -, ⟨_, -, same⟩ | ⟨_, _, -, -, -, same⟩⟩ :=
        Log.append_ok made
      · cases same
        simp
      · have ref : ∀ H, w.sys.log.Refines H → log.Refines (H.extend stored) :=
          fun H ref => ref.append made
        cases same
        exact .inr (.inl (.store rfl ref))
    · cases st
      exact .inl rfl
  | trim stream partition beforeOffset =>
    simp only [step] at st
    split at st
    · rename_i n log made
      cases st
      refine .inr (.inl (.rewrite ?_ fun H ref => ref.trim made))
      obtain ⟨_, _, _, -, -, -, -, -, -, rfl⟩ := Log.trim_ok made
      rfl
    · cases st
      exact .inl rfl
  | close =>
    cases st
    exact .inr (.inl .close)
  | acquire =>
    cases st
    exact .inr (acquire_moves ..)
  | nextRecord id =>
    simp only [step, bind_some] at st
    obtain ⟨lease, held, st⟩ := st
    cases st
    exact .inr (.inl (.begin id (lease?_some held).1 (.inl (nextRecord_idle _ _ _))))
  | checkpoint id ref =>
    simp only [step, bind_some] at st
    obtain ⟨lease, held, st⟩ := st
    cases st
    refine .inr (.inl (.begin id (lease?_some held).1 ?_))
    unfold PersistentStreams.checkpoint
    split
    · exact .inr ⟨ref, rfl⟩
    · exact .inl (checkpointRaised_idle _ _ _ _)
  | runOnce id =>
    simp only [step, bind_some] at st
    obtain ⟨lease, held, st⟩ := st
    split at st
    · cases st
      exact .inr (.inl (.begin id (lease?_some held).1 (.inl trivial)))
    · cases st
      exact .inr (.inl (.begin id (lease?_some held).1 (.inl (nextRecord_idle _ _ _))))
  | stop =>
    simp only [step, bind_some] at st
    obtain ⟨lease, held, st⟩ := st
    cases st
    exact .inr (.inl .stop)
  | release =>
    simp only [step, bind_some] at st
    obtain ⟨lease, held, st⟩ := st
    cases st
    exact .inr (.inl (.release (lease?_some held).2))
  | resume =>
    obtain ⟨pc, pc', hpc, adv, same⟩ := step_resume st
    rw [same]
    exact .inr (.inl (.advance hpc adv))
  | cancel =>
    simp only [step, bind_some] at st
    obtain ⟨pc, hpc, _, hc, st⟩ := st
    cases st
    exact .inr (.inl (.cancel hpc hc))

/-- Where a call found at `pc` after a move from `w` by `a` to `w'` was before it. -/
inductive Called (w : World) (a : Action) (w' : World) (i : Nat) : Pc → Prop where
  | kept {pc} : w.calls[i]? = some pc → Called w a w' i pc
  | advanced {env pc pc'} : a = .resume i env → w.calls[i]? = some pc →
    w.sys.Advance pc w'.sys pc' → Called w a w' i pc'
  | cancelled {pc pc'} : w.calls[i]? = some pc → pc.cancel = some pc' → w'.sys = w.sys →
    Called w a w' i pc'
  | refused {e} : i = w.calls.length → Called w a w' i (.finished (.raised e))
  | entered {f} : i = w.calls.length → w.sys.Enters f i w'.sys →
    Called w a w' i (.acquire f (w'.sys.afterEnter f))
  | begun {pc} (id : LeaseId) : i = w.calls.length → w'.sys = w.sys → w.sys.returned id = true →
    (pc.Idle id ∨ ∃ ref, pc = .consume id .application (.checkpointEnter ref)) → Called w a w' i pc

lemma Move.called (move : w.Move a w') {i pc} (h : w'.calls[i]? = some pc) :
    Called w a w' i pc := by
  cases move with
  | refuse =>
    obtain old | ⟨rfl, rfl⟩ := concat_cases h
    · exact .kept old
    · exact .refused rfl
  | enter ent =>
    obtain old | ⟨rfl, rfl⟩ := concat_cases h
    · exact .kept old
    · exact .entered rfl ent
  | begin id returned place =>
    obtain old | ⟨rfl, rfl⟩ := concat_cases h
    · exact .kept old
    · exact .begun id rfl rfl returned place
  | advance hpc adv =>
    obtain ⟨-, old⟩ | ⟨rfl, rfl⟩ := set_cases h
    · exact .kept old
    · exact .advanced rfl hpc adv
  | cancel hpc hc =>
    obtain ⟨-, old⟩ | ⟨rfl, rfl⟩ := set_cases h
    · exact .kept old
    · exact .cancelled hpc hc rfl
  | _ => exact .kept h

lemma Called.acquire {i : Nat} {f} (called : Called w a w' i (.acquire f st)) :
    (∃ st', w.calls[i]? = some (.acquire f st') ∧
        ∀ id since, st = .wait id since → st' = st) ∨
      i = w.calls.length ∧ w.sys.Enters f i w'.sys ∧ st = w'.sys.afterEnter f := by
  cases called with
  | kept h => exact .inl ⟨st, h, fun _ _ _ => rfl⟩
  | advanced _ h adv =>
    obtain ⟨⟨st', rfl⟩, notWait⟩ := adv.acquire rfl
    exact .inl ⟨st', h, fun id since hst => absurd hst (notWait id since)⟩
  | cancelled h hc =>
    obtain ⟨⟨st', rfl⟩, notWait⟩ := Pc.cancel_acquire hc
    exact .inl ⟨st', h, fun id since hst => absurd hst (notWait id since)⟩
  | entered hi ent => exact .inr ⟨hi, ent, rfl⟩
  | begun _ _ _ _ place =>
    obtain idle | ⟨_, h⟩ := place
    · cases idle
    · cases h

lemma Called.consume {i : Nat} {id c st} (called : Called w a w' i (.consume id c st)) :
    w.calls[i]? = some (.consume id c st) ∨
      (∃ c₀ st₀, w.calls[i]? = some (.consume id c₀ st₀) ∧
        w.sys.Consumes id c₀ st₀ w'.sys (.consume id c st)) ∨
      w'.sys = w.sys ∧ w.sys.returned id = true ∧
        ((Pc.consume id c st).Idle id ∨ c = .application ∧ ∃ ref, st = .checkpointEnter ref) := by
  cases called with
  | kept h => exact .inl h
  | advanced _ h adv =>
    obtain ⟨c₀, st₀, rfl, how⟩ := adv.consume rfl
    exact .inr (.inl ⟨c₀, st₀, h, how⟩)
  | @cancelled pc _ h hc =>
    obtain ⟨c₀, st₀, rfl, hi⟩ : ∃ c₀ st₀, pc = .consume id c₀ st₀ ∧
      (Pc.consume id c st).Idle id := by
      cases pc with
      | acquire f st =>
        cases st with
        | init id stage => cases stage <;> cases hc
        | _ => cases hc
      | consume id c st => cases c <;> cases st <;> cases hc <;> exact ⟨_, _, rfl, rfl⟩
      | finished => cases hc
    exact .inr (.inl ⟨c₀, st₀, h, .idle hi⟩)
  | begun id₀ _ same returned place =>
    obtain hi | ⟨ref, hpc⟩ := place
    · have : id = id₀ := by cases st <;> first | exact hi | cases hi
      subst this
      exact .inr (.inr ⟨same, returned, .inl hi⟩)
    · cases hpc
      exact .inr (.inr ⟨same, returned, .inr ⟨rfl, ref, rfl⟩⟩)

/-- What every admitted move keeps holds in every state reached by admitted steps. The condition on
the steps must not forbid an `acquire` to go on when it need not wait. -/
lemma invariant_of_moves {I : World → Prop} {ok : World → Action → Prop} {n}
    (r : Reach World.step ok (start n) w) (init : I (start n))
    (goOn : ∀ {w call env f}, w.calls[call]? = some (.acquire f .entered) → ok w (.resume call env))
    (pres : ∀ {w a w'}, I w → ok w a → w.Move a w' → I w') : I w := by
  refine r.invariant init fun {s a s'} inv hok st => ?_
  obtain rfl | move | ⟨f, _, ent, hst, move⟩ := step_moves st
  · exact inv
  · exact pres inv hok move
  · have first := Move.enter (a := a) ent
    rw [hst] at first
    exact pres (pres inv hok first) (goOn List.getElem?_concat_length) move

end World

end ToriPy.PersistentStreams
