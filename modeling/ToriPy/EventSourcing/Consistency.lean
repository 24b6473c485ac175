import ToriPy.Base.Table
import ToriPy.EventSourcing.Store

/-!
# The three representations agree

`StoreState.Consistent` says what the store keeps three times over: the global list is numbered from
1, every stream is the sublist of its events and is numbered from 1 itself, and the id set has the
ids of all events, each of which occurs once. A commit numbers the staged batches behind the ends of
their streams. That no batch is numbered behind a wrong end follows from two checks: `append` stages
a stream once in a transaction (`Transaction.Staged`), and `_validate_commit` compares the expected
versions with the state that the commit extends, not with the snapshot.

`Db.perform_cases` is the inversion of a call: it commits, or it leaves the store as it is.
-/

namespace ToriPy.EventSourcing

open List

namespace StoreState

/-- The representations agree. -/
structure Consistent (s : StoreState) : Prop where
  positions : Numbered StoredEvent.globalPosition s.events
  streams : ∀ streamId, s.stream streamId = s.events.filter (·.streamId = streamId)
  versions : ∀ streamId, Numbered StoredEvent.streamVersion (s.stream streamId)
  distinct : (s.events.map StoredEvent.eventId).Nodup
  ids : s.eventIds = (s.events.map StoredEvent.eventId).toFinset

lemma Consistent.empty : Consistent {} where
  positions := rfl
  streams := fun _ => rfl
  versions := fun _ => rfl
  distinct := .nil
  ids := rfl

end StoreState

lemma addEventIds_ok {seen seen' events} (h : addEventIds seen events = .ok seen') :
    (events.map AppendEvent.eventId).Nodup ∧ (∀ e ∈ events, e.eventId ∉ seen) ∧
      seen' = seen ∪ (events.map AppendEvent.eventId).toFinset := by
  induction events generalizing seen with
  | nil =>
    cases h
    simp
  | cons event events ih =>
    simp only [addEventIds, bind_ok, require_ok] at h
    obtain ⟨_, fresh, h⟩ := h
    obtain ⟨nodup, unseen, rfl⟩ := ih h
    refine ⟨?_, ?_, ?_⟩
    · rw [map_cons, nodup_cons]
      refine ⟨fun mem => ?_, nodup⟩
      obtain ⟨e, he, same⟩ := mem_map.mp mem
      exact unseen e he (by simp [same])
    · intro e he
      obtain rfl | he := mem_cons.mp he
      · exact fresh
      · exact fun mem => unseen e he (Finset.mem_insert_of_mem mem)
    · rw [map_cons, toFinset_cons, Finset.insert_union, Finset.union_insert]

namespace StoreState

variable {s : StoreState} {seen : Finset UUID} {batches : List StagedAppend}

def stagedEvents (batches : List StagedAppend) : List AppendEvent := batches.flatMap (·.events)

lemma validateCommit_ok {u} (h : s.validateCommit seen batches = .ok u) :
    (∀ batch ∈ batches, (s.stream batch.streamId).length = batch.expectedVersion) ∧
      ((stagedEvents batches).map AppendEvent.eventId).Nodup ∧
      ∀ e ∈ stagedEvents batches, e.eventId ∉ seen := by
  induction batches generalizing seen with
  | nil => exact ⟨nofun, .nil, nofun⟩
  | cons batch batches ih =>
    simp only [validateCommit, bind_ok, require_ok] at h
    obtain ⟨_, version, _, added, h⟩ := h
    obtain ⟨nodup, unseen, rfl⟩ := addEventIds_ok added
    obtain ⟨versions, nodup', unseen'⟩ := ih h
    refine ⟨?_, ?_, ?_⟩
    · intro b hb
      obtain rfl | hb := mem_cons.mp hb
      · exact version
      · exact versions b hb
    · rw [stagedEvents, flatMap_cons, map_append, nodup_append]
      refine ⟨nodup, nodup', ?_⟩
      rintro a ha b hb rfl
      obtain ⟨e, he, same⟩ := mem_map.mp hb
      exact unseen' e he (Finset.mem_union_right _ (mem_toFinset.mpr (same ▸ ha)))
    · intro e he
      rw [stagedEvents, flatMap_cons, mem_append] at he
      obtain he | he := he
      · exact unseen e he
      · exact fun mem => unseen' e he (Finset.mem_union_left _ mem)

section
variable (streamId : StreamId) (version globalPosition : Nat) (events : List AppendEvent)

@[simp] lemma numberBatch_event :
    (numberBatch streamId version globalPosition events).map StoredEvent.event = events := by
  induction events generalizing version globalPosition with
  | nil => rfl
  | cons event events ih => rw [numberBatch, map_cons, ih]

@[simp] lemma numberBatch_length :
    (numberBatch streamId version globalPosition events).length = events.length := by
  rw [← length_map StoredEvent.event, numberBatch_event]

lemma numberBatch_streamId :
    ∀ e ∈ numberBatch streamId version globalPosition events, e.streamId = streamId := by
  induction events generalizing version globalPosition with
  | nil => exact nofun
  | cons event events ih =>
    intro e he
    obtain rfl | he := mem_cons.mp he
    · rfl
    · exact ih _ _ e he

lemma numberBatch_position :
    (numberBatch streamId version globalPosition events).map StoredEvent.globalPosition =
      List.range' (globalPosition + 1) events.length := by
  induction events generalizing version globalPosition with
  | nil => rfl
  | cons event events ih => rw [numberBatch, map_cons, ih, length_cons, List.range'_succ]

lemma numberBatch_version :
    (numberBatch streamId version globalPosition events).map StoredEvent.streamVersion =
      List.range' (version + 1) events.length := by
  induction events generalizing version globalPosition with
  | nil => rfl
  | cons event events ih => rw [numberBatch, map_cons, ih, length_cons, List.range'_succ]

end

lemma numberBatches_order (globalPosition : Nat) (batches : List StagedAppend) :
    (numberBatches globalPosition batches).map (fun e => (e.streamId, e.event)) =
      batches.flatMap fun batch => batch.events.map (batch.streamId, ·) := by
  induction batches generalizing globalPosition with
  | nil => rfl
  | cons batch batches ih =>
    rw [numberBatches, map_append, ih, flatMap_cons]
    congr 1
    conv_rhs => rw [← numberBatch_event batch.streamId batch.expectedVersion globalPosition
      batch.events, map_map]
    refine map_congr_left fun e he => ?_
    rw [numberBatch_streamId _ _ _ _ e he]
    rfl

lemma numberBatches_event (globalPosition : Nat) (batches : List StagedAppend) :
    (numberBatches globalPosition batches).map StoredEvent.event = stagedEvents batches := by
  have order := congrArg (List.map Prod.snd) (numberBatches_order globalPosition batches)
  rw [map_map, map_flatMap] at order
  simpa [stagedEvents, Function.comp_def] using order

lemma numberBatches_position (globalPosition : Nat) (batches : List StagedAppend) :
    (numberBatches globalPosition batches).map StoredEvent.globalPosition =
      List.range' (globalPosition + 1) (numberBatches globalPosition batches).length := by
  induction batches generalizing globalPosition with
  | nil => rfl
  | cons batch batches ih =>
    rw [numberBatches, map_append, ih, numberBatch_position, length_append, numberBatch_length,
      Nat.add_right_comm, List.range'_append_1]

lemma numberBatches_version (globalPosition : Nat) {batches}
    (nodup : (batches.map (·.streamId)).Nodup) (streamId : StreamId) (version : Nat)
    (expected : ∀ batch ∈ batches, batch.streamId = streamId → batch.expectedVersion = version) :
    ((numberBatches globalPosition batches).filter (·.streamId = streamId)).map
        StoredEvent.streamVersion =
      List.range' (version + 1)
        ((numberBatches globalPosition batches).filter (·.streamId = streamId)).length := by
  induction batches generalizing globalPosition with
  | nil => rfl
  | cons batch batches ih =>
    obtain ⟨other, nodup⟩ := nodup_cons.mp nodup
    have rest := ih (globalPosition + batch.events.length) nodup
      fun b hb => expected b (mem_cons_of_mem _ hb)
    rw [numberBatches, filter_append]
    by_cases same : batch.streamId = streamId
    · -- no later batch is for this stream
      have none : (numberBatches (globalPosition + batch.events.length) batches).filter
          (·.streamId = streamId) = [] := by
        refine filter_eq_nil_iff.mpr fun e he => ?_
        rw [decide_eq_true_eq]
        rintro rfl
        have mem := mem_map_of_mem (f := fun e : StoredEvent => (e.streamId, e.event)) he
        rw [numberBatches_order, mem_flatMap] at mem
        obtain ⟨b, hb, mem⟩ := mem
        obtain ⟨_, -, pair⟩ := mem_map.mp mem
        exact other (mem_map.mpr ⟨b, hb, (congrArg Prod.fst pair).trans same.symm⟩)
      have all : (numberBatch batch.streamId batch.expectedVersion globalPosition
          batch.events).filter (·.streamId = streamId) =
            numberBatch batch.streamId batch.expectedVersion globalPosition batch.events := by
        refine filter_eq_self.mpr fun e he => ?_
        rw [numberBatch_streamId _ _ _ _ e he]
        exact decide_eq_true same
      rw [none, all, append_nil, numberBatch_version, numberBatch_length,
        expected batch mem_cons_self same]
    · have none : (numberBatch batch.streamId batch.expectedVersion globalPosition
          batch.events).filter (·.streamId = streamId) = [] := by
        refine filter_eq_nil_iff.mpr fun e he => ?_
        rw [numberBatch_streamId _ _ _ _ e he, decide_eq_true_eq]
        exact same
      rw [none, nil_append]
      exact rest

@[simp] lemma withCommitted_stream (s : StoreState) (committed : List StoredEvent)
    (streamId : StreamId) :
    (s.withCommitted committed).stream streamId =
      s.stream streamId ++ committed.filter (·.streamId = streamId) := by
  have group := Dict.lookup_group StoredEvent.streamId committed streamId
  simp only [stream, withCommitted, Dict.lookup_mergeWith]
  cases h : (Dict.group StoredEvent.streamId committed).lookup streamId with
  | none | some =>
    rw [h] at group
    simp [← group]

end StoreState

/-- The staged batches are for different streams. -/
structure Transaction.Staged (tx : Transaction) : Prop where
  streams : tx.stagedStreams = (tx.staged.map (·.streamId)).toFinset
  nodup : (tx.staged.map (·.streamId)).Nodup

variable {limits : EventSourcingLimits} {tx tx' : Transaction}

lemma Transaction.Staged.empty (h : tx.staged = []) (h' : tx.stagedStreams = ∅) : tx.Staged := by
  refine ⟨?_, ?_⟩
  · rw [h, h']
    rfl
  · rw [h]
    exact .nil

lemma Transaction.append_ok {streamId expectedVersion batch}
    (h : tx.append limits streamId expectedVersion batch = .ok tx') :
    tx.state = .active ∧ 0 ≤ expectedVersion ∧ streamId ∉ tx.stagedStreams ∧ batch ≠ [] ∧
      tx'.state = .active ∧ tx'.snapshot = tx.snapshot ∧
      tx'.staged = tx.staged ++ [⟨streamId, expectedVersion.toNat, batch⟩] ∧
      tx'.stagedStreams = insert streamId tx.stagedStreams := by
  simp only [append, requireActive, position, bind_ok, require_ok] at h
  obtain ⟨_, active, _, ⟨_, pos, made⟩, _, fresh, _, nonempty, _, -, _, -, _, -, _, -,
    _, -, h⟩ := h
  cases made
  cases h
  exact ⟨active, pos, fresh, nonempty, active, rfl, rfl, rfl⟩

lemma Transaction.Staged.append {streamId expectedVersion batch} (staged : tx.Staged)
    (h : tx.append limits streamId expectedVersion batch = .ok tx') : tx'.Staged := by
  obtain ⟨-, -, fresh, -, -, -, same, streams⟩ := Transaction.append_ok h
  rw [staged.streams, mem_toFinset] at fresh
  refine ⟨?_, ?_⟩
  · rw [same, streams, staged.streams, map_append, toFinset_append]
    exact (Finset.union_singleton _ _).symm
  rw [same, map_append]
  refine staged.nodup.append (nodup_singleton _) ?_
  intro id mem mem'
  rw [map_singleton, mem_singleton] at mem'
  cases mem'
  exact fresh mem

/-- What a commit that returns adds to the store. -/
structure Commits (s : StoreState) (batches : List StagedAppend) (result : CommitResult)
    (s' : StoreState) : Prop where
  events : s'.events = s.events ++ result.events
  streams : ∀ streamId, s'.stream streamId =
    s.stream streamId ++ result.events.filter (·.streamId = streamId)
  order : result.events.map (fun e => (e.streamId, e.event)) =
    batches.flatMap fun batch => batch.events.map (batch.streamId, ·)

lemma Transaction.commitLocked_ok {s s' result}
    (h : tx.commitLocked s = .ok (result, s')) : Commits s tx.staged result s' := by
  simp only [commitLocked, bind_ok] at h
  obtain ⟨_, -, h⟩ := h
  cases h
  exact ⟨rfl, StoreState.withCommitted_stream s _, StoreState.numberBatches_order _ _⟩

lemma StoreState.Consistent.commit {s s' result} (con : s.Consistent) (staged : tx.Staged)
    (h : tx.commitLocked s = .ok (result, s')) : s'.Consistent := by
  simp only [Transaction.commitLocked, bind_ok] at h
  obtain ⟨_, valid, h⟩ := h
  cases h
  obtain ⟨versions, nodup, fresh⟩ := validateCommit_ok valid
  have ids : (numberBatches s.events.length tx.staged).map StoredEvent.eventId =
      (stagedEvents tx.staged).map AppendEvent.eventId := by
    rw [← numberBatches_event s.events.length, map_map]
    rfl
  constructor
  · exact con.positions.append (numberBatches_position _ _)
  · intro streamId
    rw [withCommitted_stream, con.streams]
    exact (filter_append ..).symm
  · intro streamId
    rw [withCommitted_stream]
    refine (con.versions streamId).append (numberBatches_version _ staged.nodup streamId _ ?_)
    rintro batch hb rfl
    exact (versions batch hb).symm
  · rw [withCommitted, map_append, nodup_append, ids]
    refine ⟨con.distinct, nodup, ?_⟩
    rintro a ha b hb rfl
    obtain ⟨e, he, rfl⟩ := mem_map.mp hb
    exact fresh e he (by rw [con.ids]; exact mem_toFinset.mpr ha)
  · simp only [withCommitted, con.ids, map_append, toFinset_append]

/-- How a call changes a transaction. -/
inductive Transaction.Changes (limits : EventSourcingLimits) (s : StoreState) (tx : Transaction) :
    Transaction → Prop where
  | kept {state} : Changes limits s tx { tx with state := state }
  | entered : Changes limits s tx { tx with state := .active, snapshot := s.streams }
  | staged {streamId expectedVersion batch tx'} :
    tx.append limits streamId expectedVersion batch = .ok tx' → Changes limits s tx tx'
  | cleared {state} : Changes limits s tx { tx.clearStaged with state := state }

lemma Transaction.Changes.same {s} (tx : Transaction) :
    tx.Changes limits s tx := @Changes.kept limits s tx tx.state

lemma Transaction.Staged.change {s} (staged : tx.Staged)
    (change : tx.Changes limits s tx') : tx'.Staged := by
  cases change with
  | kept | entered => exact ⟨staged.streams, staged.nodup⟩
  | staged h => exact staged.append h
  | cleared => exact .empty rfl rfl

lemma Transaction.Changes.snapshot {s} (change : tx.Changes limits s tx') :
    tx'.snapshot = tx.snapshot ∨ tx'.snapshot = s.streams := by
  cases change with
  | kept | cleared => exact .inl rfl
  | entered => exact .inr rfl
  | staged h =>
    obtain ⟨-, -, -, -, -, same, -⟩ := Transaction.append_ok h
    exact .inl same

lemma Transaction.rollback_ok {s} (h : tx.rollback = .ok tx') : tx.Changes limits s tx' := by
  unfold rollback at h
  split at h
  · cases h
    exact .same tx
  · simp only [bind_ok, require_ok] at h
    obtain ⟨_, -, h⟩ := h
    cases h
    exact .cleared

namespace Db

variable {db db' : Db} {a : DbAction} {reply : DbReply}

/-- What a call did. -/
structure Performed (db : Db) (a : DbAction) (reply : DbReply) (db' : Db) : Prop where
  limits : db'.limits = db.limits
  state : db'.state = db.state ∧ (∀ result, reply ≠ .committed result) ∨
    ∃ t tx result, a = .proceed t ∧ db.transactions[t]? = some tx ∧ tx.state = .committing ∧
      tx.commitLocked db.state = .ok (result, db'.state) ∧ reply = .committed result
  transactions : ∀ {i : Nat} {tx' : Transaction}, db'.transactions[i]? = some tx' →
    (∃ tx, db.transactions[i]? = some tx ∧ tx.Changes db.limits db.state tx') ∨ tx' = {}

variable {tx : Transaction}

lemma set_transactions {s} {t i : Nat} {new tx'} (old : db.transactions[t]? = some tx)
    (change : tx.Changes db.limits db.state new)
    (h : ({ db with state := s }.set t new).transactions[i]? = some tx') :
    (∃ tx, db.transactions[i]? = some tx ∧ tx.Changes db.limits db.state tx') ∨ tx' = {} := by
  obtain ⟨-, same⟩ | ⟨rfl, rfl⟩ := set_cases h
  · exact .inl ⟨tx', same, .same tx'⟩
  · exact .inl ⟨tx, old, change⟩

lemma Performed.unchanged (quiet : ∀ result, reply ≠ .committed result) :
    Performed db a reply db where
  limits := rfl
  state := .inl ⟨rfl, quiet⟩
  transactions := fun h => .inl ⟨_, h, .same _⟩

lemma Performed.set {t : Nat} {new} (old : db.transactions[t]? = some tx)
    (change : tx.Changes db.limits db.state new) (quiet : ∀ result, reply ≠ .committed result) :
    Performed db a reply (db.set t new) where
  limits := rfl
  state := .inl ⟨rfl, quiet⟩
  transactions := set_transactions old change

lemma Performed.update {t done made} (h : db.update t done made = (reply, db'))
    (old : db.transactions[t]? = some tx)
    (change : ∀ new, made = .ok new → tx.Changes db.limits db.state new)
    (quiet : ∀ result, done ≠ .committed result) : Performed db a reply db' := by
  cases made with
  | error => cases h; exact .unchanged nofun
  | ok new => cases h; exact .set old (change new rfl) quiet

lemma ofPage_ne (page : Except EventSourcingError (List StoredEvent)) (result : CommitResult) :
    DbReply.ofPage page ≠ .committed result := by
  cases page <;> exact nofun

lemma perform_cases (h : db.perform a = some (reply, db')) : Performed db a reply db' := by
  cases a with
  | readStream | readAll => cases h; exact .unchanged (ofPage_ne _)
  | transaction =>
    cases h
    refine ⟨rfl, .inl ⟨rfl, fun _ h => by cases h⟩, fun {i tx'} h => ?_⟩
    obtain old | ⟨-, rfl⟩ := concat_cases h
    · exact .inl ⟨tx', old, .same tx'⟩
    · exact .inr rfl
  | enter =>
    simp only [perform, bind_some] at h
    obtain ⟨tx, old, h⟩ := h
    refine .update (Option.some.inj h) old (fun new made => ?_) fun _ h => by cases h
    simp only [Transaction.enter, bind_ok] at made
    obtain ⟨_, -, made⟩ := made
    cases made
    exact .kept
  | read =>
    simp only [perform, bind_some] at h
    obtain ⟨tx, old, h⟩ := h
    cases h
    exact .unchanged (ofPage_ne _)
  | append =>
    simp only [perform, bind_some] at h
    obtain ⟨tx, old, h⟩ := h
    exact .update (Option.some.inj h) old (fun new made => .staged made) fun _ h => by cases h
  | commit =>
    simp only [perform, bind_some] at h
    obtain ⟨tx, old, h⟩ := h
    refine .update (Option.some.inj h) old (fun new made => ?_) fun _ h => by cases h
    simp only [Transaction.commit, bind_ok] at made
    obtain ⟨_, -, made⟩ := made
    cases made
    exact .kept
  | rollback =>
    simp only [perform, bind_some] at h
    obtain ⟨tx, old, h⟩ := h
    exact .update (Option.some.inj h) old (fun new made => Transaction.rollback_ok made) fun _ h => by cases h
  | exit =>
    simp only [perform, bind_some] at h
    obtain ⟨tx, old, h⟩ := h
    refine .update (Option.some.inj h) old (fun new made => ?_) fun _ h => by cases h
    unfold Transaction.exit at made
    split at made
    · exact Transaction.rollback_ok made
    · cases made
      exact .same tx
  | proceed t =>
    simp only [perform, bind_some] at h
    obtain ⟨tx, old, h⟩ := h
    unfold proceed at h
    split at h
    · cases h
      exact .set old .entered fun _ h => by cases h
    · rename_i committing
      split at h
      · rename_i result state made
        cases h
        exact ⟨rfl, .inr ⟨t, tx, result, rfl, old, committing, made, rfl⟩,
          set_transactions old .cleared⟩
      · cases h
        exact .set old .cleared fun _ h => by cases h
    · cases h
  | cancel =>
    simp only [perform, bind_some] at h
    obtain ⟨_, old, h⟩ := h
    unfold cancel at h
    split at h
    · cases h
      exact .set old .kept fun _ h => by cases h
    · cases h
      exact .set old .cleared fun _ h => by cases h
    · cases h

/-- The store agrees with itself, no transaction stages a stream twice, and every snapshot is an
earlier state of the streams. -/
structure Consistent (db : Db) : Prop where
  state : db.state.Consistent
  staged : ∀ {t : Nat} {tx : Transaction}, db.transactions[t]? = some tx → tx.Staged
  snapshot : ∀ {t : Nat} {tx : Transaction} (streamId : StreamId),
    db.transactions[t]? = some tx → tx.stream streamId <+: db.state.stream streamId

lemma Consistent.start (limits : EventSourcingLimits) : (start limits).Consistent :=
  ⟨.empty, nofun, nofun⟩

lemma Performed.stream_grows (step : Performed db a reply db') (streamId : StreamId) :
    db.state.stream streamId <+: db'.state.stream streamId := by
  obtain ⟨same, -⟩ | ⟨t, _, _, -, -, -, made, -⟩ := step.state
  · rw [same]
  · rw [(Transaction.commitLocked_ok made).streams]
    exact prefix_append ..

lemma Consistent.performed (con : db.Consistent) (step : Performed db a reply db') :
    db'.Consistent where
  state := by
    obtain ⟨same, -⟩ | ⟨t, tx, _, -, old, -, made, -⟩ := step.state
    · rw [same]
      exact con.state
    · exact con.state.commit (con.staged old) made
  staged := by
    intro t tx' h
    obtain ⟨tx, old, change⟩ | rfl := step.transactions h
    · exact (con.staged old).change change
    · exact .empty rfl rfl
  snapshot := by
    intro t tx' streamId h
    refine List.IsPrefix.trans ?_ (step.stream_grows streamId)
    obtain ⟨_, old, change⟩ | rfl := step.transactions h
    · obtain same | same := change.snapshot
      · rw [Transaction.stream, same]
        exact con.snapshot streamId old
      · rw [Transaction.stream, same]
        exact prefix_rfl
    · exact nil_prefix

lemma consistent_of_reachable {limits}
    (r : Reachable Db.step (start limits) db) : db.Consistent ∧ db.limits = limits := by
  refine Reach.invariant (I := fun db => db.Consistent ∧ db.limits = limits) r ⟨.start limits, rfl⟩
    fun {db a db'} con _ st => ?_
  obtain ⟨⟨_, _⟩, performed, rfl⟩ := Option.map_eq_some_iff.mp st
  have step := perform_cases performed
  exact ⟨con.1.performed step, step.limits.trans con.2⟩

end Db

lemma position_natCast (value : Nat) (fieldName : String) :
    position value fieldName = .ok value := by
  simp [position, require]

lemma pageLimit_natCast {limit : Nat} {maximum : ℕ+} (pos : 0 < limit) (le : limit ≤ maximum) :
    pageLimit limit maximum = .ok limit := by
  have h : (1 : Int) ≤ limit := by omega
  have h' : (limit : Int) ≤ (maximum : Nat) := by omega
  simp only [pageLimit, require, if_pos h, if_pos h', ok_bind]
  rfl

/-- In every state that transactions reach in any interleaving, the store is consistent; a call that
commits appends the staged batches in their order and nothing else, every other call leaves the
store as it is; and reading page by page, from the store or from the snapshot of an active
transaction, yields exactly the events behind the start. -/
theorem event_store_consistent {limits : EventSourcingLimits} {db : Db}
    (r : Reachable Db.step (Db.start limits) db) :
    db.state.Consistent ∧
    (∀ a reply db', db.perform a = some (reply, db') →
      (∀ result, reply = .committed result →
        ∃ t tx, a = .proceed t ∧ db.transactions[t]? = some tx ∧
          db'.state.events = db.state.events ++ result.events ∧
          result.events.map (fun e => (e.streamId, e.event)) =
            tx.staged.flatMap fun batch => batch.events.map (batch.streamId, ·)) ∧
      ((∀ result, reply ≠ .committed result) → db'.state = db.state)) ∧
    ∀ limit : Nat, 0 < limit → limit ≤ limits.readPageSize →
      (∀ after fuel, db.state.events.length < fuel →
        pages (fun after => db.readAll after limit) StoredEvent.globalPosition fuel after =
          some (.ok (db.state.events.filter (after < ·.globalPosition)))) ∧
      (∀ streamId after fuel, (db.state.stream streamId).length < fuel →
        pages (fun after => db.readStream streamId after limit) StoredEvent.streamVersion fuel after
          = some (.ok (db.state.events.filter fun e =>
            e.streamId = streamId ∧ after < e.streamVersion))) ∧
      ∀ (t : Nat) (tx : Transaction) streamId after fuel,
        db.transactions[t]? = some tx → tx.state = .active →
        (tx.stream streamId).length < fuel →
        tx.stream streamId <+: db.state.stream streamId ∧
          pages (fun after => tx.readStream limits streamId after limit) StoredEvent.streamVersion
            fuel after = some (.ok ((tx.stream streamId).filter (after < ·.streamVersion))) := by
  obtain ⟨con, rfl⟩ := Db.consistent_of_reachable r
  refine ⟨con.state, ?_, fun limit pos le => ⟨?_, ?_, ?_⟩⟩
  · intro a reply db' performed
    obtain ⟨same, quiet⟩ | ⟨t, tx, result, rfl, old, -, made, rfl⟩ :=
      (Db.perform_cases performed).state
    · exact ⟨fun result h => absurd h (quiet result), fun _ => same⟩
    · have commits := Transaction.commitLocked_ok made
      refine ⟨fun result' h => ?_, fun quiet => absurd rfl (quiet result)⟩
      cases h
      exact ⟨t, tx, rfl, old, commits.events, commits.order⟩
  · intro after fuel hfuel
    rw [← con.state.positions.drop_eq]
    refine pages_numbered pos con.state.positions (fun start => ?_) hfuel
    rw [Db.readAll, position_natCast, pageLimit_natCast pos le]
    rfl
  · intro streamId after fuel hfuel
    have versions := con.state.versions streamId
    have tail : db.state.events.filter (fun e => e.streamId = streamId ∧ after < e.streamVersion) =
        (db.state.stream streamId).drop after := by
      rw [versions.drop_eq, con.state.streams, filter_filter]
      refine filter_congr fun e _ => ?_
      rw [Bool.and_comm, Bool.decide_and]
    rw [tail]
    refine pages_numbered pos versions (fun start => ?_) hfuel
    rw [Db.readStream, position_natCast, pageLimit_natCast pos le]
    rfl
  · intro t tx streamId after fuel old active hfuel
    have earlier := con.snapshot streamId old
    have versions : Numbered StoredEvent.streamVersion (tx.stream streamId) :=
      (con.state.versions streamId).of_isPrefix earlier
    refine ⟨earlier, ?_⟩
    rw [← versions.drop_eq]
    refine pages_numbered pos versions (fun start => ?_) hfuel
    rw [Transaction.readStream, Transaction.requireActive, require, if_pos active, position_natCast,
      pageLimit_natCast pos le]
    rfl

def openedEvent (eventId : UUID) : AppendEvent :=
  ⟨⟨"account.opened", 1, [1]⟩, { eventId := eventId, occurredAt := 0 }⟩

/-- Two transactions stage the same stream from the same version; the first commits two streams, the
second is refused. -/
def conflictingRun : List DbAction :=
  [.transaction, .enter 0, .proceed 0, .transaction, .enter 1, .proceed 1,
    .append 0 ⟨"account", "a"⟩ 0 [openedEvent 1, openedEvent 2],
    .append 0 ⟨"account", "b"⟩ 0 [openedEvent 3],
    .append 1 ⟨"account", "a"⟩ 0 [openedEvent 4],
    .commit 0, .commit 1, .proceed 0, .proceed 1]

theorem event_store_consistent_conflicting :
    ∃ db, exec Db.step (Db.start {}) conflictingRun = some db ∧
      db.state.events.map (fun e => (e.streamId.key, e.streamVersion, e.globalPosition)) =
        [("a", 1, 1), ("a", 2, 2), ("b", 1, 3)] ∧
      db.state.Consistent := by
  obtain ⟨db, hdb⟩ : ∃ db, exec Db.step (Db.start {}) conflictingRun = some db := ⟨_, rfl⟩
  have events : (exec Db.step (Db.start {}) conflictingRun).map (fun db => db.state.events.map
      fun e => (e.streamId.key, e.streamVersion, e.globalPosition)) =
      some [("a", 1, 1), ("a", 2, 2), ("b", 1, 3)] := rfl
  rw [hdb] at events
  exact ⟨db, hdb, Option.some.inj events, (event_store_consistent (Reach.of_exec .refl hdb)).1⟩

end ToriPy.EventSourcing
