import ToriPy.EventSourcing.Sessions
import ToriPy.EventSourcing.System

/-!
# The moves of the system

`System.Move` says what a step can do to the system, without the code: the store goes on, aggregates
come or change on their own, a unit of work acts on what it has enlisted, stages an aggregate, waits
for a commit with everything prepared, or commits. `step_moves` is the inversion of a step, and the
invariants are checked on the moves.

The inversion uses some of the invariants itself, which `System.Sound` collects: that the loop that
marks the aggregates does not raise holds because they stay prepared while the commit waits.
-/

namespace ToriPy.EventSourcing

open List

variable {app : App} {schemas : EventSchemaRegistry app} {u : Nat} {streamId : StreamId}

/-- The plans of a unit of work are for different aggregates and different streams; they hold the
encoded pending events; and an aggregate that is still enlisted is enlisted for the stream of its
plan. -/
structure UnitOfWork.Planned (schemas : EventSchemaRegistry app) (u : Nat)
    (aggregates : List (Aggregate app)) (uow : UnitOfWork app) : Prop where
  aggregateSet : uow.aggregates = (uow.plans.map (·.aggregate)).toFinset
  streamSet : uow.streams = (uow.plans.map (·.streamId)).toFinset
  nodup : (uow.plans.map (·.aggregate)).Nodup
  nodupStreams : (uow.plans.map (·.streamId)).Nodup
  encoded : ∀ plan ∈ uow.plans, plan.pending ≠ [] ∧
    plan.pending.mapM schemas.encode = .ok plan.appendEvents
  enlisted : ∀ plan ∈ uow.plans, ∃ agg, aggregates[plan.aggregate]? = some agg ∧
    ∀ e, agg.enlistment = some e → e.owner = u → e.streamId = plan.streamId

/-- While a commit waits, the aggregates of all plans are prepared for it. -/
structure UnitOfWork.Held (u : Nat) (aggregates : List (Aggregate app)) (uow : UnitOfWork app)
    (prepared : List (CommitPlan app × PreparedCommit app)) : Prop where
  prepared : prepared = uow.plans.map (CommitPlan.withTransition u)
  ready : ∀ plan ∈ uow.plans, ∃ agg, aggregates[plan.aggregate]? = some agg ∧ plan.Ready u agg

def CommitPlan.Apart (plan plan' : CommitPlan app) : Prop :=
  plan.streamId = plan'.streamId →
    plan.finalVersion ≤ plan'.expectedVersion ∨ plan'.finalVersion ≤ plan.expectedVersion

/-- The invariants of the system. -/
structure System.Sound (schemas : EventSchemaRegistry app) (w : System app) : Prop where
  db : w.db.Consistent
  aggregates : ∀ {a : Nat} {agg : Aggregate app}, w.aggregates[a]? = some agg →
    agg.Sound schemas w.db.state
  planned : ∀ {u : Nat} {uow : UnitOfWork app}, w.uows[u]? = some uow →
    uow.Planned schemas u w.aggregates
  waiting : ∀ {u : Nat} {uow : UnitOfWork app}, w.uows[u]? = some uow → uow.suspended ≠ none →
    uow.state = .entering ∨ uow.state = .committing
  held : ∀ {u : Nat} {uow : UnitOfWork app} {t : Nat}
    {prepared : List (CommitPlan app × PreparedCommit app)}, w.uows[u]? = some uow →
    uow.suspended = some (.commit t prepared) → uow.Held u w.aggregates prepared
  stored : ∀ {u : Nat} {uow : UnitOfWork app}, w.uows[u]? = some uow → uow.state = .committed →
    ∀ plan ∈ uow.plans, plan.finalVersion ≤ (w.db.state.stream plan.streamId).length
  exclusive : ∀ {u u' : Nat} {uow uow' : UnitOfWork app}, w.uows[u]? = some uow →
    w.uows[u']? = some uow' → u ≠ u' → uow.state = .committed → uow'.state = .committed →
    ∀ plan ∈ uow.plans, ∀ plan' ∈ uow'.plans, plan.Apart plan'

/-- The store after some calls. -/
structure Db.Next (db db' : Db) : Prop where
  consistent : db.Consistent → db'.Consistent
  grows : db.state.Grows db'.state

namespace Db

variable {db db' : Db} {a : DbAction} {reply : DbReply}

lemma Next.refl (db : Db) : db.Next db := ⟨fun h => h, fun _ => prefix_rfl⟩

lemma Next.trans {db''} (h : db.Next db') (h' : db'.Next db'') : db.Next db'' :=
  ⟨fun con => h'.consistent (h.consistent con),
    fun streamId => (h.grows streamId).trans (h'.grows streamId)⟩

lemma next_of_perform (h : db.perform a = some (reply, db')) : db.Next db' :=
  ⟨fun con => con.performed (perform_cases h), (perform_cases h).stream_grows⟩

lemma next_call (db : Db) (a : DbAction) : db.Next (db.call a).2 := by
  unfold call
  split
  · exact .refl db
  · rename_i h
    exact next_of_perform h

lemma Consistent.place (con : db.Consistent) {stored} (mem : stored ∈ db.state.stream streamId) :
    ∃ i, stored.streamVersion = i + 1 ∧ (db.state.stream stored.streamId)[i]? = some stored := by
  have ofStream : stored.streamId = streamId := by
    rw [con.state.streams, mem_filter] at mem
    exact of_decide_eq_true mem.2
  obtain ⟨i, lt, rfl⟩ := getElem_of_mem mem
  refine ⟨i, (con.state.versions streamId).getElem lt, ?_⟩
  rw [ofStream]
  exact getElem?_eq_getElem lt

lemma Consistent.genuine (con : db.Consistent) {stored record}
    (mem : stored ∈ db.state.stream streamId)
    (decoded : schemas.decode stored = .ok record) : record.Genuine schemas db.state := by
  obtain ⟨i, version, found⟩ := con.place mem
  obtain ⟨sameStream, sameVersion⟩ := EventSchemaRegistry.decode_ok decoded
  refine ⟨i, stored, sameVersion.trans version, ?_, decoded⟩
  rw [sameStream]
  exact found

end Db

namespace System

variable {w w' : System app} {uow : UnitOfWork app} {pageSize fuel after : Nat}

lemma readPage_ok (con : w.db.Consistent) {pageSize after page}
    (h : w.readPage uow streamId pageSize after = .ok page) :
    ∀ stored ∈ page, stored ∈ w.db.state.stream streamId ∧ after < stored.streamVersion := by
  simp only [readPage, bind_ok] at h
  obtain ⟨t, -, h⟩ := h
  split at h
  · cases h
  rename_i tx now
  simp only [Transaction.readStream, position_natCast, bind_ok, Except.ok.injEq] at h
  obtain ⟨_, -, _, rfl, _, -, h⟩ := h
  cases h
  intro stored mem
  have behind := mem_of_mem_take mem
  have old := con.snapshot streamId now
  refine ⟨old.subset (mem_of_mem_drop behind), ?_⟩
  rw [((con.state.versions streamId).of_isPrefix old).drop_eq, mem_filter] at behind
  exact of_decide_eq_true behind.2

lemma replayPages_keeps (con : w.db.Consistent) {found} :
    Keeps (fun agg => agg.Sound schemas w.db.state ∧ agg.enlistment = none)
      (Repository.replayPages schemas (w.readPage uow streamId pageSize) fuel after found) := by
  induction fuel generalizing after found with
  | zero => exact .pure _
  | succ fuel ih =>
    refine Keeps.bind_check fun page read => ?_
    cases page.getLast? with
    | none => exact .pure _
    | some =>
      refine Keeps.bind_check fun recorded decoded => ?_
      refine .bind (Aggregate.replay_keeps fun record mem => ?_) fun _ => ih
      obtain ⟨stored, hs, decodes⟩ := mem_of_mapM_ok decoded record mem
      exact con.genuine (readPage_ok con read stored hs).1 decodes

/-- A commit of the unit of work `u`: its plans are appended and its aggregates advance. -/
structure Committed (u : Nat) (uow : UnitOfWork app) (result : CommitResult) (w w' : System app) :
    Prop where
  next : w.db.Next w'.db
  stored : ∀ streamId, w'.db.state.stream streamId =
    w.db.state.stream streamId ++ result.events.filter (·.streamId = streamId)
  valid : result.events.map (fun e => (e.streamId, e.streamVersion, e.event)) =
    uow.plans.flatMap CommitPlan.expected
  uows : ∃ uow', w'.uows = w.uows.set u uow' ∧ uow'.plans = uow.plans ∧
    uow'.aggregates = uow.aggregates ∧ uow'.streams = uow.streams ∧ uow'.state = .committed ∧
    uow'.suspended = none
  marked : ∀ plan ∈ uow.plans, ∃ agg, w.aggregates[plan.aggregate]? = some agg ∧ plan.Ready u agg ∧
    w'.aggregates[plan.aggregate]? = some (agg.committedAt plan.finalVersion)
  others : ∀ a : Nat, a ∉ uow.plans.map (·.aggregate) → w'.aggregates[a]? = w.aggregates[a]?

/-- What a step does. -/
inductive Move (schemas : EventSchemaRegistry app) (w : System app) : System app → Prop where
  | store {db} : w.db.Next db → Move schemas w { w with db := db }
  | added {agg} :
    agg.Sound schemas w.db.state →
    agg.enlistment = none →
    Move schemas w { w with aggregates := w.aggregates ++ [agg] }
  | unitOfWork : Move schemas w { w with uows := w.uows ++ [{}] }
  | changed {a agg agg'} :
    w.aggregates[a]? = some agg →
    (∀ u, agg.Follows schemas u agg') →
    Move schemas w { w with aggregates := w.aggregates.set a agg' }
  | acts {u uow db state suspended s} :
    w.uows[u]? = some uow →
    uow.state ≠ .committed →
    w.db.Next db →
    Session.Evolves schemas u
      ⟨{ uow with state := state, suspended := suspended }, w.aggregates⟩ s →
    state ≠ .committed →
    suspended = none ∨ (∃ t, suspended = some (.enter t)) ∧ s.uow.state = .entering →
    Move schemas w (w.put u db s)
  | staged {u uow db a streamId agg agg' appendEvents} :
    w.uows[u]? = some uow →
    uow.state = .active →
    w.db.Next db →
    w.aggregates[a]? = some agg →
    a ∉ uow.aggregates →
    streamId ∉ uow.streams →
    agg.enlist u streamId agg.pendingEvents = .ok agg' →
    agg.pendingEvents.mapM schemas.encode = .ok appendEvents →
    Move schemas w (w.put u db ⟨{ uow with
      plans := uow.plans ++ [⟨a, streamId, agg.version, agg.pendingEvents, appendEvents⟩]
      aggregates := insert a uow.aggregates
      streams := insert streamId uow.streams }, w.aggregates.set a agg'⟩)
  | waits {u uow db s t prepared} :
    w.uows[u]? = some uow →
    uow.state = .active →
    w.db.Next db →
    Session.Evolves schemas u ⟨uow, w.aggregates⟩ s →
    s.uow.state = .committing →
    uow.Held u s.aggregates prepared →
    Move schemas w
      (w.put u db { s with uow := { s.uow with suspended := some (.commit t prepared) } })
  | committed {u uow result w'} :
    w.uows[u]? = some uow →
    uow.suspended ≠ none →
    Committed u uow result w w' →
    Move schemas w w'

lemma Move.same (w : System app) : Move schemas w w := Move.store (.refl w.db)

lemma conclude_cases {db : Db} {reply reply' : Reply} {α : Type}
    {result : EStateM.Result EventSourcingError (Session app) α}
    (h : w.conclude u db reply result = (reply', w')) :
    w' = w.put u db (finalState result) ∧ (reply' = reply ∨ ∃ e, reply' = .raised e) := by
  cases result with
  | ok =>
    cases h
    exact ⟨rfl, .inl rfl⟩
  | error e =>
    cases h
    exact ⟨rfl, .inr ⟨e, rfl⟩⟩

lemma conclude_snd {db reply} {α : Type}
    (result : EStateM.Result EventSourcingError (Session app) α) :
    (w.conclude u db reply result).2 = w.put u db (finalState result) := by
  cases result <;> rfl

lemma Sound.acts (sound : w.Sound schemas) (old : w.uows[u]? = some uow)
    (idle : uow.state = .new ∨ uow.state = .active) {db s} (next : w.db.Next db)
    (evolves : Session.Evolves schemas u ⟨uow, w.aggregates⟩ s) :
    Move schemas w (w.put u db s) := by
  have running : uow.state ≠ .committed := by
    rintro h
    obtain h' | h' := idle <;> cases h.symm.trans h'
  have quiet : uow.suspended = none := by
    by_contra waits
    obtain h | h := sound.waiting old waits <;> obtain h' | h' := idle <;> cases h.symm.trans h'
  exact .acts old running next evolves running (.inl quiet)

lemma activeTransaction_ok {t} (h : uow.activeTransaction = .ok t) : uow.state = .active := by
  simp only [UnitOfWork.activeTransaction, UnitOfWork.requireActive, bind_ok, require_ok] at h
  obtain ⟨_, active, -⟩ := h
  exact active

lemma enter_moves (sound : w.Sound schemas) (old : w.uows[u]? = some uow) :
    Move schemas w (w.enter u uow).2 := by
  unfold enter
  split
  · rename_i new
    have next : w.db.Next ((w.db.call .transaction).2.call (.enter w.db.transactions.length)).2 :=
      (Db.next_call _ _).trans (Db.next_call _ _)
    dsimp only
    split
    · refine .acts old ?_ next (.refl _) nofun (.inr ⟨⟨_, rfl⟩, rfl⟩)
      rw [new]
      exact nofun
    · rw [conclude_snd]
      exact sound.acts old (.inl new) next (Session.entered_keeps _ _ (.refl _))
  · exact .same w

variable {repository : Repository schemas} {id : app.Id} {a : Nat} {agg : Aggregate app}
  {reply : Reply}

lemma newAggregate_ok (h : repository.newAggregate id = .ok agg) :
    ∃ aggregateType id' initial, agg = Aggregate.construct aggregateType id' initial := by
  unfold Repository.newAggregate at h
  split at h
  · cases h
  · simp only [bind_ok] at h
    obtain ⟨_, -, _, -, h⟩ := h
    cases h
    exact ⟨_, _, _, rfl⟩

lemma load_moves (sound : w.Sound schemas) (h : w.load repository uow id = some (reply, w')) :
    w' = w ∧ (∀ a, reply ≠ .loaded a) ∨
      ∃ agg : Aggregate app, agg.Sound schemas w.db.state ∧ agg.enlistment = none ∧
        w' = { w with aggregates := w.aggregates ++ [agg] } ∧
        ∀ a, reply = .loaded a → a = w.aggregates.length := by
  unfold load at h
  split at h
  · cases h
    exact .inl ⟨rfl, nofun⟩
  rename_i streamId agg opened
  simp only [Repository.openStream, bind_ok] at opened
  obtain ⟨_, -, _, -, _, constructed, opened⟩ := opened
  cases opened
  obtain ⟨aggregateType, id', initial, rfl⟩ := newAggregate_ok constructed
  have new : (Aggregate.construct aggregateType id' initial).Sound schemas w.db.state :=
    Aggregate.construct_sound ..
  split at h
  · cases h
  · rename_i found agg' done
    have kept := (replayPages_keeps sound.db).of_eq ⟨new, rfl⟩ done
    cases h
    refine .inr ⟨agg', kept.1, kept.2, rfl, fun a loaded => ?_⟩
    split at loaded <;> cases loaded
    rfl
  · rename_i e agg' done
    have kept := (replayPages_keeps sound.db).of_eq ⟨new, rfl⟩ done
    cases h
    exact .inr ⟨agg', kept.1, kept.2, rfl, nofun⟩

lemma get_eq_load (h : w.get repository uow id = some (reply, w')) :
    ∃ reply', w.load repository uow id = some (reply', w') ∧
      ∀ a, reply = .loaded a → reply' = .loaded a := by
  simp only [get, bind_some] at h
  obtain ⟨⟨reply', _⟩, loaded, h⟩ := h
  refine ⟨reply', ?_⟩
  dsimp only at h
  split at h <;> cases h
  · exact ⟨loaded, nofun⟩
  · exact ⟨loaded, nofun⟩
  · exact ⟨loaded, fun a h => h⟩

lemma encodePending_ok {appendEvents}
    (h : repository.encodePending uow a agg = .ok (some (streamId, appendEvents))) :
    uow.validateStage a agg streamId = .ok () ∧ agg.pendingEvents ≠ [] ∧
      agg.pendingEvents.mapM schemas.encode = .ok appendEvents := by
  simp only [Repository.encodePending, bind_ok] at h
  obtain ⟨_, -, _, -, _, -, _, valid, h⟩ := h
  split at h
  · cases h
  · rename_i pending
    simp only [bind_ok] at h
    obtain ⟨_, encoded, h⟩ := h
    cases h
    exact ⟨valid, pending, encoded⟩

lemma validateStage_ok {i} (h : uow.validateStage a agg streamId = .ok i) :
    uow.state = .active ∧ a ∉ uow.aggregates ∧ streamId ∉ uow.streams := by
  simp only [UnitOfWork.validateStage, UnitOfWork.requireActive, bind_ok, require_ok] at h
  obtain ⟨_, active, _, fresh, _, freshStream, -⟩ := h
  exact ⟨active, fresh, freshStream⟩

lemma save_moves (sound : w.Sound schemas) (old : w.uows[repository.unitOfWork]? = some uow)
    (now : w.aggregates[a]? = some agg) : Move schemas w (w.save repository uow a agg).2 := by
  unfold save
  split
  · exact .same w
  · exact .same w
  rename_i streamId appendEvents prepared
  obtain ⟨valid, -, encoded⟩ := encodePending_ok prepared
  obtain ⟨active, fresh, freshStream⟩ := validateStage_ok valid
  dsimp only
  split
  · rename_i db s staged
    obtain ⟨_, _, now', -, enlisted, appended, rfl⟩ := Session.stage_ok staged
    cases now.symm.trans now'
    refine .staged old active ?_ now fresh freshStream enlisted encoded
    simp only [bind_ok] at appended
    obtain ⟨t, -, _, -, h⟩ := appended
    cases h
    exact Db.next_call _ _
  · rename_i e s refused
    exact sound.acts old (.inr active) (.refl _) (Session.stage_error refused)

lemma commit_moves (sound : w.Sound schemas) (old : w.uows[u]? = some uow) :
    Move schemas w (w.commit u uow).2 := by
  unfold commit
  split
  · exact .same w
  rename_i t found
  have active := activeTransaction_ok found
  have keeps : Keeps (Session.Evolves schemas u ⟨uow, w.aggregates⟩) (Session.prepare u) :=
    Session.prepare_keeps
  split
  · rename_i e s raised
    have evolves := keeps.of_eq (.refl _) raised
    dsimp only
    rw [conclude_snd]
    exact sound.acts old (.inr active) (Db.next_call _ _)
      (Session.rollbackAndFault_keeps s evolves)
  · rename_i prepared s returned
    have evolves := keeps.of_eq (.refl _) returned
    obtain ⟨same, tokens, ready⟩ := Session.prepare_ok (sound.planned old).nodup returned
    dsimp only
    split
    · refine .waits old active (Db.next_call _ _) evolves ?_ ⟨tokens, ready⟩
      rw [same]
    · rename_i e raised
      rw [conclude_snd]
      exact sound.acts old (.inr active) (Db.next_call _ _)
        (Session.commitRaised_keeps e s evolves)

lemma rollback_moves (sound : w.Sound schemas) (old : w.uows[u]? = some uow) :
    Move schemas w (w.rollback u uow).2 := by
  unfold rollback
  split
  · exact .same w
  rename_i t found
  dsimp only
  rw [conclude_snd]
  exact sound.acts old (.inr (activeTransaction_ok found)) (Db.next_call _ _)
    (Session.rollback_keeps _ _ _ (.refl _))

lemma exitContext_snd {t db s} : (w.exitContext u t db s).2 = w.put u (db.call (.exit t)).2 s := by
  unfold exitContext
  dsimp only
  rw [conclude_snd, Session.exited_keeps]

lemma put_same (old : w.uows[u]? = some uow) (db : Db) :
    w.put u db ⟨uow, w.aggregates⟩ = { w with db := db } := by
  obtain ⟨_, same⟩ := List.getElem?_eq_some_iff.mp old
  rw [put]
  subst same
  rw [set_getElem_self]

lemma exit_moves (sound : w.Sound schemas) (old : w.uows[u]? = some uow)
    (error : Option EventSourcingError) : Move schemas w (w.exit u uow error).2 := by
  unfold exit
  split
  · exact .same w
  rename_i t found
  split
  · exact .same w
  split
  · rename_i active
    have keeps : Keeps (Session.Evolves schemas u ⟨uow, w.aggregates⟩)
        (Session.rollback u error (w.db.call (.rollback t)).1) := Session.rollback_keeps _ _
    dsimp only
    split
    · rename_i s returned
      have evolves := keeps.of_eq (.refl _) returned
      rw [exitContext_snd]
      exact sound.acts old (.inr active) ((Db.next_call _ _).trans (Db.next_call _ _)) evolves
    · rename_i e s raised
      have evolves := keeps.of_eq (.refl _) raised
      split
      · rename_i s' handled
        exact sound.acts old (.inr active) ((Db.next_call _ _).trans (Db.next_call _ _))
          (Session.rollbackRaised_keeps.of_eq evolves handled)
      · rename_i e' s' handled
        exact sound.acts old (.inr active) (Db.next_call _ _)
          (Session.rollbackRaised_keeps.of_eq evolves handled)
  · rw [exitContext_snd, put_same old]
    exact .store (Db.next_call _ _)

lemma validateResult_ok {result i} (h : uow.validateResult result = .ok i) :
    result.events.map (fun e => (e.streamId, e.streamVersion, e.event)) =
      uow.plans.flatMap CommitPlan.expected := by
  simp only [UnitOfWork.validateResult, bind_ok, require_ok] at h
  obtain ⟨_, -, _, same, -⟩ := h
  exact same

lemma mismatch_raises {e s₀ s} (evolves : Session.Evolves schemas u s₀ s) :
    ∃ e' s', (do
        Session.faultAll u
        Session.finish .faulted (.indeterminateCommit e)
        throw e : Method app Unit) s = .error e' s' ∧ Session.Evolves schemas u s₀ s' := by
  have keeps : Keeps (Session.Evolves schemas u s₀) (do
      Session.faultAll u
      Session.finish .faulted (.indeterminateCommit e)
      throw e : Method app Unit) :=
    .bind Session.faultAll_keeps fun _ => .bind (Session.finish_keeps nofun) fun _ => .throw e
  generalize h : (do
      Session.faultAll u
      Session.finish .faulted (.indeterminateCommit e)
      throw e : Method app Unit) s = result
  cases result with
  | error e' s' => exact ⟨e', s', rfl, keeps.of_eq evolves h⟩
  | ok =>
    obtain ⟨_, _, -, rest⟩ := seq_ok.mp h
    obtain ⟨_, _, -, raised⟩ := seq_ok.mp rest
    cases raised

lemma commitReturned_cases (sound : w.Sound schemas) (old : w.uows[u]? = some uow) {t prepared}
    (suspended : uow.suspended = some (.commit t prepared)) (result : CommitResult) :
    (∃ e s, Session.commitReturned u prepared result
        ⟨{ uow with suspended := none }, w.aggregates⟩ = .error e s ∧
      Session.Evolves schemas u ⟨{ uow with suspended := none }, w.aggregates⟩ s) ∨
    ∃ aggregates, Session.commitReturned u prepared result
        ⟨{ uow with suspended := none }, w.aggregates⟩ =
          .ok () ⟨{ uow with
            state := .committed
            commitResult := some result
            outcome := some (.confirmedCommit result)
            suspended := none }, aggregates⟩ ∧
      uow.validateResult result = .ok () ∧
      (∀ plan ∈ uow.plans, ∃ agg, w.aggregates[plan.aggregate]? = some agg ∧ plan.Ready u agg ∧
        aggregates[plan.aggregate]? = some (agg.committedAt plan.finalVersion)) ∧
      ∀ a : Nat, a ∉ uow.plans.map (·.aggregate) → aggregates[a]? = w.aggregates[a]? := by
  have held := sound.held old suspended
  cases valid : uow.validateResult result with
  | error e =>
    left
    rw [Session.commitReturned, seq_get]
    have valid' : UnitOfWork.validateResult { uow with suspended := none } result = .error e :=
      valid
    rw [valid']
    exact mismatch_raises (.refl _)
  | ok =>
    right
    obtain ⟨aggregates, marked, all, others⟩ := Session.markAll_ok
      (s := ⟨{ uow with
        commitResult := some result
        outcome := some (.confirmedCommit result)
        suspended := none }, w.aggregates⟩) (sound.planned old).nodup held.ready
    refine ⟨aggregates, ?_, rfl, all, others⟩
    rw [Session.commitReturned, seq_get]
    have valid' : UnitOfWork.validateResult { uow with suspended := none } result = .ok () := valid
    rw [valid', held.prepared]
    change (Session.markAll _ >>= fun _ => Session.setState .committed) _ = _
    rw [seq_apply, marked]
    rfl

lemma goOn_cases (sound : w.Sound schemas) (old : w.uows[u]? = some uow) {a : Nat → DbAction}
    {reply : Reply} (h : w.goOn u uow a = some (reply, w')) :
    (∃ result, reply = .committed result ∧ uow.suspended ≠ none ∧ Committed u uow result w w') ∨
      (∀ result, reply ≠ .committed result) ∧ Move schemas w w' := by
  simp only [goOn, bind_some] at h
  obtain ⟨suspended, waits, ⟨answer, _⟩, performed, h⟩ := h
  have next := Db.next_of_perform performed
  have running : uow.state ≠ .committed := by
    intro committed
    have waiting := sound.waiting old (by rw [waits]; exact nofun)
    rw [committed] at waiting
    obtain h | h := waiting <;> cases h
  have quiet : ∀ {reply'}, reply = reply' ∨ (∃ e, reply = .raised e) →
      (∀ result, reply' ≠ .committed result) → ∀ result, reply ≠ .committed result := by
    rintro reply' (rfl | ⟨e, rfl⟩) silent
    · exact silent
    · exact nofun
  cases suspended with
  | enter =>
    obtain ⟨rfl, replied⟩ := conclude_cases (Option.some.inj h)
    exact .inr ⟨quiet replied nofun,
      .acts old running next (Session.entered_keeps _ _ (.refl _)) running (.inl rfl)⟩
  | commit =>
    cases answer with
    | raised e =>
      obtain ⟨rfl, replied⟩ := conclude_cases (Option.some.inj h)
      exact .inr ⟨quiet replied nofun,
        .acts old running next (Session.commitRaised_keeps e _ (.refl _)) running (.inl rfl)⟩
    | committed result =>
      have made := Option.some.inj h
      obtain ⟨e, s, raised, evolves⟩ | ⟨_, returned, valid, marked, others⟩ :=
        commitReturned_cases sound old waits result
      · -- the store has committed, and the result is refused
        rw [raised] at made
        cases made
        exact .inr ⟨nofun, .acts old running next evolves running (.inl rfl)⟩
      · rw [returned] at made
        cases made
        refine .inl ⟨result, rfl, ?_, next, ?_, validateResult_ok valid,
          ⟨_, rfl, rfl, rfl, rfl, rfl, rfl⟩, marked, others⟩
        · rw [waits]
          exact nofun
        obtain ⟨-, silent⟩ | ⟨_, _, _, -, -, -, locked, same⟩ :=
            (Db.perform_cases performed).state
        · exact absurd rfl (silent result)
        · cases same
          exact (Transaction.commitLocked_ok locked).streams
    | _ => cases h

lemma perform_moves (sound : w.Sound schemas) {a : Action schemas} {reply : Reply}
    (h : w.perform a = some (reply, w')) : Move schemas w w' := by
  cases a with
  | store =>
    rw [perform] at h
    split at h
    · cases h
    · simp only [bind_some] at h
      obtain ⟨⟨_, _⟩, performed, h⟩ := h
      cases h
      exact .store (Db.next_of_perform performed)
  | construct =>
    cases h
    exact .added (Aggregate.construct_sound ..) rfl
  | raiseEvent a event metadata =>
    simp only [perform, bind_some] at h
    obtain ⟨agg, now, h⟩ := h
    have follows : ∀ u, agg.Follows schemas u
        (finalState (Aggregate.raiseEvent event metadata agg)) :=
      fun u => Aggregate.raiseEvent_follows event metadata agg
    cases raised : Aggregate.raiseEvent event metadata agg with
    | ok | error =>
      rw [raised] at h follows
      cases h
      exact .changed now follows
  | unitOfWork =>
    cases h
    exact .unitOfWork
  | enter u =>
    simp only [perform, bind_some] at h
    obtain ⟨uow, old, h⟩ := h
    rw [← show (w.enter u uow).2 = w' from congrArg Prod.snd (Option.some.inj h)]
    exact enter_moves sound old
  | load =>
    simp only [perform, bind_some] at h
    obtain ⟨uow, old, h⟩ := h
    obtain ⟨rfl, -⟩ | ⟨agg, loaded, free, rfl, -⟩ := load_moves sound h
    · exact .same _
    · exact .added loaded free
  | get =>
    simp only [perform, bind_some] at h
    obtain ⟨uow, old, h⟩ := h
    obtain ⟨_, h, -⟩ := get_eq_load h
    obtain ⟨rfl, -⟩ | ⟨agg, loaded, free, rfl, -⟩ := load_moves sound h
    · exact .same _
    · exact .added loaded free
  | save repository a =>
    simp only [perform, bind_some] at h
    obtain ⟨uow, old, agg, now, h⟩ := h
    rw [← show (w.save repository uow a agg).2 = w' from congrArg Prod.snd (Option.some.inj h)]
    exact save_moves sound old now
  | commit u =>
    simp only [perform, bind_some] at h
    obtain ⟨uow, old, h⟩ := h
    rw [← show (w.commit u uow).2 = w' from congrArg Prod.snd (Option.some.inj h)]
    exact commit_moves sound old
  | rollback u =>
    simp only [perform, bind_some] at h
    obtain ⟨uow, old, h⟩ := h
    rw [← show (w.rollback u uow).2 = w' from congrArg Prod.snd (Option.some.inj h)]
    exact rollback_moves sound old
  | exit u error =>
    simp only [perform, bind_some] at h
    obtain ⟨uow, old, h⟩ := h
    rw [← show (w.exit u uow error).2 = w' from congrArg Prod.snd (Option.some.inj h)]
    exact exit_moves sound old error
  | resume | cancel =>
    simp only [perform, bind_some] at h
    obtain ⟨_, old, h⟩ := h
    obtain ⟨_, -, waits, committed⟩ | ⟨-, move⟩ := goOn_cases sound old h
    · exact .committed old waits committed
    · exact move

lemma step_moves (sound : w.Sound schemas) {a : Action schemas} (h : step schemas w a = some w') :
    Move schemas w w' := by
  obtain ⟨⟨_, _⟩, performed, same⟩ := Option.map_eq_some_iff.mp h
  cases same
  exact perform_moves sound performed

end System

end ToriPy.EventSourcing
