import ToriPy.EventSourcing.LostUpdates

/-!
# Repositories

What `save` leaves when it raises. `stage` enlists the aggregate before it appends to the transaction,
and takes the enlistment back when `append` raises; but `_enlist` has bound the aggregate to the
stream, and `_release` does not undo that. So a failed `save` leaves no trace just if it was refused
before the append or the aggregate was bound before.
-/

namespace ToriPy.EventSourcing

variable {app : App} {schemas : EventSchemaRegistry app}

/-! ### A failed save -/

lemma Db.call_append_error {db : Db} {t streamId version events e}
    (h : (db.call (.append t streamId version events)).1 = .error e) :
    (db.call (.append t streamId version events)).2 = db := by
  cases now : db.transactions[t]? with
  | none => simp [call, perform, now]
  | some tx =>
    cases made : tx.append db.limits streamId version events with
    | ok => simp [call, perform, now, made, update, DbReply.answer] at h
    | error => simp [call, perform, now, made, update]

namespace System

/-- The `save` is refused before it appends anything, or the aggregate is bound to its stream. (An
aggregate without an enlistment has no prepared commit in any run.) -/
def Traceless (w : System app) (repository : Repository schemas) (a : Nat) : Prop :=
  ∃ uow agg, w.uows[repository.unitOfWork]? = some uow ∧ w.aggregates[a]? = some agg ∧
    ((∃ e, repository.encodePending uow a agg = .error e) ∨
      agg.streamId.isSome ∧ agg.preparedCommit = none)

variable {w w' : System app} {uow : UnitOfWork app} {agg agg' : Aggregate app} {u a : Nat}
  {streamId : StreamId}

/-- What was validated can be enlisted. -/
lemma enlist_of_validated (valid : uow.validateStage a agg streamId = .ok ())
    (pending : agg.pendingEvents ≠ []) :
    agg.enlistment = none ∧ (agg.streamId.isSome → agg.streamId = some streamId) ∧
      agg.enlist u streamId agg.pendingEvents = .ok { agg with
        streamId := some streamId
        enlistment := some ⟨u, streamId, agg.pendingEvents⟩
        preparedCommit := none } := by
  simp only [UnitOfWork.validateStage, Aggregate.validateStaging, bind_ok] at valid
  obtain ⟨_, -, _, -, _, -, _, mutable, stream⟩ := valid
  have free := (Aggregate.requireMutable_ok.mp mutable).2
  refine ⟨free, ?_, ?_⟩
  · intro bound
    obtain ⟨_, bound⟩ := Option.isSome_iff_exists.mp bound
    rw [Aggregate.requireStream, bound] at stream
    rw [bound, require_ok.mp stream]
  · simp [Aggregate.enlist, mutable, stream, free, pending, require]

lemma put_eq_iff (old : w.uows[u]? = some uow) (now : w.aggregates[a]? = some agg) :
    w.put u w.db ⟨uow, w.aggregates.set a agg'⟩ = w ↔ agg' = agg := by
  obtain ⟨_, rfl⟩ := List.getElem?_eq_some_iff.mp old
  obtain ⟨lt', rfl⟩ := List.getElem?_eq_some_iff.mp now
  rw [put, List.set_getElem_self]
  constructor
  · intro same
    have here := congrArg (·.aggregates[a]?) same
    rw [List.getElem?_set_self lt', List.getElem?_eq_getElem lt'] at here
    exact Option.some.inj here
  · intro same
    rw [same, List.set_getElem_self]

/-- A `save` that raises is refused before it appends, or leaves the aggregate bound to a stream. -/
lemma save_raised {repository : Repository schemas} {e} (now : w.aggregates[a]? = some agg)
    (h : w.save repository uow a agg = (.raised e, w')) :
    repository.encodePending uow a agg = .error e ∧ w' = w ∨
      ∃ streamId, (∀ raised, repository.encodePending uow a agg ≠ .error raised) ∧
        agg.enlistment = none ∧ (agg.streamId.isSome → agg.streamId = some streamId) ∧
        w' = w.put repository.unitOfWork w.db ⟨uow, w.aggregates.set a { agg with
          streamId := some streamId, enlistment := none, preparedCommit := none }⟩ := by
  unfold save at h
  split at h
  · rename_i raised refused
    cases h
    exact .inl ⟨refused, rfl⟩
  · cases h
  · rename_i streamId appendEvents prepared
    obtain ⟨valid, pending, -⟩ := encodePending_ok prepared
    obtain ⟨free, bound, enlisted⟩ := enlist_of_validated valid pending
    refine .inr ⟨streamId, fun raised => ?_, free, bound, ?_⟩
    · rw [prepared]
      exact nofun
    · dsimp only at h
      split at h
      · cases h
      · rename_i raised s staged
        cases Session.stage_raised now valid enlisted staged
        cases h
        rfl

end System

/-- A `save` that raises leaves the store as it was, and everything else just if it was refused before
it appended, or the aggregate was bound to its stream before. -/
theorem failed_save_invisible_iff (w w' : System app) (repository : Repository schemas) (a : Nat)
    (e : EventSourcingError) (failed : w.perform (.save repository a) = some (.raised e, w')) :
    (w' = w ↔ w.Traceless repository a) ∧ w'.db = w.db ∧
      ∀ t streamId version events raised,
        (w.db.call (.append t streamId version events)).1 = .error raised →
          (w.db.call (.append t streamId version events)).2 = w.db := by
  simp only [System.perform, bind_some, Option.some.injEq, pure] at failed
  obtain ⟨uow, old, agg, now, h⟩ := failed
  rw [← and_assoc]
  refine ⟨?_, fun _ _ _ _ _ => Db.call_append_error⟩
  obtain ⟨refused, rfl⟩ | ⟨_, accepted, free, bound, rfl⟩ := System.save_raised now h
  · exact ⟨iff_of_true rfl ⟨uow, agg, old, now, .inl ⟨e, refused⟩⟩, rfl⟩
  refine ⟨?_, rfl⟩
  rw [System.put_eq_iff old now]
  constructor
  · intro same
    refine ⟨uow, agg, old, now, .inr ⟨?_, ?_⟩⟩
    · rw [← same]
      rfl
    · rw [← same]
  · rintro ⟨_, _, old', now', left⟩
    cases old.symm.trans old'
    cases now.symm.trans now'
    obtain ⟨raised, refused⟩ | ⟨isBound, unprepared⟩ := left
    · exact absurd refused (accepted raised)
    · rw [← bound isBound, ← free, ← unprepared]

def archivesOf (unitOfWork : Nat) : Repository accountSchemas :=
  { accountsOf unitOfWork with category := "archive" }

/-- Two units of work, and two accounts whose deposits have the same event id, one of them saved. -/
def sharedId : List (Action accountSchemas) :=
  [.unitOfWork, .enter 0, .resume 0, .unitOfWork, .enter 1, .resume 1, .construct () "a" 0,
    .construct () "b" 0, .raiseEvent 0 5 ⟨1, 0, none, none, ∅⟩,
    .raiseEvent 1 7 ⟨1, 0, none, none, ∅⟩, .save (accountsOf 0) 0]

theorem failed_save_invisible_sharedId :
    ∃ w w' : System accounts, exec (System.step accountSchemas) (System.start {}) sharedId = some w ∧
      w.perform (.save (accountsOf 0) 1) = some (.raised (.duplicateEventId 1), w') ∧
      (w' = w ↔ w.Traceless (accountsOf 0) 1) := by
  have run : ((exec (System.step accountSchemas) (System.start {}) sharedId).bind fun w =>
      (w.perform (.save (accountsOf 0) 1)).map Prod.fst) =
        some (.raised (.duplicateEventId 1)) := by
    decide +kernel
  simp only [Option.bind_eq_some_iff, Option.map_eq_some_iff] at run
  obtain ⟨w, run, ⟨_, w'⟩, saved, same⟩ := run
  cases same
  exact ⟨w, w', run, saved, (failed_save_invisible_iff w w' _ _ _ saved).1⟩

/-- The second account is refused, and can no longer be saved to another category. -/
theorem failed_save_binds :
    ∃ w w' : System accounts, exec (System.step accountSchemas) (System.start {}) sharedId = some w ∧
      w.perform (.save (accountsOf 0) 1) = some (.raised (.duplicateEventId 1), w') ∧ w' ≠ w ∧
      (w.perform (.save (archivesOf 1) 1)).map Prod.fst = some .returned ∧
      (w'.perform (.save (archivesOf 1) 1)).map Prod.fst =
        some (.raised (.aggregateStreamMismatch ⟨"account", "b"⟩ ⟨"archive", "b"⟩)) := by
  have run : ((exec (System.step accountSchemas) (System.start {}) sharedId).bind fun w =>
      (w.perform (.save (accountsOf 0) 1)).map fun r =>
        (r.1, (w.perform (.save (archivesOf 1) 1)).map Prod.fst,
          (r.2.perform (.save (archivesOf 1) 1)).map Prod.fst)) =
        some (.raised (.duplicateEventId 1), some .returned,
          some (.raised (.aggregateStreamMismatch ⟨"account", "b"⟩ ⟨"archive", "b"⟩))) := by
    decide +kernel
  simp only [Option.bind_eq_some_iff, Option.map_eq_some_iff] at run
  obtain ⟨w, run, ⟨_, w'⟩, saved, same⟩ := run
  obtain ⟨rfl, before, after⟩ := Prod.mk.inj same |>.imp id Prod.mk.inj
  refine ⟨w, w', run, saved, fun same => ?_, before, after⟩
  rw [same] at after
  cases before.symm.trans after

end ToriPy.EventSourcing
