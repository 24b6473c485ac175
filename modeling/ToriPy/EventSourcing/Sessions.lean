import ToriPy.EventSourcing.Reflection
import ToriPy.EventSourcing.UnitOfWork

/-!
# What the methods of a unit of work leave

Between two calls of the store a unit of work only changes its own state and the aggregates it has
enlisted. `Session.Evolves` says so for every method that neither stages nor marks an aggregate,
whether it returns or raises: it is kept by every assignment and by every call of a method of an
aggregate, hence by the loops and handlers made of them. The three other pieces have a lemma of
their own: `prepare_ok` and `markAll_ok` follow the two loops of `commit`, `stage_ok` is the
successful `stage`.
-/

namespace ToriPy.EventSourcing

open List

variable {app : App} {schemas : EventSchemaRegistry app} {u : Nat}

/-- Every aggregate is as methods of `u` leave it. -/
def FollowAll (schemas : EventSchemaRegistry app) (u : Nat) (old new : List (Aggregate app)) :
    Prop :=
  ∀ a : Nat, Option.Rel (Aggregate.Follows schemas u) old[a]? new[a]?

namespace FollowAll

variable {old new : List (Aggregate app)} {a : Nat} {agg agg' : Aggregate app}

lemma refl (old : List (Aggregate app)) : FollowAll schemas u old old := by
  intro a
  cases old[a]? with
  | none => exact .none
  | some agg => exact .some (.refl agg)

lemma set (h : FollowAll schemas u old new) (now : new[a]? = some agg)
    (follows : agg.Follows schemas u agg') : FollowAll schemas u old (new.set a agg') := by
  intro b
  have hb := h b
  rw [getElem?_set]
  split
  · rename_i same
    subst same
    rw [if_pos (List.getElem?_eq_some_iff.mp now).1]
    obtain ⟨_, before, earlier⟩ := rel_before hb now
    rw [before]
    exact .some (earlier.trans follows)
  · exact hb

lemma before (h : FollowAll schemas u old new) (now : new[a]? = some agg') :
    ∃ agg, old[a]? = some agg ∧ agg.Follows schemas u agg' :=
  rel_before (h a) now

lemma after (h : FollowAll schemas u old new) (then_ : old[a]? = some agg) :
    ∃ agg', new[a]? = some agg' ∧ agg.Follows schemas u agg' :=
  rel_after (h a) then_

end FollowAll

namespace Session

variable {s₀ s s' : Session app} {f : Aggregate app → Except EventSourcingError (Aggregate app)}

/-- What `u` has planned stays, it does not become committed, and the aggregates follow. -/
structure Evolves (schemas : EventSchemaRegistry app) (u : Nat) (s₀ s : Session app) : Prop where
  plans : s.uow.plans = s₀.uow.plans
  aggregates : s.uow.aggregates = s₀.uow.aggregates
  streams : s.uow.streams = s₀.uow.streams
  suspended : s.uow.suspended = s₀.uow.suspended
  committed : s.uow.state = .committed → s₀.uow.state = .committed
  follow : FollowAll schemas u s₀.aggregates s.aggregates

lemma Evolves.refl (s : Session app) : Evolves schemas u s s :=
  ⟨rfl, rfl, rfl, rfl, fun h => h, .refl _⟩

lemma onAggregate_keeps {a} (hf : ∀ agg agg', f agg = .ok agg' → agg.Follows schemas u agg') :
    Keeps (Evolves schemas u s₀) (onAggregate a f) := by
  intro s h
  unfold onAggregate
  split
  · exact h
  rename_i agg now
  split
  · rename_i agg' made
    exact ⟨h.plans, h.aggregates, h.streams, h.suspended, h.committed,
      h.follow.set now (hf _ _ made)⟩
  · exact h

lemma onEnlisted_keeps (hf : ∀ agg agg', f agg = .ok agg' → agg.Follows schemas u agg') :
    Keeps (Evolves schemas u s₀) (onEnlisted f) := by
  refine Keeps.bind_get fun s h => ?_
  refine Keeps.forM (fun plan _ => onAggregate_keeps fun agg agg' made => ?_) s h
  split at made
  · exact hf _ _ made
  · cases made
    exact .refl agg

lemma releaseAll_keeps : Keeps (Evolves schemas u s₀) (releaseAll u) :=
  onEnlisted_keeps fun _ _ => Aggregate.release_follows

lemma faultAll_keeps : Keeps (Evolves schemas u s₀) (faultAll u) :=
  onEnlisted_keeps fun _ _ => Aggregate.fault_follows

lemma setState_keeps {state} (running : state ≠ .committed) :
    Keeps (Evolves schemas u s₀) (setState state) := fun _ h =>
  ⟨h.plans, h.aggregates, h.streams, h.suspended, fun committed => absurd committed running,
    h.follow⟩

lemma finish_keeps {state outcome} (running : state ≠ .committed) :
    Keeps (Evolves schemas u s₀) (finish state outcome) := fun _ h =>
  ⟨h.plans, h.aggregates, h.streams, h.suspended, fun committed => absurd committed running,
    h.follow⟩

lemma entered_keeps {t} (answer : Except EventSourcingError Unit) :
    Keeps (Evolves schemas u s₀) (entered t answer) := by
  cases answer with
  | error e => exact .bind (finish_keeps nofun) fun _ => .throw e
  | ok =>
    intro s h
    exact ⟨h.plans, h.aggregates, h.streams, h.suspended, nofun, h.follow⟩

lemma prepare_keeps : Keeps (Evolves schemas u s₀) (prepare u) := by
  refine .bind (setState_keeps nofun) fun _ => Keeps.bind_get fun s h => ?_
  refine Keeps.mapM (fun plan _ => ?_) s h
  exact .bind (onAggregate_keeps fun _ _ => Aggregate.prepareCommit_follows) fun _ => .pure _

lemma rollbackAndFault_keeps {cause answer} :
    Keeps (Evolves schemas u s₀) (rollbackAndFault u cause answer) := by
  refine .bind faultAll_keeps fun _ => .bind (finish_keeps nofun) fun _ => ?_
  exact .bind (.check answer) fun _ => .throw cause

lemma handleRaised_keeps (e : EventSourcingError) :
    Keeps (Evolves schemas u s₀) (handleRaised u e) := by
  have faults : ∀ {state outcome}, state ≠ UnitOfWorkState.committed →
      Keeps (Evolves schemas u s₀) (faultAll u >>= fun _ => finish state outcome) :=
    fun running => .bind faultAll_keeps fun _ => finish_keeps running
  have releases : ∀ {state outcome}, state ≠ UnitOfWorkState.committed →
      Keeps (Evolves schemas u s₀) (releaseAll u >>= fun _ => finish state outcome) :=
    fun running => .bind releaseAll_keeps fun _ => finish_keeps running
  cases e with
  | optimisticConcurrency => exact faults nofun
  | duplicateEventId => exact faults nofun
  | indeterminateCommit => exact faults nofun
  | cancelled | confirmedCommit => exact releases nofun
  | _ => exact faults nofun

lemma commitRaised_keeps (e : EventSourcingError) :
    Keeps (Evolves schemas u s₀) (commitRaised u e) :=
  .bind (handleRaised_keeps e) fun _ => .throw e

lemma rollback_keeps (cause : Option EventSourcingError) (answer : Except EventSourcingError Unit) :
    Keeps (Evolves schemas u s₀) (rollback u cause answer) := by
  refine .bind (setState_keeps nofun) fun _ => ?_
  cases answer with
  | error e => exact .bind faultAll_keeps fun _ => .bind (finish_keeps nofun) fun _ => .throw e
  | ok => exact .bind releaseAll_keeps fun _ => finish_keeps nofun

lemma rollbackRaised_keeps : Keeps (Evolves schemas u s₀) (rollbackRaised u) :=
  .bind faultAll_keeps fun _ => setState_keeps nofun

lemma exited_keeps (answer : Except EventSourcingError Unit) :
    finalState (exited answer s) = s := by
  cases answer with
  | ok => rfl
  | error =>
    rw [exited, seq_get]
    cases s.uow.state <;> cases s.uow.commitResult <;> rfl

lemma onAggregate_ok {a i} (h : onAggregate a f s = .ok i s') :
    ∃ agg agg', s.aggregates[a]? = some agg ∧ f agg = .ok agg' ∧
      s' = { s with aggregates := s.aggregates.set a agg' } := by
  unfold onAggregate at h
  split at h
  · cases h
  rename_i agg now
  split at h
  · rename_i agg' made
    cases h
    exact ⟨agg, agg', now, made, rfl⟩
  · cases h

lemma onAggregate_eq {a agg agg'} (now : s.aggregates[a]? = some agg) (made : f agg = .ok agg') :
    onAggregate a f s = .ok () { s with aggregates := s.aggregates.set a agg' } := by
  rw [onAggregate, now]
  dsimp only
  rw [made]

end Session

/-- An aggregate that is prepared for its plan. -/
structure CommitPlan.Ready (u : Nat) (plan : CommitPlan app) (agg : Aggregate app) : Prop where
  owned : ∃ e, agg.enlistment = some e ∧ e.owner = u
  prepared : agg.preparedCommit = some ⟨u, plan.pending, plan.finalVersion⟩
  pending : agg.pendingEvents = plan.pending
  version : agg.version = plan.expectedVersion

/-- The plan with the transition that `commit` prepares for it. -/
def CommitPlan.withTransition (u : Nat) (plan : CommitPlan app) :
    CommitPlan app × PreparedCommit app :=
  (plan, ⟨u, plan.pending, plan.finalVersion⟩)

def Aggregate.committedAt (agg : Aggregate app) (version : Nat) : Aggregate app :=
  { agg with version := version, pendingEvents := [], enlistment := none, preparedCommit := none }

namespace Session

variable {s s' : Session app} {prepared : List (CommitPlan app × PreparedCommit app)}
  {plans : List (CommitPlan app)}

lemma prepareAll_ok (nodup : (plans.map (·.aggregate)).Nodup)
    (h : prepareAll u plans s = .ok prepared s') :
      s'.uow = s.uow ∧ prepared = plans.map (CommitPlan.withTransition u) ∧
      (∀ plan ∈ plans, ∃ agg, s'.aggregates[plan.aggregate]? = some agg ∧ plan.Ready u agg) ∧
      ∀ a : Nat, a ∉ plans.map (·.aggregate) → s'.aggregates[a]? = s.aggregates[a]? := by
  induction plans generalizing s prepared with
  | nil =>
    cases h
    exact ⟨rfl, rfl, nofun, fun _ _ => rfl⟩
  | cons plan plans ih =>
    obtain ⟨notin, nodup⟩ := nodup_cons.mp nodup
    rw [prepareAll, mapM_cons] at h
    obtain ⟨_, s₁, head, h⟩ := seq_ok.mp h
    obtain ⟨_, _, called, returned⟩ := seq_ok.mp head
    obtain ⟨rest, s₂, tail, last⟩ := seq_ok.mp h
    cases returned
    cases last
    obtain ⟨agg, agg', now, made, rfl⟩ := onAggregate_ok called
    obtain ⟨sameUow, rfl, ready, others⟩ := ih nodup tail
    obtain ⟨e, enlisted, owner, pending, final, rfl⟩ := Aggregate.prepareCommit_ok made
    refine ⟨sameUow, rfl, ?_, ?_⟩
    · intro p hp
      obtain rfl | hp := mem_cons.mp hp
      · -- the later turns of the loop leave this aggregate as it is
        refine ⟨_, (others _ notin).trans (set_new now), ⟨e, enlisted, owner⟩, rfl, pending, ?_⟩
        rw [CommitPlan.finalVersion] at final
        show agg.version = _
        omega
      · exact ready p hp
    · intro a ha
      rw [map_cons, mem_cons, not_or] at ha
      rw [others a ha.2]
      exact getElem?_set_ne (Ne.symm ha.1)

lemma prepare_ok
    (nodup : (s.uow.plans.map (·.aggregate)).Nodup) (h : prepare u s = .ok prepared s') :
    s'.uow = { s.uow with state := .committing } ∧
      prepared = s.uow.plans.map (CommitPlan.withTransition u) ∧
      ∀ plan ∈ s.uow.plans, ∃ agg, s'.aggregates[plan.aggregate]? = some agg ∧
      plan.Ready u agg := by
  obtain ⟨sameUow, same, ready, -⟩ := prepareAll_ok
    (s := { s with uow := { s.uow with state := .committing } }) nodup h
  exact ⟨sameUow, same, ready⟩

lemma markAll_ok (nodup : (plans.map (·.aggregate)).Nodup)
    (ready : ∀ plan ∈ plans, ∃ agg, s.aggregates[plan.aggregate]? = some agg ∧ plan.Ready u agg) :
    ∃ aggregates, markAll (plans.map (CommitPlan.withTransition u)) s =
        .ok () { s with aggregates := aggregates } ∧
      (∀ plan ∈ plans, ∃ agg, s.aggregates[plan.aggregate]? = some agg ∧ plan.Ready u agg ∧
        aggregates[plan.aggregate]? = some (agg.committedAt plan.finalVersion)) ∧
      ∀ a : Nat, a ∉ plans.map (·.aggregate) → aggregates[a]? = s.aggregates[a]? := by
  induction plans generalizing s with
  | nil => exact ⟨s.aggregates, rfl, nofun, fun _ _ => rfl⟩
  | cons plan plans ih =>
    obtain ⟨notin, nodup⟩ := nodup_cons.mp nodup
    obtain ⟨agg, now, isReady⟩ := ready plan mem_cons_self
    have marked : agg.markCommitted ⟨u, plan.pending, plan.finalVersion⟩ =
        .ok (agg.committedAt plan.finalVersion) := by
      rw [Aggregate.markCommitted, require, if_pos isReady.prepared]
      rfl
    have others : ∀ p ∈ plans,
        (s.aggregates.set plan.aggregate (agg.committedAt plan.finalVersion))[p.aggregate]? =
          s.aggregates[p.aggregate]? := by
      intro p hp
      refine getElem?_set_ne fun same => notin ?_
      show plan.aggregate ∈ _
      rw [same]
      exact mem_map_of_mem hp
    obtain ⟨aggregates, done, all, untouched⟩ := ih
      (s := { s with
        aggregates := s.aggregates.set plan.aggregate (agg.committedAt plan.finalVersion) }) nodup
      fun p hp => by
        rw [others p hp]
        exact ready p (mem_cons_of_mem _ hp)
    refine ⟨aggregates, ?_, ?_, ?_⟩
    · rw [map_cons, markAll, forM_cons_eq, seq_apply]
      dsimp only [CommitPlan.withTransition]
      rw [onAggregate_eq now marked]
      exact done
    · intro p hp
      obtain rfl | hp := mem_cons.mp hp
      · refine ⟨agg, now, isReady, ?_⟩
        rw [untouched _ notin]
        exact set_new now
      · obtain ⟨agg, before, isReady, after⟩ := all p hp
        exact ⟨agg, (others p hp).symm.trans before, isReady, after⟩
    · intro a ha
      rw [map_cons, mem_cons, not_or] at ha
      rw [untouched a ha.2]
      exact getElem?_set_ne (Ne.symm ha.1)

section Stage
variable {τ : Type} {a : Nat} {streamId : StreamId} {pending : List (PendingEvent app)}
  {appendEvents : List AppendEvent} {append : Nat → Except EventSourcingError τ}

/-- `stage` by what its two checks and the transaction's `append` say. When `append` raises, the
enlistment is taken back, and the aggregate stays bound to the stream. -/
lemma stage_eq {agg} (now : s.aggregates[a]? = some agg) :
    stage u a streamId pending appendEvents append s =
      match s.uow.validateStage a agg streamId, agg.enlist u streamId pending,
        append agg.version with
      | .error e, _, _ => .error e s
      | .ok _, .error e, _ => .error e s
      | .ok _, .ok agg', .error e =>
        .error e { s with aggregates := s.aggregates.set a agg'.released }
      | .ok _, .ok agg', .ok left =>
        .ok left ⟨{ s.uow with
          plans := s.uow.plans ++ [⟨a, streamId, agg.version, pending, appendEvents⟩]
          aggregates := insert a s.uow.aggregates
          streams := insert streamId s.uow.streams }, s.aggregates.set a agg'⟩ := by
  rw [stage, seq_get, now]
  dsimp only
  rw [seq_apply]
  cases s.uow.validateStage a agg streamId with
  | error => rfl
  | ok =>
    dsimp only [check]
    rw [seq_apply]
    cases made : agg.enlist u streamId pending with
    | error =>
      rw [onAggregate, now]
      dsimp only
      rw [made]
    | ok agg' =>
      rw [onAggregate_eq now made]
      cases append agg.version with
      | ok => rfl
      | error e =>
        obtain ⟨-, -, -, -, -, enlisted⟩ := Aggregate.enlist_ok made
        have released : agg'.release u = .ok agg'.released := by
          rw [enlisted]
          exact Aggregate.release_of_owner rfl rfl
        change (onAggregate a (·.release u) >>= fun _ => throw e : Method app τ) _ = _
        rw [seq_apply, onAggregate_eq (set_new now) released, set_set]
        rfl

lemma stage_raised {agg agg' e} (now : s.aggregates[a]? = some agg)
    (valid : s.uow.validateStage a agg streamId = .ok ())
    (made : agg.enlist u streamId pending = .ok agg')
    (h : stage u a streamId pending appendEvents append s = .error e s') :
    s' = { s with aggregates := s.aggregates.set a agg'.released } := by
  rw [stage_eq now, valid, made] at h
  cases appended : append agg.version with
  | ok =>
    rw [appended] at h
    cases h
  | error =>
    rw [appended] at h
    cases h
    rfl

lemma stage_ok {left} (h : stage u a streamId pending appendEvents append s = .ok left s') :
    ∃ agg agg', s.aggregates[a]? = some agg ∧ s.uow.validateStage a agg streamId = .ok () ∧
      agg.enlist u streamId pending = .ok agg' ∧ append agg.version = .ok left ∧
      s' = ⟨{ s.uow with
          plans := s.uow.plans ++ [⟨a, streamId, agg.version, pending, appendEvents⟩]
          aggregates := insert a s.uow.aggregates
          streams := insert streamId s.uow.streams }, s.aggregates.set a agg'⟩ := by
  cases now : s.aggregates[a]? with
  | none =>
    rw [stage, seq_get, now] at h
    cases h
  | some agg =>
    rw [stage_eq now] at h
    split at h <;> cases h
    exact ⟨agg, _, rfl, ‹_›, ‹_›, ‹_›, rfl⟩

lemma stage_error {e} (h : stage u a streamId pending appendEvents append s = .error e s') :
    Evolves schemas u s s' := by
  cases now : s.aggregates[a]? with
  | none =>
    rw [stage, seq_get, now] at h
    cases h
    exact .refl s
  | some agg =>
    rw [stage_eq now] at h
    split at h <;> cases h
    · exact .refl s
    · exact .refl s
    · exact ⟨rfl, rfl, rfl, rfl, fun h => h,
        (FollowAll.refl _).set now (Aggregate.enlist_release_follows ‹_›)⟩

end Stage

end Session

end ToriPy.EventSourcing
