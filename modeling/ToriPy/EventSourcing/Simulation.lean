import ToriPy.EventSourcing.Moves

/-!
# Aggregates simulate their streams

The invariants of `System.Sound` hold in every state that any interleaving of units of work reaches.
The move that matters is the commit: its result is what the plans ask for, and the versions of the
stream are consecutive, so the stream ended at the expected version, and what it is extended by
decodes to the pending events.

No update is lost: what a unit of work commits for a stream begins where another one's commit for it
has ended, or ends where the other one's begins. An aggregate that was loaded commits first at the
version it was loaded at, so of two aggregates that were loaded from one stream at one version only
one is ever committed.
-/

namespace ToriPy.EventSourcing

open List

variable {app : App} {schemas : EventSchemaRegistry app} {u : Nat} {uow : UnitOfWork app}
  {old new : List (Aggregate app)} {appendEvents : List AppendEvent}

lemma UnitOfWork.Planned.empty (aggregates : List (Aggregate app)) :
    UnitOfWork.Planned schemas u aggregates {} where
  aggregateSet := rfl
  streamSet := rfl
  nodup := .nil
  nodupStreams := .nil
  encoded := nofun
  enlisted := nofun

lemma UnitOfWork.Planned.change {uow' : UnitOfWork app} (h : uow.Planned schemas u old)
    (plans : uow'.plans = uow.plans)
    (aggregates : uow'.aggregates = uow.aggregates) (streams : uow'.streams = uow.streams)
    (keep : ∀ {a : Nat} {agg}, old[a]? = some agg →
      ∃ agg', new[a]? = some agg' ∧
        ∀ e, agg'.enlistment = some e → e.owner = u → agg.enlistment = some e) :
    uow'.Planned schemas u new := by
  refine ⟨?_, ?_, ?_, ?_, ?_, ?_⟩
  · rw [plans, aggregates]
    exact h.aggregateSet
  · rw [plans, streams]
    exact h.streamSet
  · rw [plans]
    exact h.nodup
  · rw [plans]
    exact h.nodupStreams
  · rw [plans]
    exact h.encoded
  rw [plans]
  intro plan mem
  obtain ⟨_, now, enlisted⟩ := h.enlisted plan mem
  obtain ⟨agg', now', before⟩ := keep now
  exact ⟨agg', now', fun e he owner => enlisted e (before e he owner) owner⟩

lemma UnitOfWork.Planned.stage {aggregates} (planned : uow.Planned schemas u aggregates)
    {a agg agg' streamId} (now : aggregates[a]? = some agg) (fresh : a ∉ uow.aggregates)
    (freshStream : streamId ∉ uow.streams)
    (enlisted : agg.enlist u streamId agg.pendingEvents = .ok agg')
    (encoded : agg.pendingEvents.mapM schemas.encode = .ok appendEvents) :
    UnitOfWork.Planned schemas u (aggregates.set a agg')
      { uow with
        plans := uow.plans ++ [⟨a, streamId, agg.version, agg.pendingEvents, appendEvents⟩]
        aggregates := insert a uow.aggregates
        streams := insert streamId uow.streams } := by
  obtain ⟨-, -, nonempty, -, -, same⟩ := Aggregate.enlist_ok enlisted
  rw [planned.aggregateSet, mem_toFinset] at fresh
  rw [planned.streamSet, mem_toFinset] at freshStream
  refine ⟨?_, ?_, ?_, ?_, ?_, ?_⟩
  · dsimp only
    rw [planned.aggregateSet, map_append, toFinset_append]
    exact (Finset.union_singleton _ _).symm
  · dsimp only
    rw [planned.streamSet, map_append, toFinset_append]
    exact (Finset.union_singleton _ _).symm
  · rw [map_append, map_singleton]
    exact nodup_append.mpr ⟨planned.nodup, nodup_singleton _, by
      rintro b hb _ hc rfl
      cases mem_singleton.mp hc
      exact fresh hb⟩
  · rw [map_append, map_singleton]
    exact nodup_append.mpr ⟨planned.nodupStreams, nodup_singleton _, by
      rintro b hb _ hc rfl
      cases mem_singleton.mp hc
      exact freshStream hb⟩
  · intro plan mem
    obtain mem | rfl := mem_snoc.mp mem
    · exact planned.encoded plan mem
    · exact ⟨nonempty, encoded⟩
  · intro plan mem
    obtain mem' | rfl := mem_snoc.mp mem
    · obtain ⟨agg₁, now₁, stream⟩ := planned.enlisted plan mem'
      refine ⟨agg₁, ?_, stream⟩
      rw [getElem?_set_ne, now₁]
      rintro rfl
      exact fresh (mem_map_of_mem mem')
    · refine ⟨agg', set_new now, fun e he _ => ?_⟩
      rw [same] at he
      cases he
      rfl

lemma UnitOfWork.Held.change {prepared} (h : uow.Held u old prepared)
    (keep : ∀ {a : Nat} {agg e}, old[a]? = some agg →
      agg.enlistment = some e → e.owner = u → new[a]? = some agg) : uow.Held u new prepared := by
  refine ⟨h.prepared, fun plan mem => ?_⟩
  obtain ⟨agg, now, ready⟩ := h.ready plan mem
  obtain ⟨e, enlisted, owner⟩ := ready.owned
  exact ⟨agg, keep now enlisted owner, ready⟩

lemma EventSchemaRegistry.decodeEvents_encode (trips : schemas.RoundTrips)
    {stored : List StoredEvent} {pending : List (PendingEvent app)}
    (h : pending.mapM schemas.encode = .ok (stored.map StoredEvent.event)) :
    schemas.decodeEvents stored = .ok (pending.map PendingEvent.event) := by
  induction pending generalizing stored with
  | nil =>
    cases stored with
    | nil => rfl
    | cons => cases h
  | cons p pending ih =>
    obtain ⟨event, _, encoded, rest, same⟩ := mapM_cons_ok.mp h
    cases stored with
    | nil => cases same
    | cons =>
      cases same
      obtain ⟨_, decoded, event⟩ := decode_encode trips encoded
      refine mapM_cons_ok.mpr ⟨p.event, pending.map PendingEvent.event, ?_, ih rest, rfl⟩
      rw [decoded, ← event]
      rfl

namespace CommitPlan

variable {plan : CommitPlan app}

lemma expected_streamId : ∀ entry ∈ plan.expected, entry.1 = plan.streamId := by
  intro entry mem
  obtain ⟨i, _, rfl⟩ := mem_mapIdx.mp mem
  rfl

lemma expected_event : plan.expected.map (·.2.2) = plan.appendEvents := by
  refine ext_getElem? fun i => ?_
  rw [expected, getElem?_map, getElem?_mapIdx, Option.map_map]
  exact Option.map_id'

lemma expected_version {entry} (h : plan.expected[0]? = some entry) :
    entry.2.1 = plan.expectedVersion + 1 := by
  rw [expected, getElem?_mapIdx] at h
  obtain ⟨_, -, rfl⟩ := Option.map_eq_some_iff.mp h
  rfl

lemma Apart.symm {plan'} (h : plan.Apart plan') : plan'.Apart plan :=
  fun same => (h same.symm).symm

end CommitPlan

namespace System

variable {w w' : System app} {result : CommitResult}

lemma Committed.extends (sound : w.Sound schemas) (old : w.uows[u]? = some uow)
    (commit : Committed u uow result w w') {plan} (mem : plan ∈ uow.plans) :
    ∃ new, w'.db.state.stream plan.streamId = w.db.state.stream plan.streamId ++ new ∧
      (w.db.state.stream plan.streamId).length = plan.expectedVersion ∧
      plan.pending.mapM schemas.encode = .ok (new.map StoredEvent.event) := by
  have planned := sound.planned old
  obtain ⟨nonempty, encoded⟩ := planned.encoded plan mem
  refine ⟨_, commit.stored plan.streamId, ?_⟩
  generalize hnew : result.events.filter (·.streamId = plan.streamId) = new
  -- of the result, the events of this stream are those of the plan
  have own : new.map (fun e => (e.streamId, e.streamVersion, e.event)) = plan.expected := by
    have filtered := congrArg (List.filter (Prod.fst · = plan.streamId)) commit.valid
    rw [filter_flatMap_key (fun p _ => p.expected_streamId) planned.nodupStreams mem,
      filter_map] at filtered
    rw [← hnew]
    exact filtered
  have events : new.map StoredEvent.event = plan.appendEvents := by
    rw [← plan.expected_event, ← own, map_map]
    rfl
  rw [← events] at encoded
  refine ⟨?_, encoded⟩
  -- the first of them has both the expected version and the next one of the stream
  cases new with
  | nil => exact absurd (eq_nil_of_length_eq_zero (length_of_mapM_ok encoded).symm) nonempty
  | cons first rest =>
    have expected : first.streamVersion = plan.expectedVersion + 1 :=
      plan.expected_version (by rw [← own]; rfl)
    have versions := (commit.next.consistent sound.db).state.versions plan.streamId
    rw [commit.stored, hnew] at versions
    have next := versions.getElem (i := (w.db.state.stream plan.streamId).length) (by simp)
    rw [getElem_append_right (le_refl _)] at next
    simp only [Nat.sub_self, getElem_cons_zero] at next
    omega

variable {agg agg' : Aggregate app} {aggregates : List (Aggregate app)} {uow' : UnitOfWork app}
  {db : Db}

lemma Sound.of_ready (sound : w.Sound schemas) (old : w.uows[u]? = some uow) {plan}
    (mem : plan ∈ uow.plans) (now : w.aggregates[plan.aggregate]? = some agg)
    (ready : plan.Ready u agg) : agg.faulted = false ∧ agg.streamId = some plan.streamId := by
  obtain ⟨e, enlisted, owner⟩ := ready.owned
  obtain ⟨ok, bound, -⟩ := (sound.aggregates now).enlisted e enlisted
  obtain ⟨_, now', stream⟩ := (sound.planned old).enlisted plan mem
  cases now.symm.trans now'
  rw [bound, stream e enlisted owner]
  exact ⟨ok, rfl⟩

lemma Committed.sound (trips : schemas.RoundTrips) (sound : w.Sound schemas)
    (old : w.uows[u]? = some uow) (commit : Committed u uow result w w') {plan : CommitPlan app}
    (mem : plan ∈ uow.plans) (now : w.aggregates[plan.aggregate]? = some agg)
    (ready : plan.Ready u agg) : (agg.committedAt plan.finalVersion).Sound schemas w'.db.state := by
  obtain ⟨ok, bound⟩ := sound.of_ready old mem now ready
  obtain ⟨new, stream, length, encoded⟩ := commit.extends sound old mem
  have decoded := schemas.decodeEvents_encode trips encoded
  have newLength : new.length = plan.pending.length := by
    rw [← length_of_mapM_ok encoded, length_map]
  obtain ⟨committed, reflects⟩ := (sound.aggregates now).reflects ok
  have version : agg.version = (w.db.state.stream plan.streamId).length := by
    rw [length, ready.version]
  suffices h : (agg.committedAt plan.finalVersion).Reflects schemas w'.db.state
      (committed ++ plan.pending.map PendingEvent.event) from .of_reflects rfl h
  refine ⟨?_, ?_, ?_, ?_⟩
  · rw [length_append, length_map, reflects.length, ready.version]
    rfl
  · intro free
    cases bound.symm.trans free
  · intro streamId h
    cases bound.symm.trans h
    have all : (w'.db.state.stream plan.streamId).take plan.finalVersion =
        w.db.state.stream plan.streamId ++ new := by
      rw [stream, take_of_length_le]
      rw [length_append, length, newLength]
      rfl
    have before := reflects.stream _ bound
    rw [version, take_length] at before
    show schemas.decodeEvents ((w'.db.state.stream plan.streamId).take plan.finalVersion) = _
    rw [all]
    exact mapM_append_ok.mpr ⟨committed, _, before, decoded, rfl⟩
  · have state := reflects.state
    rw [ready.pending] at state
    rw [show (agg.committedAt plan.finalVersion).pendingEvents = [] from rfl, map_nil, append_nil]
    exact state

/-- Where the commit has not touched it, an aggregate is as before; otherwise it was enlisted by `u`
and is free now. -/
lemma Committed.after (commit : Committed u uow result w w') {a}
    (now : w.aggregates[a]? = some agg) :
    w'.aggregates[a]? = some agg ∨
      ∃ plan ∈ uow.plans, plan.aggregate = a ∧ plan.Ready u agg ∧
        w'.aggregates[a]? = some (agg.committedAt plan.finalVersion) := by
  by_cases planned : a ∈ uow.plans.map (·.aggregate)
  · obtain ⟨plan, mem, rfl⟩ := mem_map.mp planned
    obtain ⟨_, now', ready, after⟩ := commit.marked plan mem
    cases now.symm.trans now'
    exact .inr ⟨plan, mem, rfl, ready, after⟩
  · exact .inl ((commit.others a planned).trans now)

lemma Committed.before (commit : Committed u uow result w w') {a}
    (now : w'.aggregates[a]? = some agg') :
    w.aggregates[a]? = some agg' ∨
      ∃ agg, ∃ plan ∈ uow.plans, plan.aggregate = a ∧ w.aggregates[a]? = some agg ∧
        plan.Ready u agg ∧ agg' = agg.committedAt plan.finalVersion := by
  by_cases planned : a ∈ uow.plans.map (·.aggregate)
  · obtain ⟨plan, mem, rfl⟩ := mem_map.mp planned
    obtain ⟨agg, now', ready, after⟩ := commit.marked plan mem
    exact .inr ⟨agg, plan, mem, rfl, now', ready, Option.some.inj (now.symm.trans after)⟩
  · exact .inl ((commit.others a planned).symm.trans now)

lemma Sound.start (limits : EventSourcingLimits) : (start limits : System app).Sound schemas where
  db := .start limits
  aggregates := nofun
  planned := nofun
  waiting := nofun
  held := nofun
  stored := nofun
  exclusive := nofun

lemma Sound.store (sound : w.Sound schemas) (next : w.db.Next db) :
    ({ w with db := db } : System app).Sound schemas where
  __ := sound
  db := next.consistent sound.db
  aggregates := fun now => (sound.aggregates now).grows next.grows
  stored := fun old committed plan mem =>
    (sound.stored old committed plan mem).trans (next.grows plan.streamId).length_le

lemma Sound.added (sound : w.Sound schemas) (new : agg.Sound schemas w.db.state)
    (free : agg.enlistment = none) :
    ({ w with aggregates := w.aggregates ++ [agg] } : System app).Sound schemas where
  __ := sound
  aggregates := by
    intro a agg' now
    obtain old | ⟨-, rfl⟩ := concat_cases now
    · exact sound.aggregates old
    · exact new
  planned := fun old => (sound.planned old).change rfl rfl rfl
    fun now => ⟨_, concat_old now, fun _ enlisted _ => enlisted⟩
  held := fun old waits => (sound.held old waits).change fun now _ _ => concat_old now

lemma Sound.unitOfWork (sound : w.Sound schemas) :
    ({ w with uows := w.uows ++ [{}] } : System app).Sound schemas where
  __ := sound
  planned := by
    intro u uow h
    obtain old | ⟨-, rfl⟩ := concat_cases h
    · exact sound.planned old
    · exact .empty _
  waiting := by
    intro u uow h waits
    obtain old | ⟨-, rfl⟩ := concat_cases h
    · exact sound.waiting old waits
    · exact absurd rfl waits
  held := by
    intro u uow t prepared h waits
    obtain old | ⟨-, rfl⟩ := concat_cases h
    · exact sound.held old waits
    · cases waits
  stored := by
    intro u uow h committed
    obtain old | ⟨-, rfl⟩ := concat_cases h
    · exact sound.stored old committed
    · cases committed
  exclusive := by
    intro u u' uow uow' h h' other committed committed'
    obtain old | ⟨-, rfl⟩ := concat_cases h
    · obtain old' | ⟨-, rfl⟩ := concat_cases h'
      · exact sound.exclusive old old' other committed committed'
      · cases committed'
    · cases committed

lemma Sound.follow (sound : w.Sound schemas) (follow : FollowAll schemas u w.aggregates aggregates)
    {u' : Nat} (old : w.uows[u']? = some uow') :
    uow'.Planned schemas u' aggregates ∧ (u ≠ u' → ∀ {t prepared},
      uow'.suspended = some (.commit t prepared) → uow'.Held u' aggregates prepared) := by
  refine ⟨(sound.planned old).change rfl rfl rfl fun now => ?_, fun other t prepared waits => ?_⟩
  · obtain ⟨agg', now', follows⟩ := follow.after now
    exact ⟨agg', now', fun e enlisted _ => follows.enlistment e enlisted⟩
  · refine (sound.held old waits).change fun now enlisted owner => ?_
    obtain ⟨_, now', follows⟩ := follow.after now
    rw [now', follows.frame _ enlisted (owner ▸ other.symm)]

lemma Sound.changed (sound : w.Sound schemas) {a} (now : w.aggregates[a]? = some agg)
    (follows : ∀ u, agg.Follows schemas u agg') :
    ({ w with aggregates := w.aggregates.set a agg' } : System app).Sound schemas where
  __ := sound
  aggregates := by
    intro b agg₁ h
    obtain ⟨-, same⟩ | ⟨rfl, rfl⟩ := set_cases h
    · exact sound.aggregates same
    · exact (follows 0).sound _ (sound.aggregates now)
  planned := fun old => (sound.follow ((FollowAll.refl _).set now (follows 0)) old).1
  held := fun {u} _ _ _ old waits =>
    (sound.follow ((FollowAll.refl _).set now (follows (u + 1))) old).2 (Nat.succ_ne_self u) waits

lemma Sound.put (sound : w.Sound schemas) (next : w.db.Next db)
    (aggregatesSound : ∀ {a : Nat} {agg}, aggregates[a]? = some agg →
      agg.Sound schemas db.state)
    (others : ∀ {u' : Nat} {uow}, w.uows[u']? = some uow → u ≠ u' →
      uow.Planned schemas u' aggregates ∧ ∀ {t prepared},
        uow.suspended = some (.commit t prepared) → uow.Held u' aggregates prepared)
    (planned : uow'.Planned schemas u aggregates)
    (waiting : uow'.suspended ≠ none → uow'.state = .entering ∨ uow'.state = .committing)
    (held : ∀ {t prepared}, uow'.suspended = some (.commit t prepared) →
      uow'.Held u aggregates prepared) (stored : uow'.state = .committed → ∀ plan ∈ uow'.plans,
      plan.finalVersion ≤ (db.state.stream plan.streamId).length)
    (apart : uow'.state = .committed → ∀ {u' : Nat} {uow}, w.uows[u']? = some uow →
      uow.state = .committed → ∀ plan ∈ uow'.plans, ∀ plan' ∈ uow.plans, plan.Apart plan') :
    (w.put u db ⟨uow', aggregates⟩).Sound schemas where
  db := next.consistent sound.db
  aggregates := aggregatesSound
  planned := by
    intro u' uow h
    obtain ⟨other, old⟩ | ⟨rfl, rfl⟩ := set_cases h
    · exact (others old other).1
    · exact planned
  waiting := by
    intro u' uow h
    obtain ⟨-, old⟩ | ⟨rfl, rfl⟩ := set_cases h
    · exact sound.waiting old
    · exact waiting
  held := by
    intro u' uow t prepared h
    obtain ⟨other, old⟩ | ⟨rfl, rfl⟩ := set_cases h
    · exact (others old other).2
    · exact held
  stored := by
    intro u' uow h committed plan mem
    obtain ⟨-, old⟩ | ⟨rfl, rfl⟩ := set_cases h
    · exact (sound.stored old committed plan mem).trans (next.grows plan.streamId).length_le
    · exact stored committed plan mem
  exclusive := by
    intro u₁ u₂ uow₁ uow₂ h₁ h₂ different committed₁ committed₂ plan₁ mem₁ plan₂ mem₂
    obtain ⟨-, old₁⟩ | ⟨rfl, rfl⟩ := set_cases h₁
    · obtain ⟨-, old₂⟩ | ⟨rfl, rfl⟩ := set_cases h₂
      · exact sound.exclusive old₁ old₂ different committed₁ committed₂ plan₁ mem₁ plan₂ mem₂
      · exact (apart committed₂ old₁ committed₁ plan₂ mem₂ plan₁ mem₁).symm
    · obtain ⟨-, old₂⟩ | ⟨rfl, rfl⟩ := set_cases h₂
      · exact apart committed₁ old₂ committed₂ plan₁ mem₁ plan₂ mem₂
      · exact absurd rfl different

lemma Sound.evolve (sound : w.Sound schemas) (old : w.uows[u]? = some uow) (next : w.db.Next db)
    (follow : FollowAll schemas u w.aggregates aggregates) (plans : uow'.plans = uow.plans)
    (sets : uow'.aggregates = uow.aggregates ∧ uow'.streams = uow.streams)
    (running : uow'.state ≠ .committed)
    (waiting : uow'.suspended ≠ none → uow'.state = .entering ∨ uow'.state = .committing)
    (held : ∀ {t prepared}, uow'.suspended = some (.commit t prepared) →
      uow'.Held u aggregates prepared) : (w.put u db ⟨uow', aggregates⟩).Sound schemas := by
  refine sound.put next ?_ (fun old' other => ?_) ?_ waiting held (fun h => absurd h running)
    (fun h => absurd h running)
  · intro a agg' now
    obtain ⟨_, before, follows⟩ := follow.before now
    exact (follows.sound _ (sound.aggregates before)).grows next.grows
  · exact ⟨(sound.follow follow old').1, (sound.follow follow old').2 other⟩
  · refine (sound.planned old).change plans sets.1 sets.2 fun now => ?_
    obtain ⟨agg', now', follows⟩ := follow.after now
    exact ⟨agg', now', fun e enlisted _ => follows.enlistment e enlisted⟩

lemma Sound.staged (sound : w.Sound schemas) (old : w.uows[u]? = some uow)
    (active : uow.state = .active) (next : w.db.Next db) {a : Nat} {streamId}
    (now : w.aggregates[a]? = some agg) (fresh : a ∉ uow.aggregates)
    (freshStream : streamId ∉ uow.streams)
    (enlisted : agg.enlist u streamId agg.pendingEvents = .ok agg')
    (encoded : agg.pendingEvents.mapM schemas.encode = .ok appendEvents) :
    (w.put u db ⟨{ uow with
      plans := uow.plans ++ [⟨a, streamId, agg.version, agg.pendingEvents, appendEvents⟩]
      aggregates := insert a uow.aggregates
      streams := insert streamId uow.streams }, w.aggregates.set a agg'⟩).Sound schemas := by
  obtain ⟨-, free, -, -, -, same⟩ := Aggregate.enlist_ok enlisted
  have running : uow.state ≠ .committed := by
    rw [active]
    exact nofun
  have idle : uow.suspended = none := by
    by_contra waits
    obtain h | h := sound.waiting old waits <;> cases active.symm.trans h
  refine sound.put next ?_ (fun {u'} _ old' other => ⟨?_, fun waits => ?_⟩)
    ((sound.planned old).stage now fresh freshStream enlisted encoded)
    (fun waits => absurd idle waits)
    (fun waits => ?_) (fun h => absurd h running) (fun h => absurd h running)
  · intro b agg₁ h
    obtain ⟨-, before⟩ | ⟨rfl, rfl⟩ := set_cases h
    · exact (sound.aggregates before).grows next.grows
    · exact (Aggregate.enlist_sound (sound.aggregates now) enlisted).grows next.grows
  · refine (sound.planned old').change rfl rfl rfl fun {b} agg₁ before => ?_
    by_cases hb : a = b
    · subst hb
      refine ⟨agg', set_new now, fun e he owner => ?_⟩
      rw [same] at he
      cases he
      exact absurd owner other
    · exact ⟨agg₁, (getElem?_set_ne hb).trans before, fun _ he _ => he⟩
  · refine (sound.held old' waits).change fun {b} agg₁ e before he _ => ?_
    rw [getElem?_set_ne, before]
    rintro rfl
    cases now.symm.trans before
    cases free.symm.trans he
  · cases idle.symm.trans waits

lemma Sound.committed (trips : schemas.RoundTrips) (sound : w.Sound schemas)
    (old : w.uows[u]? = some uow) (commit : Committed u uow result w w') : w'.Sound schemas := by
  obtain ⟨uow', uows, plans, sets, streams, _, idle⟩ := commit.uows
  have put : w' = w.put u w'.db ⟨uow', w'.aggregates⟩ := by
    rw [System.put, ← uows]
  rw [put]
  refine sound.put commit.next ?_ (fun {u'} _ old' other => ⟨?_, fun waits => ?_⟩) ?_
    (fun waits => absurd idle waits) (fun waits => ?_) ?_ ?_
  · intro a agg' now
    obtain before | ⟨agg, plan, mem, rfl, before, ready, rfl⟩ := commit.before now
    · exact (sound.aggregates before).grows commit.next.grows
    · exact commit.sound trips sound old mem before ready
  · refine (sound.planned old').change rfl rfl rfl fun {a} agg before => ?_
    obtain after | ⟨plan, mem, rfl, ready, after⟩ := commit.after before
    · exact ⟨agg, after, fun _ he _ => he⟩
    · exact ⟨_, after, fun _ h => by cases h⟩
  · refine (sound.held old' waits).change fun {a} agg e before he owner => ?_
    obtain after | ⟨plan, mem, rfl, ready, after⟩ := commit.after before
    · exact after
    · -- it is enlisted by `u`, not by the other one
      obtain ⟨_, he', owner'⟩ := ready.owned
      cases he.symm.trans he'
      exact absurd (owner'.symm.trans owner) other
  · refine (sound.planned old).change plans sets streams fun {a} agg before => ?_
    obtain after | ⟨plan, mem, rfl, _, after⟩ := commit.after before
    · exact ⟨agg, after, fun _ he _ => he⟩
    · exact ⟨_, after, fun _ h => by cases h⟩
  · cases idle.symm.trans waits
  · intro _ plan mem
    rw [plans] at mem
    obtain ⟨_, stream, length, encoded⟩ := commit.extends sound old mem
    rw [stream, length_append, length, ← length_map StoredEvent.event, length_of_mapM_ok encoded]
    exact le_refl _
  · intro _ u' uow'' old' committed plan mem plan' mem' same
    rw [plans] at mem
    obtain ⟨-, -, length, -⟩ := commit.extends sound old mem
    have before := sound.stored old' committed plan' mem'
    rw [← same, length] at before
    exact .inr before

lemma Sound.move (trips : schemas.RoundTrips) (sound : w.Sound schemas) (move : Move schemas w w') :
    w'.Sound schemas := by
  cases move with
  | store next => exact sound.store next
  | added new free => exact sound.added new free
  | unitOfWork => exact sound.unitOfWork
  | changed now follows => exact sound.changed now follows
  | acts old running next evolves state waiting =>
    refine sound.evolve old next evolves.follow evolves.plans ⟨evolves.aggregates, evolves.streams⟩
      (fun h => state (evolves.committed h)) (fun h => ?_) (fun h => ?_)
    · rw [evolves.suspended] at h
      obtain idle | ⟨-, entering⟩ := waiting
      · exact absurd idle h
      · exact .inl entering
    · rw [evolves.suspended] at h
      obtain idle | ⟨⟨t, enters⟩, -⟩ := waiting
      · cases idle.symm.trans h
      · cases enters.symm.trans h
  | staged old active next now fresh freshStream enlisted encoded =>
    exact sound.staged old active next now fresh freshStream enlisted encoded
  | waits old active next evolves state held =>
    refine sound.evolve old next evolves.follow evolves.plans ⟨evolves.aggregates, evolves.streams⟩
      ?_ (fun _ => .inr state) (fun h => ?_)
    · dsimp only
      rw [state]
      exact nofun
    · cases h
      refine ⟨?_, ?_⟩
      · dsimp only
        rw [evolves.plans]
        exact held.prepared
      · dsimp only
        rw [evolves.plans]
        exact held.ready
  | committed old waits commit => exact sound.committed trips old commit

lemma sound_of_reachable (trips : schemas.RoundTrips) {limits}
    (r : Reachable (step schemas) (start limits) w) : w.Sound schemas :=
  r.invariant (.start limits) fun sound _ h => sound.move trips (step_moves sound h)

end System

end ToriPy.EventSourcing
