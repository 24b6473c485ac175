import ToriPy.EventSourcing.Consistency
import ToriPy.EventSourcing.Aggregate

/-!
# What an aggregate reflects

An aggregate that is not faulted has the state that `_apply` makes of the first `version` events of
its stream followed by its pending events (`Aggregate.Reflects`). The streams of the store only
grow, so what an aggregate reflects it reflects for ever; an event that the aggregate raises extends
the pending part, and a replayed one the committed part.

`Aggregate.Follows` is what the methods that a unit of work calls on aggregates have in common,
apart from the one that marks them committed.
-/

namespace ToriPy.EventSourcing

open List

variable {app : App} {schemas : EventSchemaRegistry app} {st st' : StoreState}

def StoreState.Grows (st st' : StoreState) : Prop :=
  ∀ streamId, st.stream streamId <+: st'.stream streamId

def EventSchemaRegistry.decodeEvents (schemas : EventSchemaRegistry app)
    (stored : List StoredEvent) : Except EventSourcingError (List app.Event) :=
  stored.mapM fun e => (schemas.decode e).map RecordedEvent.event

/-- A record of an event that is committed where the record says. -/
def RecordedEvent.Genuine (schemas : EventSchemaRegistry app) (st : StoreState)
    (record : RecordedEvent app) : Prop :=
  ∃ i stored, record.streamVersion = i + 1 ∧ (st.stream record.streamId)[i]? = some stored ∧
    schemas.decode stored = .ok record

namespace Aggregate

variable {agg agg' : Aggregate app} {committed : List app.Event} {u : Nat} {streamId : StreamId}
  {events : List (PendingEvent app)} {page : List (RecordedEvent app)}

/-- The state is that of the committed events, which are the first of the stream, and the pending
ones. -/
structure Reflects (schemas : EventSchemaRegistry app) (st : StoreState) (agg : Aggregate app)
    (committed : List app.Event) : Prop where
  length : committed.length = agg.version
  unbound : agg.streamId = none → agg.version = 0
  stream : ∀ streamId, agg.streamId = some streamId →
    schemas.decodeEvents ((st.stream streamId).take agg.version) = .ok committed
  state : (committed ++ agg.pendingEvents.map PendingEvent.event).foldlM
    (app.apply agg.aggregateType) agg.initial = some agg.state

/-- An enlisted aggregate is as it was enlisted, and one that is not faulted reflects the store. -/
structure Sound (schemas : EventSchemaRegistry app) (st : StoreState) (agg : Aggregate app) :
    Prop where
  enlisted : ∀ e, agg.enlistment = some e →
    agg.faulted = false ∧ agg.streamId = some e.streamId ∧ agg.pendingEvents = e.events
  reflects : agg.faulted = false → ∃ committed, agg.Reflects schemas st committed

lemma Reflects.version_le (h : agg.Reflects schemas st committed)
    (bound : agg.streamId = some streamId) : agg.version ≤ (st.stream streamId).length := by
  have taken := length_of_mapM_ok (h.stream streamId bound)
  rw [h.length, length_take] at taken
  omega

lemma Reflects.grows (h : agg.Reflects schemas st committed) (grows : st.Grows st') :
    agg.Reflects schemas st' committed where
  __ := h
  stream := by
    intro streamId bound
    obtain ⟨_, longer⟩ := grows streamId
    rw [← longer, take_append_of_le_length (h.version_le bound)]
    exact h.stream streamId bound

lemma Sound.grows (h : agg.Sound schemas st) (grows : st.Grows st') : agg.Sound schemas st' where
  enlisted := h.enlisted
  reflects := fun ok => (h.reflects ok).imp fun _ reflects => reflects.grows grows

lemma Sound.of_faulted (free : agg.enlistment = none) (faulted : agg.faulted = true) :
    agg.Sound schemas st := by
  refine ⟨fun e h => ?_, fun ok => ?_⟩
  · rw [free] at h
    cases h
  · rw [faulted] at ok
    cases ok

lemma Sound.of_reflects (free : agg.enlistment = none) (h : agg.Reflects schemas st committed) :
    agg.Sound schemas st := by
  refine ⟨fun e h => ?_, fun _ => ⟨_, h⟩⟩
  rw [free] at h
  cases h

lemma construct_sound (aggregateType : app.AggregateType) (id : app.Id) (initial : app.State) :
    (construct aggregateType id initial).Sound schemas st :=
  @Sound.of_reflects _ _ _ _ [] rfl ⟨rfl, fun _ => rfl, nofun, rfl⟩

@[simp] lemma requireMutable_ok {i} :
    agg.requireMutable = .ok i ↔ agg.faulted = false ∧ agg.enlistment = none := by
  simp [requireMutable]

lemma applyEvent_cases (event : app.Event) (agg : Aggregate app) :
    (∃ state, app.apply agg.aggregateType agg.state event = some state ∧
      applyEvent event agg = .ok () { agg with state := state }) ∨
    applyEvent event agg = .error .application { agg with faulted := true } := by
  cases h : app.apply agg.aggregateType agg.state event with
  | none =>
    right
    rw [applyEvent, seq_get, h]
    rfl
  | some state =>
    left
    refine ⟨state, rfl, ?_⟩
    rw [applyEvent, seq_get, h]
    rfl

lemma raiseEvent_cases (event : app.Event) (metadata : EventMetadata) (agg : Aggregate app) :
    finalState (raiseEvent event metadata agg) = agg ∨
    agg.faulted = false ∧ agg.enlistment = none ∧
      (finalState (raiseEvent event metadata agg) = { agg with faulted := true } ∨
      ∃ state, app.apply agg.aggregateType agg.state event = some state ∧
        finalState (raiseEvent event metadata agg) =
          { agg with
            state := state, pendingEvents := agg.pendingEvents ++ [⟨event, metadata⟩] }) := by
  cases mutable : agg.requireMutable with
  | error =>
    left
    rw [raiseEvent, seq_get, mutable]
    rfl
  | ok =>
    obtain ⟨ok, free⟩ := requireMutable_ok.mp mutable
    refine .inr ⟨ok, free, ?_⟩
    rw [raiseEvent, seq_get, mutable, seq_apply]
    simp only [check, seq_apply]
    obtain ⟨state, applied, h⟩ | h := applyEvent_cases event agg
    · rw [h]
      exact .inr ⟨state, applied, rfl⟩
    · rw [h]
      exact .inl rfl

lemma foldlM_snoc {step : app.State → app.Event → Option app.State} {xs : List app.Event}
    {x : app.Event} {s₀ s s'} (h : xs.foldlM step s₀ = some s)
    (last : step s x = some s') : (xs ++ [x]).foldlM step s₀ = some s' := by
  rw [foldlM_append, h]
  simp [last]

lemma Reflects.raise (h : agg.Reflects schemas st committed) {event metadata state}
    (applied : app.apply agg.aggregateType agg.state event = some state) :
    ({ agg with state := state, pendingEvents := agg.pendingEvents ++ [⟨event, metadata⟩] } :
      Aggregate app).Reflects schemas st committed where
  __ := h
  state := by
    rw [map_append, ← append_assoc]
    exact foldlM_snoc h.state applied

/-- What the methods that a unit of work `u` calls on an aggregate leave of it: nothing changes for
the aggregate of another unit of work, and no enlistment is new. -/
structure Follows (schemas : EventSchemaRegistry app) (u : Nat) (agg agg' : Aggregate app) :
    Prop where
  sound : ∀ st, agg.Sound schemas st → agg'.Sound schemas st
  version : agg'.version = agg.version
  streamId : ∀ streamId, agg.streamId = some streamId → agg'.streamId = some streamId
  frame : ∀ e, agg.enlistment = some e → e.owner ≠ u → agg' = agg
  enlistment : ∀ e, agg'.enlistment = some e → agg.enlistment = some e

lemma Follows.refl (agg : Aggregate app) : agg.Follows schemas u agg :=
  ⟨fun _ h => h, rfl, fun _ h => h, fun _ _ _ => rfl, fun _ h => h⟩

lemma Follows.trans {agg''} (h : agg.Follows schemas u agg')
    (h' : agg'.Follows schemas u agg'') : agg.Follows schemas u agg'' where
  sound := fun st sound => h'.sound st (h.sound st sound)
  version := h'.version.trans h.version
  streamId := fun _ bound => h'.streamId _ (h.streamId _ bound)
  frame := by
    intro e enlisted other
    have same := h.frame e enlisted other
    subst same
    exact h'.frame e enlisted other
  enlistment := fun e enlisted => h.enlistment e (h'.enlistment e enlisted)

lemma raiseEvent_follows (event : app.Event) (metadata : EventMetadata) (agg : Aggregate app) :
    agg.Follows schemas u (finalState (raiseEvent event metadata agg)) := by
  obtain same | ⟨ok, free, faulted | ⟨_, applied, made⟩⟩ := raiseEvent_cases event metadata agg
  · rw [same]
    exact .refl agg
  · rw [faulted]
    refine ⟨fun st _ => .of_faulted free rfl, rfl, fun _ h => h, fun e h => ?_, fun _ h => h⟩
    rw [free] at h
    cases h
  · rw [made]
    refine ⟨fun st sound => ?_, rfl, fun _ h => h, fun e h => ?_, fun _ h => h⟩
    · obtain ⟨_, reflects⟩ := sound.reflects ok
      exact .of_reflects free (reflects.raise applied)
    · rw [free] at h
      cases h

@[simp] lemma ownedEnlistment_ok {e} :
    agg.ownedEnlistment u = .ok e ↔ agg.enlistment = some e ∧ e.owner = u := by
  unfold ownedEnlistment
  split
  · rename_i none
    simp [none]
  rename_i enlistment some
  rw [some]
  simp only [bind_ok, require_ok]
  constructor
  · rintro ⟨_, owner, h⟩
    cases h
    exact ⟨rfl, owner⟩
  · rintro ⟨h, owner⟩
    cases h
    exact ⟨(), owner, rfl⟩

lemma Reflects.congr (h : agg.Reflects schemas st committed)
    (aggregateType : agg'.aggregateType = agg.aggregateType) (initial : agg'.initial = agg.initial)
    (state : agg'.state = agg.state) (version : agg'.version = agg.version)
    (streamId : agg'.streamId = agg.streamId)
    (pending : agg'.pendingEvents = agg.pendingEvents) : agg'.Reflects schemas st committed := by
  obtain ⟨length, unbound, stream, folded⟩ := h
  rw [← version] at length
  refine ⟨length, ?_, ?_, ?_⟩
  · rw [streamId, version]
    exact unbound
  · rw [streamId, version]
    exact stream
  rw [pending, initial, state]
  cases agg
  cases agg'
  cases aggregateType
  exact folded

lemma enlist_ok (h : agg.enlist u streamId events = .ok agg') :
    agg.faulted = false ∧ agg.enlistment = none ∧ events ≠ [] ∧ events = agg.pendingEvents ∧
      (∀ expected, agg.streamId = some expected → expected = streamId) ∧
      agg' = { agg with
        streamId := some streamId
        enlistment := some ⟨u, streamId, events⟩
        preparedCommit := none } := by
  simp only [enlist, bind_ok, requireMutable_ok, require_ok] at h
  obtain ⟨_, ⟨ok, free⟩, _, -, _, ⟨nonempty, all⟩, _, stream, h⟩ := h
  cases h
  refine ⟨ok, free, nonempty, all, ?_, rfl⟩
  intro expected bound
  rw [requireStream, bound] at stream
  exact require_ok.mp stream

lemma Reflects.bind (h : agg.Reflects schemas st committed)
    (stream : ∀ expected, agg.streamId = some expected → expected = streamId) :
    ({ agg with streamId := some streamId } : Aggregate app).Reflects schemas st committed := by
  refine ⟨h.length, nofun, ?_, h.state⟩
  rintro _ ⟨⟩
  cases bound : agg.streamId with
  | some expected =>
    cases stream expected bound
    exact h.stream _ bound
  | none =>
    have zero := h.unbound bound
    have nil := h.length
    rw [zero] at nil
    cases eq_nil_of_length_eq_zero nil
    show schemas.decodeEvents ((st.stream streamId).take agg.version) = .ok []
    rw [zero, take_zero]
    rfl

lemma enlist_sound (sound : agg.Sound schemas st) (h : agg.enlist u streamId events = .ok agg') :
    agg'.Sound schemas st := by
  obtain ⟨ok, _, -, all, stream, rfl⟩ := enlist_ok h
  obtain ⟨committed, reflects⟩ := sound.reflects ok
  refine ⟨?_, fun _ => ⟨committed, (reflects.bind stream).congr rfl rfl rfl rfl rfl rfl⟩⟩
  rintro _ ⟨⟩
  exact ⟨ok, rfl, all.symm⟩

lemma prepareCommit_ok {version} (h : agg.prepareCommit u events version = .ok agg') :
    ∃ e, agg.enlistment = some e ∧ e.owner = u ∧ agg.pendingEvents = events ∧
      version = agg.version + events.length ∧
      agg' = { agg with preparedCommit := some ⟨u, events, version⟩ } := by
  simp only [prepareCommit, bind_ok, ownedEnlistment_ok, require_ok] at h
  obtain ⟨e, ⟨enlisted, owner⟩, _, ⟨-, pending⟩, _, final, h⟩ := h
  cases h
  exact ⟨e, enlisted, owner, pending.symm, final, rfl⟩

lemma prepareCommit_follows {version} (h : agg.prepareCommit u events version = .ok agg') :
    agg.Follows schemas u agg' := by
  obtain ⟨e, enlisted, owner, -, -, rfl⟩ := prepareCommit_ok h
  refine ⟨fun st sound => ?_, rfl, fun _ h => h, fun e' h other => ?_, fun _ h => h⟩
  · exact ⟨sound.enlisted, fun ok => (sound.reflects ok).imp fun _ reflects =>
      reflects.congr rfl rfl rfl rfl rfl rfl⟩
  · rw [enlisted] at h
    cases h
    exact absurd owner other

lemma release_follows (h : agg.release u = .ok agg') : agg.Follows schemas u agg' := by
  simp only [release, bind_ok, ownedEnlistment_ok] at h
  obtain ⟨e, ⟨enlisted, owner⟩, h⟩ := h
  cases h
  refine ⟨fun st sound => ?_, rfl, fun _ h => h, fun e' h other => ?_, fun _ h => by cases h⟩
  · obtain ⟨_, reflects⟩ := sound.reflects (sound.enlisted e enlisted).1
    exact .of_reflects rfl (reflects.congr rfl rfl rfl rfl rfl rfl)
  · rw [enlisted] at h
    cases h
    exact absurd owner other

/-- What `_release` leaves: the binding to the stream stays. -/
def released (agg : Aggregate app) : Aggregate app :=
  { agg with enlistment := none, preparedCommit := none }

lemma release_of_owner {e} (enlisted : agg.enlistment = some e)
    (owner : e.owner = u) : agg.release u = .ok agg.released := by
  rw [release, ownedEnlistment_ok.mpr ⟨enlisted, owner⟩]
  rfl

lemma enlist_release_follows (enlisted : agg.enlist u streamId events = .ok agg') :
    agg.Follows schemas u agg'.released := by
  have follows : agg'.Follows schemas u agg'.released := by
    obtain ⟨-, -, -, -, -, rfl⟩ := enlist_ok enlisted
    exact release_follows (release_of_owner rfl rfl)
  obtain ⟨_, free, -, -, stream, rfl⟩ := enlist_ok enlisted
  refine ⟨fun st sound => follows.sound st (enlist_sound sound enlisted), rfl, ?_, ?_, nofun⟩
  · intro expected bound
    cases stream expected bound
    rfl
  · intro e h
    rw [free] at h
    cases h

lemma fault_follows (h : agg.fault u = .ok agg') : agg.Follows schemas u agg' := by
  simp only [fault, bind_ok, ownedEnlistment_ok] at h
  obtain ⟨e, ⟨enlisted, owner⟩, h⟩ := h
  cases h
  refine ⟨fun st sound => .of_faulted rfl rfl, rfl, fun _ h => h, fun e' h other => ?_, fun _ h => by cases h⟩
  rw [enlisted] at h
  cases h
  exact absurd owner other

lemma Reflects.replay (h : agg.Reflects schemas st committed) {record : RecordedEvent app}
    (genuine : record.Genuine schemas st) (bound : agg.streamId = some record.streamId)
    (version : record.streamVersion = agg.version + 1) (nothing : agg.pendingEvents = []) {state}
    (applied : app.apply agg.aggregateType agg.state record.event = some state) :
    ({ agg with state := state, version := record.streamVersion } : Aggregate app).Reflects schemas
      st (committed ++ [record.event]) where
  length := by
    rw [length_append, h.length]
    exact version.symm
  unbound := by
    intro free
    rw [bound] at free
    cases free
  stream := by
    rintro streamId h'
    rw [bound] at h'
    cases h'
    obtain ⟨i, _, place, found, decoded⟩ := genuine
    rw [version, Nat.add_right_cancel_iff] at place
    subst place
    show schemas.decodeEvents ((st.stream record.streamId).take record.streamVersion) = _
    rw [version, take_add_one, found]
    refine mapM_append_ok.mpr ⟨_, [record.event], h.stream _ bound, ?_, rfl⟩
    refine mapM_cons_ok.mpr ⟨record.event, [], ?_, rfl, rfl⟩
    rw [decoded]
    rfl
  state := by
    have folded := h.state
    rw [nothing, map_nil, append_nil] at folded
    rw [show ({ agg with state := state, version := record.streamVersion } :
      Aggregate app).pendingEvents = [] from nothing, map_nil, append_nil]
    exact foldlM_snoc folded applied

/-- Replaying a valid page of genuine records; the induction is on the page, whose next record is
for the next version. -/
lemma replayRecords_sound (genuine : ∀ record ∈ page, record.Genuine schemas st)
    (valid : validatePage streamId (agg.version + 1) page = .ok ())
    (bound : agg.streamId = some streamId) (free : agg.enlistment = none)
    (nothing : agg.pendingEvents = []) (h : agg.Sound schemas st) (ok : agg.faulted = false) :
    (finalState (page.forM replayRecord agg)).Sound schemas st ∧
      (finalState (page.forM replayRecord agg)).enlistment = none := by
  induction page generalizing agg with
  | nil => exact ⟨h, free⟩
  | cons record page ih =>
    simp only [validatePage, bind_ok, require_ok] at valid
    obtain ⟨_, sameStream, _, version, valid⟩ := valid
    obtain ⟨_, reflects⟩ := h.reflects ok
    rw [forM_cons_eq, seq_apply, replayRecord, seq_apply]
    obtain ⟨_, applied, h⟩ | h := applyEvent_cases record.event agg
    · rw [h]
      have next := reflects.replay (genuine record mem_cons_self)
        (bound.trans (congrArg some sameStream.symm)) version nothing applied
      refine ih (fun r hr => genuine r (mem_cons_of_mem _ hr)) ?_ bound free nothing
        (.of_reflects free next) ok
      rw [show _ = record.streamVersion from rfl, version]
      exact valid
    · rw [h]
      exact ⟨.of_faulted free rfl, free⟩

lemma replay_keeps (genuine : ∀ record ∈ page, record.Genuine schemas st) :
    Keeps (fun agg => agg.Sound schemas st ∧ agg.enlistment = none) (replay page) := by
  refine Keeps.bind_get fun agg ⟨sound, free⟩ => ?_
  cases mutable : agg.requireMutable with
  | error => exact ⟨sound, free⟩
  | ok =>
    obtain ⟨ok, -⟩ := requireMutable_ok.mp mutable
    by_cases nothing : agg.pendingEvents = []
    · simp only [seq_apply, check, require, if_pos nothing]
      split
      · exact ⟨sound, free⟩
      rename_i first rest
      cases valid : validatePage (agg.streamId.getD first.streamId) (agg.version + 1)
        (first :: rest) with
      | error => exact ⟨.of_faulted free rfl, free⟩
      | ok =>
        obtain ⟨_, reflects⟩ := sound.reflects ok
        have bind : ∀ expected, agg.streamId = some expected →
            expected = agg.streamId.getD first.streamId := by
          intro expected bound
          rw [bound]
          rfl
        exact replayRecords_sound genuine valid rfl free nothing
          (.of_reflects free (reflects.bind bind)) ok
    · simp only [seq_apply, check, require, if_neg nothing]
      exact ⟨sound, free⟩

end Aggregate

end ToriPy.EventSourcing
