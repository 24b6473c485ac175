import ToriPy.PersistentStreams.Calls
import ToriPy.PersistentStreams.History

/-!
# What a section leaves behind

One inversion lemma for each section of `PersistentStreams/Leases.lean`: what it must have found to
return, and the state after it. The two sections of `acquire` change most, so what they leave is a
structure each (`Sys.Enters`, `Sys.Installs`), in terms of lookups. Later proofs use these and never
unfold a section.
-/

namespace ToriPy.PersistentStreams

namespace Sys

variable {s s' : Sys} {f : AcquireFrame} {id : LeaseId} {lease : Lease}

lemma modify_objects (s : Sys) (id : LeaseId) (g : Lease → Lease) (j : LeaseId) :
    (s.modify id g).objects[j]? = (s.objects[j]?).map fun l => if id = j then g l else l := by
  simp only [modify, List.getElem?_modify]
  rfl

lemma returned_iff {id} : s.returned id = true ↔ ∃ key owner, .acquired id key owner ∈ s.trace := by
  simp only [returned, List.any_eq_true]
  constructor
  · rintro ⟨e, mem, he⟩
    cases e <;> simp at he
    subst he
    exact ⟨_, _, mem⟩
  · rintro ⟨_, _, mem⟩
    exact ⟨_, mem, by simp⟩

lemma requireOwner_ok {log : Log} {key owner u} :
    log.requireOwner key owner = .ok u ↔ log.closed = false ∧
    log.owners.lookup key = some owner := by
  simp [Log.requireOwner, Log.requireOpen]

/-- What the second section of `acquire` leaves when it installs. -/
structure Installs (s : Sys) (f : AcquireFrame) (token : OwnershipToken) (s' : Sys) : Prop where
  opened : s.log.closed = false
  fresh : token = ⟨f.subscription.ownerId, (s.log.generations.lookup f.key).getD 0 + 1⟩
  marked : ∀ marker, f.transferMarker = some marker →
    s.log.transfers.lookup f.key = some marker ∧
      (s.log.leases.lookup f.key = f.currentLease →
        ∀ id lease, f.currentLease = some id → s.objects[id]? = some lease → lease.inFlight = none)
  plain : f.transferMarker = none → s.log.leases.lookup f.key = none
  leases : ∀ key, s'.log.leases.lookup key =
    if key = f.key then some s.objects.length else s.log.leases.lookup key
  owners : ∀ key, s'.log.owners.lookup key =
    if key = f.key then some token else s.log.owners.lookup key
  size : Dict.size s'.log.owners = Dict.size (s.log.owners.insert f.key token)
  transfers : ∀ key, s'.log.transfers.lookup key =
    if f.transferMarker.isSome ∧ key = f.key then none else s.log.transfers.lookup key
  generations : s'.log.generations = s.log.generations.insert f.key token.generation
  objects : s'.objects = s.objects ++
    [{ subscription := f.subscription, key := f.key, owner := token, store := f.binding.store }]
  trace : s'.trace = s.trace ++ [.installed f.key token]
  stores : s'.stores = s.stores
  streams : s'.log.streams = s.log.streams
  brokerCursors : s'.log.brokerCursors = s.log.brokerCursors
  groupStrategies : s'.log.groupStrategies = s.log.groupStrategies
  pending : s'.log.pendingGroupStrategies = s.log.pendingGroupStrategies
  closed : s'.log.closed = s.log.closed
  limit : s'.log.maxActiveLeases = s.log.maxActiveLeases

lemma makeRoom_ok {log} (h : s.makeRoom f = .ok log) :
    (∃ marker, f.transferMarker = some marker ∧ s.log.transfers.lookup f.key = some marker ∧
      (s.log.leases.lookup f.key = f.currentLease ∧
          (∀ id ∈ f.currentLease, ∀ lease ∈ s.objects[id]?, lease.inFlight = none) ∧
          log = { s.log with
            leases := s.log.leases.erase f.key
            owners := s.log.owners.erase f.key
            transfers := s.log.transfers.erase f.key } ∨
        s.log.leases.lookup f.key ≠ f.currentLease ∧
          log = { s.log with transfers := s.log.transfers.erase f.key })) ∨
      f.transferMarker = none ∧ s.log.leases.lookup f.key = none ∧ log = s.log := by
  unfold makeRoom at h
  split at h
  · rename_i marker hmarker
    simp only [bind_ok, require_ok] at h
    obtain ⟨_, hm, h⟩ := h
    refine .inl ⟨marker, hmarker, hm, ?_⟩
    split at h
    · rename_i same
      simp only [bind_ok, require_ok] at h
      obtain ⟨_, idle, h⟩ := h
      cases h
      exact .inl ⟨same, idle, rfl⟩
    · rename_i other
      cases h
      exact .inr ⟨other, rfl⟩
  · rename_i hmarker
    simp only [bind_ok, require_ok] at h
    obtain ⟨_, hnone, h⟩ := h
    cases h
    exact .inr ⟨hmarker, hnone, rfl⟩

lemma install_ok (h : s.install f = .ok s') : ∃ token, s.Installs f token s' := by
  simp only [install, bind_ok, Log.requireOpen, require_ok] at h
  obtain ⟨_, hopen, _, room, h⟩ := h
  obtain ⟨_, hmarker, hm, ⟨same, idle, rfl⟩ | ⟨other, rfl⟩⟩ | ⟨hmarker, hnone, rfl⟩ :=
    makeRoom_ok room <;> cases h
  · refine ⟨_, hopen, rfl, ?_, ?_, ?_, ?_, ?_, ?_, rfl, rfl, rfl, rfl, rfl, rfl, rfl, rfl, rfl, rfl⟩
    · intro m hm'
      cases hmarker.symm.trans hm'
      exact ⟨hm, fun _ id lease hid hl => idle id hid lease hl⟩
    · simp [hmarker]
    · intro key
      simp only [Dict.lookup_insert_ite, Dict.lookup_erase_ite]
      split <;> rfl
    · intro key
      simp only [Dict.lookup_insert_ite, Dict.lookup_erase_ite]
      split <;> rfl
    · exact Dict.size_insert_erase _ _ _
    · intro key
      simp [hmarker, Dict.lookup_erase_ite]
  · refine ⟨_, hopen, rfl, ?_, ?_, ?_, ?_, rfl, ?_, rfl, rfl, rfl, rfl, rfl, rfl, rfl, rfl, rfl,
      rfl⟩
    · intro m hm'
      cases hmarker.symm.trans hm'
      exact ⟨hm, fun same => absurd same other⟩
    · simp [hmarker]
    · intro key
      rw [Dict.lookup_insert_ite]
    · intro key
      rw [Dict.lookup_insert_ite]
    · intro key
      simp [hmarker, Dict.lookup_erase_ite]
  · refine ⟨_, hopen, rfl, ?_, fun _ => hnone, ?_, ?_, rfl, ?_, rfl, rfl, rfl, rfl, rfl, rfl, rfl,
      rfl, rfl, rfl⟩
    · simp [hmarker]
    · intro key
      rw [Dict.lookup_insert_ite]
    · intro key
      rw [Dict.lookup_insert_ite]
    · simp [hmarker]

/-- What the first section of `acquire` leaves when it returns. -/
structure Enters (s : Sys) (f : AcquireFrame) (marker : Marker) (s' : Sys) : Prop where
  opened : s.log.closed = false
  strategy : ∀ b, s.log.groupStrategies.lookup f.scope = some b → b = f.binding
  reserved : ∃ count,
    (s.log.pendingGroupStrategies.lookup f.scope = none ∧ count = 0 ∨
      s.log.pendingGroupStrategies.lookup f.scope = some (f.binding, count)) ∧
    s'.log.pendingGroupStrategies =
      s.log.pendingGroupStrategies.insert f.scope (f.binding, count + 1)
  captured : f.currentLease = s.log.leases.lookup f.key
  cases : f.currentLease = none ∧ f.transferMarker = none ∧
      Dict.size s.log.owners < s.log.maxActiveLeases ∧
      s' = { s with
        log := { s.log with pendingGroupStrategies := s'.log.pendingGroupStrategies } } ∨
    ∃ id, f.currentLease = some id ∧ f.transferMarker = some marker ∧
      s.log.transfers.lookup f.key = none ∧
      s' = { s with
        log := { s.log with
          pendingGroupStrategies := s'.log.pendingGroupStrategies
          transfers := s.log.transfers.insert f.key marker } }.modify id
            fun lease => { lease with revocationRequested := true }

lemma reserveStrategy_ok {log log' : Log} {scope binding}
    (h : log.reserveStrategy scope binding = .ok log') :
    (∀ b, log.groupStrategies.lookup scope = some b → b = binding) ∧
    ∃ count, (log.pendingGroupStrategies.lookup scope = none ∧ count = 0 ∨
        log.pendingGroupStrategies.lookup scope = some (binding, count)) ∧
      log' = { log with
        pendingGroupStrategies :=
          log.pendingGroupStrategies.insert scope (binding, count + 1) } := by
  simp only [Log.reserveStrategy, bind_ok, require_ok] at h
  obtain ⟨_, fixed, _, same, h⟩ := h
  refine ⟨fixed, ?_⟩
  cases hp : log.pendingGroupStrategies.lookup scope with
  | none =>
    rw [hp] at h
    cases h
    exact ⟨0, .inl ⟨rfl, rfl⟩, rfl⟩
  | some reserved =>
    obtain ⟨b, count⟩ := reserved
    have hb : b = binding := same (b, count) hp
    subst hb
    rw [hp] at h
    cases h
    exact ⟨count, .inr rfl, rfl⟩

lemma acquireChecks_ok {subscription partition key}
    (h : s.acquireChecks subscription partition = .ok key) : s.log.closed = false := by
  simp only [acquireChecks, bind_ok, Log.requireOpen, require_ok] at h
  exact h.choose_spec.1

/-- The pending table after an `acquire` that raised in its first section: untouched, or with a
reservation made and given back. -/
def Refused (pending pending' : Dict Scope (StrategyBinding × Nat)) : Prop :=
  pending' = pending ∨
    ∃ scope b count,
      (pending.lookup scope = none ∧ count = 0 ∨ pending.lookup scope = some (b, count)) ∧
      pending' = Log.withoutReservation (pending.insert scope (b, count + 1)) scope b

lemma acquireEnter_cases (s : Sys) (subscription : Subscription) (partition : Int)
    (binding : StrategyBinding) (transfer : Bool) (marker : Marker) :
    (∃ f s', s.acquireEnter subscription partition binding transfer marker = (.ok f, s') ∧
      s.Enters f marker s') ∨
    ∃ e pending, s.acquireEnter subscription partition binding transfer marker =
        (.error e, { s with log := { s.log with pendingGroupStrategies := pending } }) ∧
      Refused s.log.pendingGroupStrategies pending := by
  unfold acquireEnter
  cases hc : s.acquireChecks subscription partition with
  | error e => exact .inr ⟨e, _, rfl, .inl rfl⟩
  | ok key =>
    have hopen := acquireChecks_ok hc
    dsimp only
    cases hr : s.log.reserveStrategy (key.stream, key.group) binding with
    | error e => exact .inr ⟨e, _, rfl, .inl rfl⟩
    | ok log =>
      obtain ⟨fixed, count, hcount, rfl⟩ := reserveStrategy_ok hr
      -- every refusal from here on gives the reservation back
      have givenBack : Refused s.log.pendingGroupStrategies _ := .inr ⟨_, _, count, hcount, rfl⟩
      dsimp only
      cases hl : s.log.leases.lookup key with
      | some current =>
        dsimp only
        split
        · exact .inr ⟨_, _, rfl, givenBack⟩
        cases ht : s.log.transfers.lookup key with
        | some => exact .inr ⟨_, _, rfl, givenBack⟩
        | none =>
          refine .inl ⟨_, _, rfl, hopen, fixed, ⟨count, hcount, rfl⟩, hl.symm, ?_⟩
          exact .inr ⟨current, rfl, rfl, ht, rfl⟩
      | none =>
        dsimp only
        split
        · exact .inr ⟨_, _, rfl, givenBack⟩
        · rename_i room
          refine .inl ⟨_, _, rfl, hopen, fixed, ⟨count, hcount, rfl⟩, hl.symm, ?_⟩
          exact .inl ⟨rfl, rfl, Nat.lt_of_not_le room, rfl⟩

lemma afterEnter_wait {since} (h : s.afterEnter f = .wait id since) :
    f.currentLease = some id ∧ ∃ lease, s.objects[id]? = some lease ∧
      lease.deliveryCompleted.value = false ∧ since = lease.deliveryCompleted.sets := by
  unfold afterEnter at h
  split at h
  · cases h
  rename_i cur hcur
  split at h
  · cases h
  rename_i lease obj
  split at h
  · rename_i busy
    cases h
    exact ⟨hcur, lease, obj, busy.2, rfl⟩
  · cases h

lemma afterEnter_cases (s : Sys) (f : AcquireFrame) :
    s.afterEnter f = .entered ∨ ∃ id since, s.afterEnter f = .wait id since := by
  unfold afterEnter
  split
  · exact .inl rfl
  split
  · exact .inl rfl
  · split
    · exact .inr ⟨_, _, rfl⟩
    · exact .inl rfl

variable {cursor expected : ResumeCursor} {record : StoredRecord}

lemma validateAdvance_ok {offset u} :
    validateAdvance expected (.lastSuccessful offset) = .ok u ↔ expected.Admits offset := by
  obtain ⟨kind, o⟩ := expected
  cases kind <;>
    simp [validateAdvance, ResumeCursor.Admits, ResumeCursor.lastSuccessful]

lemma createCursor_ok {store} (h : s.createCursor lease store cursor = .ok s') :
    cursor.kind = .initialized ∧ (s.stores store).owners.lookup lease.key = some lease.owner ∧
      ((∃ c, (s.stores store).cursors.lookup lease.key = some c) ∧ s' = s ∨
        (s.stores store).cursors.lookup lease.key = none ∧
          s' = (s.setStore store { s.stores store with
            cursors := (s.stores store).cursors.insert lease.key cursor }).emit
              (.created (some store) lease.key lease.owner cursor.offset)) := by
  simp only [createCursor, bind_ok, CheckpointStore.compareAndCreate, CheckpointStore.requireOwner,
    require_ok] at h
  obtain ⟨⟨_, _⟩, ⟨_, kind, _, owner, made⟩, h⟩ := h
  refine ⟨kind, owner, ?_⟩
  cases hc : (s.stores store).cursors.lookup lease.key with
  | some c =>
    rw [hc] at h
    cases h
    exact .inl ⟨⟨c, rfl⟩, rfl⟩
  | none =>
    rw [hc] at h made
    cases h
    cases made
    exact .inr ⟨rfl, rfl⟩

lemma initBroker_ok {clock} (h : s.initBroker lease clock = .ok s') :
    s.log.owners.lookup lease.key = some lease.owner ∧
      ((∃ c, s.log.brokerCursors.lookup lease.key = some c) ∧ s' = s ∨
        s.log.brokerCursors.lookup lease.key = none ∧ ∃ start,
          s' = { s with
            log := { s.log with
              brokerCursors := s.log.brokerCursors.insert lease.key (.initialized start) }
            trace := s.trace ++ [.created none lease.key lease.owner start] }) := by
  simp only [initBroker, bind_ok, requireOwner_ok] at h
  obtain ⟨_, ⟨-, owner⟩, h⟩ := h
  refine ⟨owner, ?_⟩
  cases hc : s.log.brokerCursors.lookup lease.key with
  | some c =>
    rw [hc] at h
    cases h
    exact .inl ⟨⟨c, rfl⟩, rfl⟩
  | none =>
    rw [hc] at h
    simp only [bind_ok] at h
    obtain ⟨start, -, h⟩ := h
    cases h
    exact .inr ⟨rfl, start, rfl⟩

lemma saveCursor_ok {store byRunner}
    (h : s.saveCursor lease store record expected byRunner = .ok s') :
    (s.stores store).owners.lookup lease.key = some lease.owner ∧
      (s.stores store).cursors.lookup lease.key = some expected ∧ expected.Admits record.offset ∧
      s' = (s.setStore store { s.stores store with
        cursors := (s.stores store).cursors.insert lease.key (.lastSuccessful record.offset) }).emit
          (.saved (some store) lease.key lease.owner record byRunner) := by
  simp only [saveCursor, bind_ok, CheckpointStore.save, CheckpointStore.requireOwner, require_ok,
    validateAdvance_ok] at h
  obtain ⟨_, ⟨_, owner, _, current, _, -, _, ahead, h'⟩, h⟩ := h
  cases h'
  cases h
  exact ⟨owner, current, ahead, rfl⟩

lemma commitBroker_ok {byRunner} (h : s.commitBroker id lease record expected byRunner = .ok s') :
    s.log.owners.lookup lease.key = some lease.owner ∧
      s.log.brokerCursors.lookup lease.key = some expected ∧ expected.Admits record.offset ∧
      s' = { s.modify id Lease.completeDelivery with
        log := { s.log with
          brokerCursors := s.log.brokerCursors.insert lease.key (.lastSuccessful record.offset) }
        trace := s.trace ++ [.saved none lease.key lease.owner record byRunner] } := by
  simp only [commitBroker, bind_ok, requireOwner_ok, require_ok, validateAdvance_ok] at h
  obtain ⟨_, ⟨-, owner⟩, _, current, _, ahead, h⟩ := h
  cases h
  exact ⟨owner, current, ahead, rfl⟩

lemma complete_ok (h : s.complete id lease = .ok s') : s' = s.modify id Lease.completeDelivery := by
  simp only [complete, bind_ok] at h
  obtain ⟨_, _, h⟩ := h
  cases h
  rfl

lemma loadBroker_ok (h : s.loadBroker lease = .ok cursor) :
    s.log.brokerCursors.lookup lease.key = some cursor := by
  simp only [loadBroker, bind_ok] at h
  obtain ⟨_, _, h⟩ := h
  split at h
  · cases h
    assumption
  · cases h

lemma checkpointChecks_ok {ref} (h : s.checkpointChecks lease ref = .ok record) :
    ref = .stored record ∧ lease.inFlight = some record := by
  simp only [checkpointChecks, bind_ok, require_ok] at h
  obtain ⟨_, _, _, same, h⟩ := h
  cases h
  obtain ⟨r, hr, rfl⟩ := Option.map_eq_some_iff.mp same
  exact ⟨rfl, hr⟩

lemma requireRetained_ok {stream partition offset part group u}
    (h : requireRetained stream partition offset part group = .ok u) :
    part.earliestOffset ≤ offset := by
  unfold requireRetained at h
  split at h
  · simp only [bind_ok, reduceCtorEq, and_false, exists_false] at h
  · exact Nat.le_of_not_lt ‹_›

lemma deliver_ok (h : s.deliver id lease cursor = .ok (some record, s')) :
    s.log.owners.lookup lease.key = some lease.owner ∧ lease.revocationRequested = false ∧
      lease.inFlight = none ∧
      (∃ part, s.log.partition? lease.key.stream lease.key.partition = some part ∧
        part.earliestOffset ≤ cursor.offset ∧
        part.records.find? (fun r => cursor.Admits r.offset) = some record) ∧
      s' = (s.modify id (·.deliver record)).emit (.delivered lease.key lease.owner record) := by
  simp only [deliver, bind_ok, requireOwner_ok, require_ok, Log.stream_ok,
    StreamState.partitionAt_ok] at h
  obtain ⟨_, ⟨-, owner⟩, _, revoked, _, idle, _, hs, part, hp, _, retained, h⟩ := h
  split at h
  · rename_i r found
    cases h
    refine ⟨owner, revoked, idle, ⟨part, ?_, requireRetained_ok retained, found⟩, rfl⟩
    simp [Log.partition?, hs, hp]
  · cases h

lemma deliver_none (h : s.deliver id lease cursor = .ok (none, s')) : s' = s := by
  simp only [deliver, bind_ok] at h
  obtain ⟨_, -, _, -, _, -, _, -, _, -, _, -, h⟩ := h
  split at h
  · cases h
  · cases h
    rfl

end Sys

end ToriPy.PersistentStreams
