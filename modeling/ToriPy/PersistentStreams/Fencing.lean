import ToriPy.PersistentStreams.Initialization

/-!
# Fencing

Ownership of a key is kept in two places: in the log, where a transfer replaces it at once, and in
the external store, where the new lease replaces it by its own `fence` somewhat later. In between, a
lease that the log has replaced can still write the store. It no longer can once the new `acquire`
has returned: an operation that changes a cursor or hands out a record belongs to a lease at least
as new as every lease of its key that was returned.

For what the log guards this is its owner check, since the owner has the newest generation. For a
store it rests on `World.Fenced.stale`: a lease that passed the owner check at the end of its
initialization was fenced before any newer lease, so that the store has another owner as soon as a
newer lease has fenced it.
-/

namespace ToriPy.PersistentStreams

open List

/-- The generation that an event installs for a key. -/
def Event.installedAt (key : CheckpointKey) : Event → Option Nat
  | .installed key' owner => if key' = key then some owner.generation else none
  | _ => none

/-- The generations installed for a key, in the order of their installation. -/
def Sys.installedGenerations (s : Sys) (key : CheckpointKey) : List Nat :=
  s.trace.filterMap (Event.installedAt key)

/-- No lease of the same key that `acquire` has returned is newer. -/
def Sys.Newest (s : Sys) (lease : Lease) : Prop :=
  ∀ id owner, .acquired id lease.key owner ∈ s.trace → owner.generation ≤ lease.owner.generation

def Pc.lease? : Pc → Option LeaseId
  | .acquire _ (.init id _) => some id
  | .consume id _ _ => some id
  | _ => none

/-- The record that `next_record` has returned, to the application or to the runner. -/
def Pc.returnedRecord? : Pc → Option StoredRecord
  | .finished (.record record) => record
  | .consume _ _ (.handling record) => some record
  | _ => none

namespace World

variable {w w' : World} {a : Action} {id : LeaseId} {f : AcquireFrame} {i : Nat}

/-- A lease that has passed the owner check at the end of its initialization. -/
def Verified (w : World) (id : LeaseId) : Prop :=
  w.sys.returned id = true ∨
    ∃ (i : Nat) (f : AcquireFrame), w.calls[i]? = some (.acquire f (.init id .finish))

/-- Generations only grow, and a verified lease is not the owner in its store once a newer lease has
fenced it. -/
structure Fenced (w : World) : Prop where
  initialized : w.Initialized
  installs : ∀ key, (w.sys.installedGenerations key).Pairwise (· < ·) ∧
    ∀ g ∈ w.sys.installedGenerations key, g ≤ w.sys.generation key
  fences : ∀ {store : StoreId} {key : CheckpointKey} {owner : OwnershipToken},
    .fenced store key owner ∈ w.sys.trace → owner.generation ≤ w.sys.generation key
  stale : ∀ {id : LeaseId} {lease : Lease} {store : StoreId} {owner : OwnershipToken},
    w.Verified id → w.sys.objects[id]? = some lease → lease.store = some store →
      .fenced store lease.key owner ∈ w.sys.trace → lease.owner.generation < owner.generation →
      (w.sys.stores store).owners.lookup lease.key ≠ some lease.owner

lemma Fenced.start (n : ℕ+) : (start n).Fenced where
  initialized := .start n
  installs := fun _ => ⟨.nil, nofun⟩
  fences := nofun
  stale := nofun

lemma Initialized.not_verified (inv : w.Initialized)
    (h : w.calls[i]? = some (.acquire f (.init id .fence))) : ¬ w.Verified id := by
  rintro (returned | ⟨j, g, ended⟩)
  · obtain ⟨-, -, -, -, fresh, -⟩ := inv.init h
    cases fresh.symm.trans returned
  · cases inv.distinct h ended
    cases h.symm.trans ended

variable {place : Option StoreId} {lease : Lease}

lemma Initialized.verified (inv : w.Initialized) (move : w.Move a w') (h : w'.Verified id)
    (obj : w.sys.objects[id]? = some lease) :
    w.Verified id ∨ lease.store = none ∨
      w.sys.log.owners.lookup lease.key = some lease.owner := by
  obtain returned | ⟨i, f, ended⟩ := h
  · obtain ⟨key, owner, mem⟩ := Sys.returned_iff.mp returned
    obtain old | em := move.emitted mem
    · exact .inl (.inl (Sys.returned_iff.mpr ⟨key, owner, old⟩))
    · cases em with
      | acquired hpc => exact .inl (.inr ⟨_, _, hpc⟩)
  · obtain ⟨_, old, init⟩ | ⟨_, _, -, rfl, -⟩ := move.initializes ended
    · cases init with
      | same => exact .inl (.inr ⟨i, f, old⟩)
      | owner obj' owns =>
        cases obj.symm.trans obj'
        exact .inr (.inr owns)
      | broker =>
        obtain ⟨_, obj', -, -, -, none⟩ := inv.init old
        cases obj.symm.trans obj'
        exact .inr (.inl none)
    · exact absurd (List.getElem?_eq_some_iff.mp obj).1 (lt_irrefl _)

lemma Fenced.installs_move (inv : w.Fenced) (move : w.Move a w') (key : CheckpointKey) :
    (w'.sys.installedGenerations key).Pairwise (· < ·) ∧
      ∀ g ∈ w'.sys.installedGenerations key, g ≤ w'.sys.generation key := by
  obtain ⟨increasing, bounded⟩ := inv.installs key
  have grown := move.retabled.generation_le key
  have kept : w'.sys.installedGenerations key = w.sys.installedGenerations key →
      (w'.sys.installedGenerations key).Pairwise (· < ·) ∧
        ∀ g ∈ w'.sys.installedGenerations key, g ≤ w'.sys.generation key := by
    intro same
    rw [same]
    exact ⟨increasing, fun g hg => (bounded g hg).trans grown⟩
  cases move.traced with
  | silent same => exact kept (by rw [Sys.installedGenerations, same]; rfl)
  | @emit e more em =>
    have append : w'.sys.installedGenerations key =
        w.sys.installedGenerations key ++ [e].filterMap (Event.installedAt key) := by
      rw [Sys.installedGenerations, more, filterMap_append]
      rfl
    cases em with
    | @installed f token inst =>
      by_cases hkey : f.key = key
      · subst hkey
        have newest : token.generation = w.sys.generation f.key + 1 := inst.token_generation
        have last : [Event.installed f.key token].filterMap (Event.installedAt f.key) =
            [token.generation] := by simp [Event.installedAt]
        rw [append, last, inst.generation, if_pos rfl]
        constructor
        · refine pairwise_append.mpr ⟨increasing, pairwise_singleton .., ?_⟩
          intro g hg g' hg'
          rw [mem_singleton.mp hg', newest]
          exact Nat.lt_succ_of_le (bounded g hg)
        · intro g hg
          obtain old | new := mem_append.mp hg
          · exact (bounded g old).trans (Nat.le_succ _)
          · exact ((mem_singleton.mp new).trans newest).le
      · exact kept (by rw [append]; simp [Event.installedAt, hkey])
    | _ => exact kept (append.trans (append_nil _))

lemma Fenced.move (inv : w.Fenced) (move : w.Move a w') : w'.Fenced where
  initialized := inv.initialized.move move
  installs := inv.installs_move move
  fences := by
    intro store key owner h
    refine le_trans ?_ (move.retabled.generation_le key)
    obtain old | em := move.emitted h
    · exact inv.fences old
    · cases em with
      | fenced _ obj => exact inv.initialized.tables.generation obj
  stale := by
    intro id l' store owner verified obj' hstore fenced newer
    obtain ⟨l, obj, touched⟩ | ⟨f, token, rfl, inst, rfl⟩ := move.touched obj'
    · obtain ⟨hkey, howner, hst, -⟩ := touched.identity
      rw [hkey] at fenced ⊢
      rw [howner] at newer ⊢
      have hstore : l.store = some store := hst.symm.trans hstore
      have tables := inv.initialized.tables
      generalize key_eq : l.key = key at fenced
      obtain old | em := move.emitted fenced
      · subst key_eq
        obtain was | none | owns := inv.initialized.verified move verified obj
        · obtain same | ⟨_, _, _, em⟩ := move.storeOwners
          · rw [same]
            exact inv.stale was obj hstore old newer
          cases em with
          | @fenced _ _ id₀ l₀ _ hpc obj₀ _ same =>
            -- the fence belongs to another lease, so it leaves another owner
            have other : id₀ ≠ id := by
              rintro rfl
              exact inv.initialized.not_verified hpc was
            rw [same, fence_owner]
            split
            · rename_i at_
              intro current
              have token := Option.some.inj current
              exact other (tables.eq_of_owner obj₀ obj at_.2.symm (by rw [token]))
            · exact inv.stale was obj hstore old newer
        · cases none.symm.trans hstore
        · -- the owner in the log has the newest generation, so nobody newer has fenced
          rw [tables.newest_of_owner obj owns] at newer
          exact absurd newer (inv.fences old).not_gt
      · cases em with
        | fenced _ _ _ same =>
          rw [same, fence_owner, if_pos ⟨rfl, rfl⟩]
          intro current
          rw [Option.some.inj current] at newer
          exact absurd newer (lt_irrefl _)
    · -- a lease that was just installed is newer than every fence
      rw [inst.trace, mem_append, mem_singleton] at fenced
      obtain old | new := fenced
      · have newest : (f.newLease token).owner.generation = w.sys.generation f.key + 1 :=
          inst.token_generation
        rw [newest] at newer
        exact absurd newer (Nat.lt_succ_of_le (inv.fences old)).not_gt
      · cases new

lemma Initialized.newest_of_owner (inv : w.Initialized) (obj : w.sys.objects[id]? = some lease)
    (owns : w.sys.log.owners.lookup lease.key = some lease.owner) : w.sys.Newest lease := by
  intro id' owner' mem
  obtain ⟨_, b, obj', key, rfl, -⟩ := inv.acquired mem
  rw [inv.tables.newest_of_owner obj owns, ← key]
  exact inv.tables.generation obj'

lemma Initialized.same_store (inv : w.Initialized) {id id' st lease' owner}
    (h : w.calls[i]? = some (.acquire f (.init id st))) (obj : w.sys.objects[id]? = some lease)
    (mem : .acquired id' lease.key owner ∈ w.sys.trace) (obj' : w.sys.objects[id']? = some lease') :
    lease'.store = lease.store := by
  obtain ⟨_, obj₀, key, store, -⟩ := inv.init h
  cases obj.symm.trans obj₀
  obtain ⟨_, b, obj₁, -, -, -, -, strategy, hb⟩ := inv.acquired mem
  cases obj'.symm.trans obj₁
  rw [key] at strategy
  have fixed : f.binding = b := inv.reserved.fixed (mem_of_getElem? h) rfl strategy
  rw [store, ← hb, fixed]

lemma Fenced.created_newest (inv : w.Fenced) {st}
    (h : w.calls[i]? = some (.acquire f (.init id st)))
    (at_ : st = .broker ∧ place = none ∨ ∃ cursor, st = .create cursor ∧ place = lease.store)
    (obj : w.sys.objects[id]? = some lease) (auth : w.sys.Authorised lease place)
    (vacant : w.sys.cursor place lease.key = none) : w.sys.Newest lease := by
  cases place with
  | none => exact inv.initialized.newest_of_owner obj auth
  | some store =>
    -- a returned lease of the key would have a cursor in this store
    intro id' owner' mem
    obtain ⟨_, b, obj', key, -, -, ⟨c, cursor⟩, -⟩ := inv.initialized.acquired mem
    rw [key, inv.initialized.same_store h obj mem obj', auth.1] at cursor
    cases cursor.symm.trans vacant

lemma Fenced.saved_newest (inv : w.Fenced) {c st} (h : w.calls[i]? = some (.consume id c st))
    (obj : w.sys.objects[id]? = some lease)
    (auth : w.sys.Authorised lease place) : w.sys.Newest lease := by
  cases place with
  | none => exact inv.initialized.newest_of_owner obj auth
  | some store =>
    intro id' owner' mem
    refine Nat.le_of_not_lt fun newer => ?_
    have returned := inv.initialized.consume h
    obtain ⟨_, _, mem₀⟩ := Sys.returned_iff.mp returned
    obtain ⟨_, b, obj₀, rfl, -, -, -, strategy, hb⟩ := inv.initialized.acquired mem₀
    cases obj.symm.trans obj₀
    obtain ⟨_, _, _, key', rfl, fenced, -, strategy', hb'⟩ := inv.initialized.acquired mem
    -- both leases keep their cursor where the group's strategy says
    cases strategy.symm.trans strategy'
    have fence := fenced store (hb'.symm.trans (hb.trans auth.1))
    rw [key'] at fence
    exact inv.stale (.inl returned) obj auth.1 fence newer auth.2

lemma Fenced.changed (inv : w.Fenced) (move : w.Move a w') {key}
    (h : w'.sys.cursor place key ≠ w.sys.cursor place key) :
    ∃ call env pc id lease, a = .resume call env ∧ w.calls[call]? = some pc ∧
      pc.lease? = some id ∧ w.sys.objects[id]? = some lease ∧ lease.key = key ∧
      w.sys.Newest lease := by
  have written : ∀ {place₀ : Option StoreId} {key₀ c},
      w.sys.Writes place₀ key₀ c w'.sys → key₀ = key := by
    intro place₀ key₀ c writes
    rw [writes.cursor] at h
    split at h
    · rename_i at_
      exact at_.2.symm
    · exact absurd rfl h
  obtain same | ⟨_, _, _, _, em⟩ | ⟨_, _, _, _, _, em⟩ := move.cursor_cases
  · exact absurd (by rw [same]) h
  · cases em with
    | created ha hpc at_ obj auth vacant writes =>
      exact ⟨_, _, _, _, _, ha, hpc, rfl, obj, written writes,
        inv.created_newest hpc at_ obj auth vacant⟩
  · cases em with
    | saved ha hpc _ obj auth _ _ writes =>
      exact ⟨_, _, _, _, _, ha, hpc, rfl, obj, written writes, inv.saved_newest hpc obj auth⟩

lemma deliver_of_returned {s s' : Sys} {c st} {pc' : Pc} {record}
    (adv : s.Advance (.consume id c st) s' pc') (h : pc'.returnedRecord? = some record) :
    ∃ lease cursor, s.objects[id]? = some lease ∧
    s.deliver id lease cursor = .ok (some record, s') := by
  have idle : ∀ {pc : Pc} {id : LeaseId}, pc.Idle id → pc.returnedRecord? ≠ some record := by
    intro pc id hi hr
    cases pc with
    | finished o =>
      cases o with
      | record r =>
        cases r with
        | none => cases hr
        | some => cases hi
      | _ => cases hr
    | consume id c st =>
      cases st with
      | handling => cases hi
      | _ => cases hr
    | acquire => cases hr
  cases adv with
  | quiet _ q =>
    cases q with
    | idle hi => exact absurd h (idle hi)
    | _ => cases h
  | deliver obj made =>
    cases c <;> (cases h; exact ⟨_, _, obj, made⟩)
  | handled =>
    unfold checkpoint at h
    split at h
    · cases h
    · exact absurd h (idle (checkpointRaised_idle _ _ _ _))
  | save _ _ _ hi | complete hi | commit _ _ hi | stop hi | release _ hi => exact absurd h (idle hi)

end World

/-- In every run the generations installed for a key increase strictly, and a step that changes a
cursor of a key, or returns a record, is a step of a call on a lease that is no older than any lease
of the key that `acquire` has returned. -/
theorem fencing {n : ℕ+} {w : World} (r : Reachable World.step (World.start n) w) :
    (∀ key, (w.sys.installedGenerations key).Pairwise (· < ·)) ∧
    ∀ a w', w.step a = some w' →
      (∀ place key, w'.sys.cursor place key ≠ w.sys.cursor place key →
        ∃ call env pc id lease, a = .resume call env ∧ w.calls[call]? = some pc ∧
          pc.lease? = some id ∧ w.sys.objects[id]? = some lease ∧ lease.key = key ∧
          w.sys.Newest lease) ∧
      ∀ call env id c st pc lease record, a = .resume call env →
        w.calls[call]? = some (.consume id c st) → w'.calls[call]? = some pc →
        pc.returnedRecord? = some record → w.sys.objects[id]? = some lease →
        w.sys.Newest lease := by
  have inv : w.Fenced :=
    World.invariant_of_moves r (.start n) (fun _ => trivial) fun inv _ move => inv.move move
  refine ⟨fun key => (inv.installs key).1, fun a w' st => ⟨?_, ?_⟩⟩
  · intro place key changed
    obtain rfl | move | ⟨f, s, ent, hst, move⟩ := World.step_moves st
    · exact absurd rfl changed
    · exact inv.changed move changed
    -- an `acquire` that enters and installs leaves the cursors
    have first := World.Move.enter (a := a) ent
    rw [hst] at first
    have same : s.cursor = w.sys.cursor := by
      obtain ⟨-, -, -, hs⟩ | ⟨_, -, -, -, hs⟩ := ent.cases <;>
        (rw [hs]; exact Sys.cursor_congr rfl rfl)
    obtain ⟨call, env, pc, id, _, ha, hpc, works, -⟩ :=
      (inv.move first).changed move (by rw [same]; exact changed)
    cases ha
    cases hpc.symm.trans getElem?_concat_length
    cases works
  · rintro call env id c st₀ pc lease record rfl hpc hpc' returned obj
    obtain ⟨_, _, hpc₀, adv, same⟩ := World.step_resume st
    cases hpc.symm.trans hpc₀
    rw [same] at hpc'
    obtain ⟨other, -⟩ | ⟨-, rfl⟩ := set_cases hpc'
    · exact absurd rfl other
    · obtain ⟨_, _, obj₀, made⟩ := World.deliver_of_returned adv returned
      cases obj.symm.trans obj₀
      exact inv.initialized.newest_of_owner obj (Sys.deliver_ok made).1

/-- Lease 0 is suspended in `next_record` when a transfer replaces it; the new lease is about to
take the record. -/
def supersedingRun : List Action :=
  [.declareStream ordersDefinition,
    .append (.aware 10) (.returned 0) "orders" (eventsRequest 1 [1] none),
    .acquire billingA 0 (.external "checkpoints" 0) false,
    .resume 0 {}, .resume 0 {}, .resume 0 {}, .resume 0 {}, .resume 0 {}, .resume 0 {},
    .nextRecord 0, .resume 1 {},
    .acquire billingB 0 (.external "checkpoints" 0) true,
    .resume 2 {}, .resume 2 {}, .resume 2 {}, .resume 2 {},
    .nextRecord 1, .resume 3 {}, .resume 3 {}]

theorem fencing_superseding :
    ∃ w w' lease record, exec World.step (World.start 8) supersedingRun = some w ∧
      w.sys.installedGenerations ⟨"orders", "billing", 0⟩ = [1, 2] ∧
      w.step (.resume 3 {}) = some w' ∧
      w'.calls[3]? = some (.finished (.record (some record))) ∧
      w.sys.objects[1]? = some lease ∧ w.sys.Newest lease := by
  obtain ⟨w, hw⟩ : ∃ w, exec World.step (World.start 8) supersedingRun = some w := ⟨_, rfl⟩
  have r : Reachable World.step (World.start 8) w := Reach.of_exec .refl hw
  cases hw
  refine ⟨_, _, _, _, rfl, rfl, rfl, rfl, rfl, ?_⟩
  exact ((fencing r).2 _ _ rfl).2 3 {} 1 .application _ _ _ _ rfl rfl rfl rfl rfl

end ToriPy.PersistentStreams
