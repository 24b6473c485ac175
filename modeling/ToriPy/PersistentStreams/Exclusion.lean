import ToriPy.PersistentStreams.Ownership
import ToriPy.PersistentStreams.Runs

/-!
# The lease limit and exclusive delivery

A transfer that waits for the previous owner captures the installed lease in its first section and
installs its own in the second. In between that lease may be released and the key acquired afresh by
someone else. The second section then skips its check of the delivery in flight, and it adds an
owner without looking at the lease limit. Both are shown as runs below.

Where a waiting transfer still finds the lease it captured, the limit holds in every state
(`owners_within_limit`). Where it finds at most that lease, deliveries are exclusive
(`exclusive_delivery`): a delivery is in flight only on the installed lease.
-/

namespace ToriPy.PersistentStreams

namespace World

/-- A transfer that goes on after its wait finds the lease it captured installed. -/
def capturedInstalled (w : World) : Action → Bool
  | .resume call _ =>
    match w.calls[call]? with
    | some (.acquire f (.wait _ _)) => w.sys.log.leases.lookup f.key = f.currentLease
    | _ => true
  | _ => true

/-- A transfer that goes on after its wait finds no lease installed but the one it captured. -/
def noOtherInstalled (w : World) : Action → Bool
  | .resume call _ =>
    match w.calls[call]? with
    | some (.acquire f (.wait _ _)) =>
      w.sys.log.leases.lookup f.key = none ∨ w.sys.log.leases.lookup f.key = f.currentLease
    | _ => true
  | _ => true

variable {w w' : World} {a : Action} {n : ℕ+}

/-- No more owners than the limit. -/
structure Limited (n : ℕ+) (w : World) : Prop where
  tables : w.sys.Tables
  framed : w.Framed
  limit : w.sys.log.maxActiveLeases = n
  size : Dict.size w.sys.log.owners ≤ n

lemma Limited.move (inv : Limited n w) (ok : w.capturedInstalled a = true) (move : w.Move a w') :
    Limited n w' := by
  refine ⟨inv.tables.move move, inv.framed.move move, ?_, ?_⟩
  · cases move.retabled with
    | same _ _ _ _ hn | release _ _ _ _ _ _ hn | close _ _ _ _ hn => rw [hn, inv.limit]
    | install _ _ _ inst => rw [inst.limit, inv.limit]
  · cases move.retabled with
    | same _ ho => rw [ho]; exact inv.size
    | @install call env f st token ha hpc ready inst =>
      rw [inst.size]
      cases hl : w.sys.log.leases.lookup f.key with
      | some =>
        obtain ⟨_, -, -, owner, -⟩ := inv.tables.installed hl
        rw [Dict.size_insert_of_some owner]
        exact inv.size
      | none =>
        -- only a plain acquire adds an owner, straight from its check of the limit
        rw [Dict.size_insert_of_none (inv.tables.vacant hl)]
        cases st with
        | entered =>
          have room := ready.2 (ready.1.trans hl)
          rw [inv.limit] at room
          exact room
        | wait =>
          subst ha
          simp only [capturedInstalled, hpc, decide_eq_true_eq] at ok
          have captured := inv.framed.wait hpc
          cases hl.symm.trans (ok.trans captured)
        | _ => cases ready
    | release _ _ _ ho =>
      rw [ho]
      exact (Dict.size_erase_le _ _).trans inv.size
    | close _ ho =>
      rw [ho]
      exact Nat.zero_le _

lemma owners_eq_leases (tab : w.sys.Tables) (key : CheckpointKey) :
    w.sys.log.owners.lookup key =
      (w.sys.log.leases.lookup key).bind fun id => w.sys.objects[id]?.map (·.owner) := by
  cases hl : w.sys.log.leases.lookup key with
  | none => exact tab.vacant hl
  | some =>
    obtain ⟨_, obj, -, owner, -⟩ := tab.installed hl
    rw [owner, Option.bind_some, obj, Option.map_some]

end World

/-- While every waiting transfer finds the lease it captured, there are never more owners than
`max_active_leases`, and the owners are the tokens of the installed leases. -/
theorem owners_within_limit {n : ℕ+} {w : World}
    (r : Reach World.step (fun w a => w.capturedInstalled a = true) (World.start n) w) :
    Dict.size w.sys.log.owners ≤ n ∧
      ∀ key, w.sys.log.owners.lookup key =
        (w.sys.log.leases.lookup key).bind fun id => w.sys.objects[id]?.map (·.owner) := by
  have inv : World.Limited n w := by
    refine World.invariant_of_moves r ?_ ?_ fun inv ok move => inv.move ok move
    · exact ⟨.start n, ⟨nofun, nofun⟩, rfl, Nat.zero_le _⟩
    · intro w call env f hpc
      simp [World.capturedInstalled, hpc]
  exact ⟨inv.size, World.owners_eq_leases inv.tables⟩

/-- Lease 0 owns partition 0 and has a delivery in flight, for which call 2 waits. -/
def waitingTransferRun : List Action :=
  [.declareStream ordersDefinition,
    .append (.aware 10) (.returned 0) "orders" (eventsRequest 1 [1] none),
    .append (.aware 11) (.returned 0) "orders" (eventsRequest 2 [2] none),
    .acquire billingA 0 .brokerManaged false, .resume 0 {}, .resume 0 {},
    .nextRecord 0, .resume 1 {}, .resume 1 {},
    .acquire billingB 0 .brokerManaged true]

/-- The handler of lease 0 fails, which wakes the transfer. -/
def replacingRun : List Action := waitingTransferRun ++ [.stop 0, .resume 2 {}, .resume 2 {},
    .resume 2 {}]

theorem owners_within_limit_replacing :
    ∃ w, execBy World.step World.capturedInstalled (World.start 1) replacingRun = some w ∧
      w.sys.returned 1 = true ∧ Dict.size w.sys.log.owners ≤ 1 := by
  obtain ⟨w, hw⟩ : ∃ w, execBy World.step World.capturedInstalled (World.start 1) replacingRun
    = some w := ⟨_, rfl⟩
  have returned : (execBy World.step World.capturedInstalled (World.start 1) replacingRun).map
      (·.sys.returned 1) = some true := rfl
  rw [hw] at returned
  have limit := owners_within_limit (Reach.of_execBy (fun _ _ ok => ok) .refl hw)
  exact ⟨w, hw, Option.some.inj returned, limit.1⟩

/-- Lease 0 is released and partition 1 acquired while the transfer waits. -/
def overLimitRun : List Action :=
  waitingTransferRun ++
    [.release 0, .acquire billingC 1 .brokerManaged false, .resume 3 {},
      .resume 3 {}, .resume 2 {}]

theorem waiting_transfer_exceeds_limit :
    ∃ w, Reachable World.step (World.start 1) w ∧
      ¬ Dict.size w.sys.log.owners ≤ w.sys.log.maxActiveLeases := by
  refine ⟨_, Reach.of_exec .refl (rfl : exec World.step (World.start 1) overLimitRun = some _), ?_⟩
  decide

namespace World

variable {w w' : World} {a : Action} {n : ℕ+}

/-- A delivery is in flight only on the installed lease of its key. -/
structure Exclusive (w : World) : Prop where
  tables : w.sys.Tables
  framed : w.Framed
  inFlight : ∀ {id : LeaseId} {lease : Lease} {record : StoredRecord},
    w.sys.objects[id]? = some lease → lease.inFlight = some record →
      w.sys.log.leases.lookup lease.key = some id

lemma Framed.idle_of_installs (framed : w.Framed) {call env f st token s' id lease}
    (ok : w.noOtherInstalled (.resume call env) = true)
    (hpc : w.calls[call]? = some (.acquire f st)) (ready : st.Ready w.sys f)
    (inst : w.sys.Installs f token s') (installed : w.sys.log.leases.lookup f.key = some id)
    (obj : w.sys.objects[id]? = some lease) : lease.inFlight = none := by
  have captured : f.currentLease = some id := by
    cases st with
    | entered => exact ready.1.trans installed
    | wait =>
      simp only [noOtherInstalled, hpc, installed, reduceCtorEq, false_or, decide_eq_true_eq] at ok
      exact ok.symm
    | _ => cases ready
  obtain ⟨none, -⟩ | ⟨_, -, marked⟩ := framed.frame hpc
  · cases captured.symm.trans none
  · exact (inst.marked _ marked).2 (installed.trans captured.symm) id lease captured obj

lemma Exclusive.move (inv : Exclusive w) (ok : w.noOtherInstalled a = true) (move : w.Move a w') :
    Exclusive w' := by
  refine ⟨inv.tables.move move, inv.framed.move move, ?_⟩
  intro id l' record obj' busy
  obtain ⟨l, obj, touched⟩ | ⟨f, _, -, -, rfl⟩ := move.touched obj'
  · rw [touched.identity.1]
    obtain busy' | ⟨_, _, c, _, -, -, made⟩ := touched.inFlight busy
    · -- a lease that keeps its delivery stays installed
      have installed := inv.inFlight obj busy'
      cases move.retabled with
      | same hl => rw [hl, installed]
      | install ha hpc ready inst =>
        rw [inst.leases]
        split
        · rename_i hkey
          subst ha
          rw [hkey] at installed
          cases busy'.symm.trans (inv.framed.idle_of_installs ok hpc ready inst installed obj)
        · exact installed
      | @release id₀ lease₀ obj₀ installed₀ hl _ _ _ _ released =>
        rw [hl, Dict.lookup_erase_ite]
        split
        · rename_i hkey
          rw [hkey, installed₀] at installed
          cases installed
          cases obj'.symm.trans released
          cases busy
        · exact installed
      | close _ _ _ _ _ released =>
        cases obj'.symm.trans (released _ _ _ installed obj)
        cases busy
    · obtain ⟨owner, -, -, -, same⟩ := Sys.deliver_ok made
      rw [same]
      exact inv.tables.installed_of_owner obj owner
  · cases busy

lemma Exclusive.start (n : ℕ+) : Exclusive (start n) := ⟨.start n, ⟨nofun, nofun⟩, nofun⟩

lemma enters_keeps {s s' : Sys} {f marker} (ent : s.Enters f marker s') :
    s'.log.leases = s.log.leases ∧
      ∀ {id : LeaseId} {l}, s.objects[id]? = some l →
        ∃ l', s'.objects[id]? = some l' ∧ l'.inFlight = l.inFlight := by
  obtain ⟨-, -, -, hs⟩ | ⟨_, -, -, -, hs⟩ := ent.cases
  · rw [hs]
    exact ⟨rfl, fun obj => ⟨_, obj, rfl⟩⟩
  rw [hs]
  refine ⟨rfl, fun {id l} obj => ?_⟩
  rw [Sys.modify_objects, obj, Option.map_some]
  refine ⟨_, rfl, ?_⟩
  split <;> rfl

lemma Exclusive.replaced (inv : Exclusive w) (ok : w.noOtherInstalled a = true) (move : w.Move a w')
    {key id id' lease} (before : w.sys.log.leases.lookup key = some id)
    (after : w'.sys.log.leases.lookup key = some id') (other : id' ≠ id)
    (obj : w.sys.objects[id]? = some lease) : lease.inFlight = none := by
  cases move.retabled with
  | same hl =>
    rw [hl, before] at after
    exact absurd (Option.some.inj after).symm other
  | install ha hpc ready inst =>
    rw [inst.leases] at after
    split at after
    · rename_i hkey
      subst ha
      rw [hkey] at before
      exact inv.framed.idle_of_installs ok hpc ready inst before obj
    · rw [before] at after
      exact absurd (Option.some.inj after).symm other
  | release _ _ hl =>
    rw [hl] at after
    cases before.symm.trans (Dict.erase_some after).2
    exact absurd rfl other
  | close hl =>
    rw [hl] at after
    cases after

end World

/-- While every waiting transfer finds no lease installed but the one it captured, at most one lease
of a key has a delivery in flight, and no step replaces an installed lease that has one. -/
theorem exclusive_delivery {n : ℕ+} {w : World}
    (r : Reach World.step (fun w a => w.noOtherInstalled a = true) (World.start n) w) :
    (∀ (i j : LeaseId) (l l' : Lease), w.sys.objects[i]? = some l → w.sys.objects[j]? = some l' →
      l.key = l'.key → l.inFlight ≠ none → l'.inFlight ≠ none → i = j) ∧
    ∀ a w' key id id' lease, w.noOtherInstalled a = true → w.step a = some w' →
      w.sys.log.leases.lookup key = some id → w'.sys.log.leases.lookup key = some id' → id' ≠ id →
      w.sys.objects[id]? = some lease → lease.inFlight = none := by
  have goOn : ∀ {w : World} {call : Nat} {env : Env} {f : AcquireFrame},
      w.calls[call]? = some (.acquire f .entered) →
      w.noOtherInstalled (.resume call env) = true := by
    intro w call env f hpc
    simp [World.noOtherInstalled, hpc]
  have inv : World.Exclusive w :=
    World.invariant_of_moves r (.start n) goOn fun inv ok move => inv.move ok move
  constructor
  · intro i j l l' hi hj key busy busy'
    obtain ⟨_, hr⟩ := Option.ne_none_iff_exists'.mp busy
    obtain ⟨_, hr'⟩ := Option.ne_none_iff_exists'.mp busy'
    have installed := inv.inFlight hi hr
    rw [key, inv.inFlight hj hr'] at installed
    exact (Option.some.inj installed).symm
  · intro a w' key id id' lease ok st before after other obj
    obtain rfl | move | ⟨f, s, ent, hst, move⟩ := World.step_moves st
    · exact absurd (Option.some.inj (after.symm.trans before)) other
    · exact inv.replaced ok move before after other obj
    -- entering changes no delivery and no installed lease
    have first := World.Move.enter (a := a) ent
    rw [hst] at first
    obtain ⟨same, keeps⟩ := World.enters_keeps ent
    obtain ⟨_, obj₁, idle⟩ := keeps obj
    rw [← idle]
    exact (inv.move ok first).replaced (goOn List.getElem?_concat_length) move
      ((congrArg _ same).trans before) after other obj₁

theorem exclusive_delivery_replacing :
    ∃ w, execBy World.step World.noOtherInstalled (World.start 1) replacingRun = some w ∧
      w.sys.objects.length = 2 ∧
      ∀ (i j : LeaseId) (l l' : Lease), w.sys.objects[i]? = some l → w.sys.objects[j]? = some l' →
        l.key = l'.key → l.inFlight ≠ none → l'.inFlight ≠ none → i = j := by
  obtain ⟨w, hw⟩ : ∃ w, execBy World.step World.noOtherInstalled (World.start 1) replacingRun
    = some w := ⟨_, rfl⟩
  have count : (execBy World.step World.noOtherInstalled (World.start 1) replacingRun).map
      (·.sys.objects.length) = some 2 := rfl
  rw [hw] at count
  have exclusive := exclusive_delivery (Reach.of_execBy (fun _ _ ok => ok) .refl hw)
  exact ⟨w, hw, Option.some.inj count, exclusive.1⟩

/-- Lease 0 is released, and another member takes partition 0 and a delivery while the transfer
waits; the transfer installs its lease over that one and takes the same record. -/
def overlappingRun : List Action :=
  waitingTransferRun ++
    [.release 0, .acquire billingC 0 .brokerManaged false, .resume 3 {},
      .resume 3 {}, .nextRecord 1, .resume 4 {}, .resume 4 {},
      .resume 2 {}, .resume 2 {}, .resume 2 {}, .nextRecord 2, .resume 5 {}, .resume 5 {}]

theorem waiting_transfer_overlaps :
    ∃ w l l', Reachable World.step (World.start 8) w ∧ w.sys.objects[1]? = some l ∧
      w.sys.objects[2]? = some l' ∧ l.key = l'.key ∧ l.inFlight ≠ none ∧ l'.inFlight ≠ none := by
  have run : exec World.step (World.start 8) overlappingRun = some _ := rfl
  exact ⟨_, _, _, Reach.of_exec .refl run, rfl, rfl, rfl, nofun, nofun⟩

end ToriPy.PersistentStreams
