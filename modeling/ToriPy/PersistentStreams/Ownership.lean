import ToriPy.PersistentStreams.Moves

/-!
# Owners and leases

What a move does to a lease object (`Touched`) and to the ownership tables (`Retabled`), and the
invariant that follows: the two tables have the same keys, an installed lease carries the recorded
token and the newest generation of its key, and the generations of the leases of a key increase in
the order of their creation (`Sys.Tables`). Hence only the installed lease passes an owner check
(`Sys.Tables.installed_of_owner`).
-/

namespace ToriPy.PersistentStreams

open List

/-- A lease as `acquire` makes it. -/
def AcquireFrame.newLease (f : AcquireFrame) (token : OwnershipToken) : Lease :=
  { subscription := f.subscription, key := f.key, owner := token, store := f.binding.store }

/-- What a move from `w` by `a` to `w'` did to the lease object `id`. -/
inductive Touched (w : World) (a : Action) (w' : World) (id : LeaseId) : Lease → Lease → Prop where
  | same {l} : Touched w a w' id l l
  | stop {l} : Touched w a w' id l l.stop
  | release {l} : w'.sys.log.leases.lookup l.key ≠ some id → Touched w a w' id l l.release
  | complete {l} : Touched w a w' id l l.completeDelivery
  | deliver {l call env c cursor record} :
    a = .resume call env → w.calls[call]? = some (.consume id c (.nextDeliver cursor)) →
    w.sys.deliver id l cursor = .ok (some record, w'.sys) →
    Touched w a w' id l (l.deliver record)
  | revoke {l f} : w.sys.Enters f w.calls.length w'.sys → f.currentLease = some id →
    w'.calls = w.calls ++ [.acquire f (w'.sys.afterEnter f)] →
    Touched w a w' id l { l with revocationRequested := true }
  | restore {l} : Touched w a w' id l { l with revocationRequested := false }

namespace World

variable {w w' : World} {a : Action} {id : LeaseId}

lemma touched_same (id : LeaseId) :
    Option.Rel (Touched w a w' id) w.sys.objects[id]? w.sys.objects[id]? :=
  rel_self (fun _ => .same) _

lemma touched_modify {i : LeaseId} {g : Lease → Lease}
    (changed : ∀ {l}, w.sys.objects[i]? = some l → Touched w a w' i l (g l)) (id : LeaseId) :
    Option.Rel (Touched w a w' id) w.sys.objects[id]? (w.sys.objects.modify i g)[id]? :=
  rel_modify (fun _ => .same) changed id

lemma touched_release {i lease} (obj : w.sys.objects[i]? = some lease)
    (released : w'.sys = w.sys.release i lease) (id : LeaseId) :
    Option.Rel (Touched w a w' id) w.sys.objects[id]? w'.sys.objects[id]? := by
  have gone : ¬ lease.released → w'.sys.log.leases.lookup lease.key ≠ some i := by
    intro live
    rw [released, Sys.release, if_neg live]
    dsimp only
    split
    · simp
    · assumption
  rw [released]
  unfold Sys.release
  split
  · exact touched_same _
  rename_i live
  refine touched_modify (fun h => ?_) id
  cases obj.symm.trans h
  exact .release (gone live)

/-- A lease is made, or every lease object is still there. -/
lemma Move.touches (move : w.Move a w') :
    (∃ f token, w.sys.Installs f token w'.sys) ∨
      ∀ id, Option.Rel (Touched w a w' id) w.sys.objects[id]? w'.sys.objects[id]? := by
  cases move with
  | close =>
    refine .inr fun id => ?_
    simp only [Sys.close, getElem?_mapIdx]
    cases w.sys.objects[id]? with
    | none => exact .none
    | some l =>
      rw [Option.map_some]
      split
      · exact .some (.release nofun)
      · exact .some .same
  | enter ent =>
    obtain ⟨-, -, -, hs⟩ | ⟨_, hcur, -, -, hs⟩ := ent.cases
    · rw [hs]
      exact .inr touched_same
    · rw [hs]
      exact .inr (touched_modify fun _ => .revoke (hs ▸ ent) hcur (by rw [← hs]))
  | stop => exact .inr (touched_modify fun _ => .stop)
  | release obj => exact .inr (touched_release obj rfl)
  | advance hpc adv =>
    cases adv with
    | install _ inst => exact .inl ⟨_, _, inst⟩
    | @cancel f =>
      have objects : ∀ {a w'} id, Option.Rel (Touched w a w' id) w.sys.objects[id]?
          (w.sys.cancelAcquire f).objects[id]? := by
        intro a w'
        simp only [Sys.cancelAcquire]
        split
        · split
          · exact touched_modify fun _ => .restore
          · exact touched_same
        · exact touched_same
      exact .inr objects
    | create _ _ made =>
      obtain ⟨-, -, ⟨-, rfl⟩ | ⟨-, rfl⟩⟩ := Sys.createCursor_ok made <;> exact .inr touched_same
    | broker _ made =>
      obtain ⟨-, ⟨-, rfl⟩ | ⟨-, _, rfl⟩⟩ := Sys.initBroker_ok made <;> exact .inr touched_same
    | abandon obj | release obj => exact .inr (touched_release obj rfl)
    | deliver obj made =>
      refine .inr ?_
      obtain ⟨-, -, -, -, rfl⟩ := Sys.deliver_ok made
      refine touched_modify fun h => ?_
      cases obj.symm.trans h
      exact .deliver rfl hpc made
    | save _ _ made =>
      obtain ⟨-, -, -, rfl⟩ := Sys.saveCursor_ok made
      exact .inr touched_same
    | complete => exact .inr (touched_modify fun _ => .complete)
    | commit _ made =>
      obtain ⟨-, -, -, rfl⟩ := Sys.commitBroker_ok made
      exact .inr (touched_modify fun _ => .complete)
    | stop => exact .inr (touched_modify fun _ => .stop)
    | _ => exact .inr touched_same
  | _ => exact .inr touched_same

lemma Move.touched (move : w.Move a w') {l'} (h : w'.sys.objects[id]? = some l') :
    (∃ l, w.sys.objects[id]? = some l ∧ Touched w a w' id l l') ∨
      ∃ f token, id = w.sys.objects.length ∧ w.sys.Installs f token w'.sys ∧
        l' = f.newLease token := by
  obtain ⟨f, token, inst⟩ | touched := move.touches
  · rw [inst.objects] at h
    obtain old | ⟨rfl, rfl⟩ := concat_cases h
    · exact .inl ⟨l', old, .same⟩
    · exact .inr ⟨f, token, rfl, inst, rfl⟩
  · exact .inl (rel_before (touched id) h)

lemma Move.touched_of_some (move : w.Move a w') {l} (h : w.sys.objects[id]? = some l) :
    ∃ l', w'.sys.objects[id]? = some l' ∧ Touched w a w' id l l' := by
  obtain ⟨f, token, inst⟩ | touched := move.touches
  · rw [inst.objects]
    exact ⟨l, concat_old h, .same⟩
  · exact rel_after (touched id) h

end World

lemma Touched.identity {w w' a id l l'} (touched : Touched w a w' id l l') :
    l'.key = l.key ∧ l'.owner = l.owner ∧ l'.store = l.store ∧
    l'.subscription = l.subscription := by
  cases touched <;> exact ⟨rfl, rfl, rfl, rfl⟩

lemma Touched.inFlight {w w' a id l l' record} (touched : Touched w a w' id l l')
    (h : l'.inFlight = some record) :
    l.inFlight = some record ∨
      ∃ call env c cursor, a = .resume call env ∧
        w.calls[call]? = some (.consume id c (.nextDeliver cursor)) ∧
        w.sys.deliver id l cursor = .ok (some record, w'.sys) := by
  cases touched with
  | stop | release | complete => cases h
  | deliver ha hpc made =>
    cases h
    exact .inr ⟨_, _, _, _, ha, hpc, made⟩
  | _ => exact .inl h

lemma Touched.released {w w' a id l l'} (touched : Touched w a w' id l l')
    (live : l.released = false)
    (installed : w'.sys.log.leases.lookup l.key = some id) : l'.released = false := by
  cases touched with
  | release gone => exact absurd installed gone
  | _ => exact live

/-- What a move from `w` by `a` to `w'` did to the ownership tables. -/
inductive Retabled (w : World) (a : Action) (w' : World) : Prop where
  | same : w'.sys.log.leases = w.sys.log.leases → w'.sys.log.owners = w.sys.log.owners →
    w'.sys.log.generations = w.sys.log.generations → w'.sys.log.closed = w.sys.log.closed →
    w'.sys.log.maxActiveLeases = w.sys.log.maxActiveLeases → Retabled w a w'
  | install {call env f st token} : a = .resume call env → w.calls[call]? = some (.acquire f st) →
    st.Ready w.sys f → w.sys.Installs f token w'.sys → Retabled w a w'
  | release {id lease} : w.sys.objects[id]? = some lease →
    w.sys.log.leases.lookup lease.key = some id →
    w'.sys.log.leases = w.sys.log.leases.erase lease.key →
    w'.sys.log.owners = w.sys.log.owners.erase lease.key →
    w'.sys.log.generations = w.sys.log.generations → w'.sys.log.closed = w.sys.log.closed →
    w'.sys.log.maxActiveLeases = w.sys.log.maxActiveLeases →
    w'.sys.objects[id]? = some lease.release → Retabled w a w'
  | close : w'.sys.log.leases = ∅ → w'.sys.log.owners = ∅ →
    w'.sys.log.generations = w.sys.log.generations → w'.sys.log.closed = true →
    w'.sys.log.maxActiveLeases = w.sys.log.maxActiveLeases →
    (∀ key id lease, w.sys.log.leases.lookup key = some id → w.sys.objects[id]? = some lease →
      w'.sys.objects[id]? = some lease.release) → Retabled w a w'

namespace World

lemma retabled_release {w a calls id lease} (obj : w.sys.objects[id]? = some lease) :
    Retabled w a { sys := w.sys.release id lease, calls := calls } := by
  unfold Sys.release
  split
  · exact .same rfl rfl rfl rfl rfl
  by_cases installed : w.sys.log.leases.lookup lease.key = some id
  · rw [if_pos installed]
    refine .release obj installed rfl rfl rfl rfl rfl ?_
    simp [obj]
  · rw [if_neg installed]
    exact .same rfl rfl rfl rfl rfl

lemma Move.retabled {w w' a} (move : w.Move a w') : Retabled w a w' := by
  cases move with
  | rewrite kept | store kept => rw [kept]; exact .same rfl rfl rfl rfl rfl
  | close =>
    refine .close rfl rfl rfl rfl rfl fun key id lease installed obj => ?_
    simp only [Sys.close, getElem?_mapIdx, obj, Option.map_some]
    rw [if_pos (Dict.mem_values.mpr ⟨key, installed⟩)]
  | enter ent =>
    obtain ⟨-, -, -, hs⟩ | ⟨_, -, -, -, hs⟩ := ent.cases <;> rw [hs] <;>
      exact .same rfl rfl rfl rfl rfl
  | release obj => exact retabled_release obj
  | advance hpc adv =>
    cases adv with
    | install ready inst => exact .install rfl hpc ready inst
    | create _ _ made =>
      obtain ⟨-, -, ⟨-, rfl⟩ | ⟨-, rfl⟩⟩ := Sys.createCursor_ok made <;>
        exact .same rfl rfl rfl rfl rfl
    | broker _ made =>
      obtain ⟨-, ⟨-, rfl⟩ | ⟨-, _, rfl⟩⟩ := Sys.initBroker_ok made <;>
        exact .same rfl rfl rfl rfl rfl
    | abandon obj | release obj => exact retabled_release obj
    | deliver _ made =>
      obtain ⟨-, -, -, -, rfl⟩ := Sys.deliver_ok made
      exact .same rfl rfl rfl rfl rfl
    | save _ _ made =>
      obtain ⟨-, -, -, rfl⟩ := Sys.saveCursor_ok made
      exact .same rfl rfl rfl rfl rfl
    | commit _ made =>
      obtain ⟨-, -, -, rfl⟩ := Sys.commitBroker_ok made
      exact .same rfl rfl rfl rfl rfl
    | _ => exact .same rfl rfl rfl rfl rfl
  | _ => exact .same rfl rfl rfl rfl rfl

end World

def Sys.generation (s : Sys) (key : CheckpointKey) : Nat := (s.log.generations.lookup key).getD 0

/-- The ownership tables and the lease objects agree. -/
structure Sys.Tables (s : Sys) : Prop where
  installed : ∀ {key id}, s.log.leases.lookup key = some id →
    ∃ lease, s.objects[id]? = some lease ∧ lease.key = key ∧
      s.log.owners.lookup key = some lease.owner ∧
      lease.owner.generation = s.generation key ∧ lease.released = false
  vacant : ∀ {key}, s.log.leases.lookup key = none → s.log.owners.lookup key = none
  generation : ∀ {id : LeaseId} {lease : Lease}, s.objects[id]? = some lease →
    lease.owner.generation ≤ s.generation lease.key
  increasing : ∀ {i j : LeaseId} {l l' : Lease}, i < j → s.objects[i]? = some l →
    s.objects[j]? = some l' → l.key = l'.key → l.owner.generation < l'.owner.generation
  closed : s.log.closed = true → ∀ key, s.log.leases.lookup key = none

namespace Sys

variable {s s' : Sys}

lemma Installs.generation {f token} (inst : s.Installs f token s') (key : CheckpointKey) :
    s'.generation key = if key = f.key then s.generation f.key + 1 else s.generation key := by
  simp only [Sys.generation, inst.generations, Dict.lookup_insert_ite]
  split
  · rw [inst.fresh]
    rfl
  · rfl

lemma Installs.token_generation {f token}
    (inst : s.Installs f token s') : token.generation = s.generation f.key + 1 := by
  rw [inst.fresh]
  rfl

lemma Tables.eq_of_owner (tab : s.Tables) {i j : LeaseId} {l l' : Lease}
    (hi : s.objects[i]? = some l) (hj : s.objects[j]? = some l') (key : l.key = l'.key)
    (owner : l.owner.generation = l'.owner.generation) : i = j := by
  rcases Nat.lt_trichotomy i j with h | h | h
  · exact absurd owner (tab.increasing h hi hj key).ne
  · exact h
  · exact absurd owner.symm (tab.increasing h hj hi key.symm).ne

lemma Tables.installed_of_owner (tab : s.Tables) {id : LeaseId} {lease : Lease}
    (obj : s.objects[id]? = some lease) (owner : s.log.owners.lookup lease.key = some lease.owner) :
    s.log.leases.lookup lease.key = some id := by
  cases hl : s.log.leases.lookup lease.key with
  | none => cases owner.symm.trans (tab.vacant hl)
  | some =>
    obtain ⟨lease', obj', key, owner', -, -⟩ := tab.installed hl
    have token : lease.owner = lease'.owner := Option.some.inj (owner.symm.trans owner')
    rw [tab.eq_of_owner obj obj' key.symm (by rw [token])]

lemma Tables.newest_of_owner (tab : s.Tables) {id : LeaseId} {lease : Lease}
    (obj : s.objects[id]? = some lease) (owner : s.log.owners.lookup lease.key = some lease.owner) :
    lease.owner.generation = s.generation lease.key := by
  obtain ⟨_, obj', -, -, newest, -⟩ := tab.installed (tab.installed_of_owner obj owner)
  cases obj.symm.trans obj'
  exact newest

end Sys

lemma Retabled.generation_le {w w' a} (re : Retabled w a w')
    (key : CheckpointKey) : w.sys.generation key ≤ w'.sys.generation key := by
  have kept : w'.sys.log.generations = w.sys.log.generations →
      w.sys.generation key ≤ w'.sys.generation key := by
    intro h
    simp only [Sys.generation, h, le_refl]
  cases re with
  | same _ _ hg | release _ _ _ _ hg | close _ _ hg => exact kept hg
  | install _ _ _ inst =>
    rw [inst.generation]
    split
    · rename_i hkey
      subst hkey
      exact Nat.le_succ _
    · exact le_rfl

lemma Sys.Tables.start (n : ℕ+) : (World.start n).sys.Tables where
  installed := nofun
  vacant := fun _ => rfl
  generation := nofun
  increasing := nofun
  closed := nofun

lemma Sys.Tables.move {w w' : World} {a} (tab : w.sys.Tables) (move : w.Move a w') :
    w'.sys.Tables := by
  -- a lease that stays installed keeps what the invariant says of it
  have stays : ∀ {key id}, w.sys.log.leases.lookup key = some id →
      w'.sys.log.leases.lookup key = some id →
      w'.sys.log.owners.lookup key = w.sys.log.owners.lookup key →
      w'.sys.generation key = w.sys.generation key →
      ∃ lease, w'.sys.objects[id]? = some lease ∧ lease.key = key ∧
        w'.sys.log.owners.lookup key = some lease.owner ∧
        lease.owner.generation = w'.sys.generation key ∧ lease.released = false := by
    intro key id old new owners gen
    obtain ⟨l, obj, rfl, owner, newest, live⟩ := tab.installed old
    obtain ⟨l', obj', touched⟩ := move.touched_of_some obj
    obtain ⟨hkey, howner, -, -⟩ := touched.identity
    refine ⟨l', obj', hkey, ?_, ?_, touched.released live new⟩
    · rw [owners, howner, owner]
    · rw [gen, howner, newest]
  have gen : ∀ {key}, w'.sys.log.generations = w.sys.log.generations →
      w'.sys.generation key = w.sys.generation key := by
    intro key h
    simp only [Sys.generation, h]
  constructor
  · intro key id new
    cases move.retabled with
    | same hl ho hg => exact stays (hl ▸ new) new (by rw [ho]) (gen hg)
    | @install _ _ f _ token _ _ _ inst =>
      rw [inst.leases] at new
      split at new
      · rename_i hkey
        cases new
        refine ⟨f.newLease token, ?_, hkey.symm, ?_, ?_, rfl⟩
        · rw [inst.objects]
          exact getElem?_concat_length
        · rw [inst.owners, if_pos hkey]
          rfl
        · rw [inst.generation, if_pos hkey]
          exact inst.token_generation
      · rename_i hkey
        refine stays new ?_ ?_ ?_
        · rw [inst.leases, if_neg hkey, new]
        · rw [inst.owners, if_neg hkey]
        · rw [inst.generation, if_neg hkey]
    | @release _ lease _ _ hl ho hg =>
      obtain ⟨other, old⟩ := Dict.erase_some (hl ▸ new)
      refine stays old new ?_ (gen hg)
      rw [ho, Dict.lookup_erase_ite, if_neg other]
    | close hl =>
      rw [hl] at new
      cases new
  · intro key new
    cases move.retabled with
    | same hl ho =>
      rw [ho]
      exact tab.vacant (hl ▸ new)
    | install _ _ _ inst =>
      rw [inst.leases] at new
      rw [inst.owners]
      split at new
      · cases new
      · rw [if_neg ‹_›]
        exact tab.vacant new
    | release _ _ hl ho =>
      rw [hl, Dict.lookup_erase_ite] at new
      rw [ho, Dict.lookup_erase_ite]
      split
      · rfl
      · rw [if_neg ‹_›] at new
        exact tab.vacant new
    | close _ ho =>
      rw [ho]
      rfl
  · intro id l' obj'
    obtain ⟨l, obj, touched⟩ | ⟨f, token, -, inst, rfl⟩ := move.touched obj'
    · obtain ⟨hkey, howner, -, -⟩ := touched.identity
      rw [hkey, howner]
      exact (tab.generation obj).trans (move.retabled.generation_le _)
    · rw [inst.generation]
      simp only [AcquireFrame.newLease, if_true]
      exact inst.token_generation.le
  · intro i j li lj hij hi hj key
    obtain ⟨l₁, h₁, t₁⟩ | ⟨f, token, rfl, inst, rfl⟩ := move.touched hi
    · obtain ⟨key₁, owner₁, -, -⟩ := t₁.identity
      obtain ⟨l₂, h₂, t₂⟩ | ⟨f, token, rfl, inst, rfl⟩ := move.touched hj
      · obtain ⟨key₂, owner₂, -, -⟩ := t₂.identity
        rw [owner₁, owner₂]
        exact tab.increasing hij h₁ h₂ (by rw [← key₁, ← key₂, key])
      · have le := tab.generation h₁
        rw [← key₁, key] at le
        rw [owner₁]
        exact (Nat.lt_succ_of_le le).trans_eq inst.token_generation.symm
    · -- nothing is made behind the newest lease
      have hj' := (List.getElem?_eq_some_iff.mp hj).1
      rw [inst.objects, length_append, length_singleton] at hj'
      exact absurd (Nat.lt_succ_iff.mp hj') (Nat.not_le.mpr hij)
  · intro hclosed key
    cases move.retabled with
    | same hl _ _ hc =>
      rw [hl]
      exact tab.closed (hc ▸ hclosed) key
    | install _ _ _ inst =>
      rw [inst.closed, inst.opened] at hclosed
      cases hclosed
    | release _ installed _ _ _ hc =>
      cases installed.symm.trans (tab.closed (hc ▸ hclosed) _)
    | close hl =>
      rw [hl]
      rfl

/-- An `acquire` in progress remembers a captured lease and its own marker, or neither; one that
waits has captured what it waits for. -/
structure World.Framed (w : World) : Prop where
  frame : ∀ {i : Nat} {f : AcquireFrame} {st : AcquireStage}, w.calls[i]? = some (.acquire f st) →
    f.currentLease = none ∧ f.transferMarker = none ∨
      ∃ id, f.currentLease = some id ∧ f.transferMarker = some i
  wait : ∀ {i : Nat} {f : AcquireFrame} {id : LeaseId} {since : Nat},
    w.calls[i]? = some (.acquire f (.wait id since)) → f.currentLease = some id

lemma World.Framed.move {w w' : World} {a} (inv : w.Framed) (move : w.Move a w') : w'.Framed := by
  constructor
  · intro i f st h
    obtain ⟨st', old, -⟩ | ⟨-, ent, -⟩ := (move.called h).acquire
    · exact inv.frame old
    · obtain ⟨hc, hm, -⟩ | ⟨id, hc, hm, -⟩ := ent.cases
      · exact .inl ⟨hc, hm⟩
      · exact .inr ⟨id, hc, hm⟩
  · intro i f id since h
    obtain ⟨_, old, wait⟩ | ⟨-, -, hst⟩ := (move.called h).acquire
    · rw [wait id since rfl] at old
      exact inv.wait old
    · exact (Sys.afterEnter_wait hst.symm).1

end ToriPy.PersistentStreams
