import ToriPy.PersistentStreams.Ownership
import ToriPy.PersistentStreams.Runs

/-!
# Stopped leases and pending transfers

A transfer in progress keeps a marker for its key from its first section until its second has
installed or its cleanup has run, and the lease it captured is asked to revoke for as long.
`World.Marked` relates the markers to the calls; it holds in every run.

That a stopped lease holds no delivery does not: `next_record` checks that its lease is active when
it is called, and then loads the cursor, which with an external store can take as long as it likes.
Its last section checks the owner, the revocation and the delivery in flight but not whether the
lease was stopped in between. `World.activeAtDelivery` is the missing check.
-/

namespace ToriPy.PersistentStreams

/-- Where an `acquire` stands before its second section is through. -/
def AcquireStage.pending : AcquireStage → Bool
  | .entered => true
  | .wait _ _ => true
  | .cancel _ => true
  | .init _ _ => false
  | .unreserve _ => false

/-- The frame of an `acquire` before its second section is through. -/
def Pc.pending? : Pc → Option AcquireFrame
  | .acquire f st => if st.pending then some f else none
  | _ => none

/-- The `acquire` that call `i` is, before its second section is through. -/
def World.pendingAt (w : World) (i : Nat) : Option AcquireFrame := (w.calls[i]?).bind Pc.pending?

/-- The call `i` is a transfer of the key that is still pending. -/
def World.PendingTransfer (w : World) (key : CheckpointKey) (i : Nat) : Prop :=
  ∃ f, w.pendingAt i = some f ∧ f.key = key ∧ f.transferMarker.isSome

variable {id : LeaseId}

lemma Pc.Idle.pending? {pc : Pc} (idle : pc.Idle id) : pc.pending? = none := by
  cases pc with
  | acquire => cases idle
  | consume | finished => rfl

lemma Sys.Advance.transfers {s s' : Sys} {pc pc' : Pc} (adv : s.Advance pc s' pc') :
    (s'.log.transfers = s.log.transfers ∧ s'.log.closed = s.log.closed ∧
      pc'.pending? = pc.pending?) ∨
    (∃ f token, pc.pending? = some f ∧ s.Installs f token s' ∧ pc'.pending? = none) ∨
    ∃ f, pc.pending? = some f ∧ s' = s.cancelAcquire f ∧ pc'.pending? = none := by
  have ready : ∀ {st f}, st.Ready s f → (Pc.acquire f st).pending? = some f := by
    intro st f ready
    cases st with
    | entered | wait => rfl
    | _ => cases ready
  cases adv with
  | install hr inst => exact .inr (.inl ⟨_, _, ready hr, inst, rfl⟩)
  | refuse hr => exact .inl ⟨rfl, rfl, (ready hr).symm⟩
  | cancel => exact .inr (.inr ⟨_, rfl, rfl, rfl⟩)
  | create _ _ made =>
    obtain ⟨-, -, ⟨-, rfl⟩ | ⟨-, rfl⟩⟩ := Sys.createCursor_ok made <;> exact .inl ⟨rfl, rfl, rfl⟩
  | broker _ made =>
    obtain ⟨-, ⟨-, rfl⟩ | ⟨-, _, rfl⟩⟩ := Sys.initBroker_ok made <;> exact .inl ⟨rfl, rfl, rfl⟩
  | abandon => exact .inl ⟨(s.release_log _ _).transfers, (s.release_log _ _).closed, rfl⟩
  | quiet _ q =>
    cases q with
    | idle idle => exact .inl ⟨rfl, rfl, idle.pending?⟩
    | _ => exact .inl ⟨rfl, rfl, rfl⟩
  | @deliver _ c _ _ _ _ _ made =>
    obtain ⟨-, -, -, -, rfl⟩ := Sys.deliver_ok made
    cases c <;> exact .inl ⟨rfl, rfl, rfl⟩
  | handled =>
    refine .inl ⟨rfl, rfl, ?_⟩
    unfold checkpoint
    split
    · rfl
    · exact (checkpointRaised_idle _ _ _ _).pending?
  | save _ _ made idle =>
    obtain ⟨-, -, -, rfl⟩ := Sys.saveCursor_ok made
    exact .inl ⟨rfl, rfl, idle.pending?⟩
  | complete idle | stop idle => exact .inl ⟨rfl, rfl, idle.pending?⟩
  | commit _ made idle =>
    obtain ⟨-, -, -, rfl⟩ := Sys.commitBroker_ok made
    exact .inl ⟨rfl, rfl, idle.pending?⟩
  | release _ idle =>
    exact .inl ⟨(s.release_log _ _).transfers, (s.release_log _ _).closed, idle.pending?⟩
  | _ => exact .inl ⟨rfl, rfl, rfl⟩

lemma Pc.cancel_pending {pc pc' : Pc} (h : pc.cancel = some pc') : pc'.pending? = pc.pending? := by
  cases pc with
  | acquire f st =>
    cases st with
    | wait => cases h; rfl
    | init id stage => cases stage <;> cases h <;> rfl
    | _ => cases h
  | consume id c st => cases c <;> cases st <;> cases h <;> rfl
  | finished => cases h

namespace World

variable {w w' : World} {a : Action} {s : Sys}

lemma pendingAt_set {call pc pc'} (hpc : w.calls[call]? = some pc)
    (i : Nat) : pendingAt { sys := s, calls := w.calls.set call pc' } i =
      if i = call then pc'.pending? else w.pendingAt i := by
  have hlt := (List.getElem?_eq_some_iff.mp hpc).1
  simp only [pendingAt, List.getElem?_set]
  by_cases h : i = call
  · subst h
    simp [hlt]
  · simp [h, Ne.symm h]

lemma pendingAt_append {pc} (i : Nat) :
    pendingAt { sys := s, calls := w.calls ++ [pc] } i =
      if i = w.calls.length then pc.pending? else w.pendingAt i := by
  simp only [pendingAt]
  rcases Nat.lt_trichotomy i w.calls.length with h | h | h
  · rw [List.getElem?_append_left h, if_neg h.ne]
  · subst h
    simp
  · rw [if_neg h.ne', List.getElem?_eq_none (by simp; omega), List.getElem?_eq_none h.le]

lemma pendingAt_lt {i f} (h : w.pendingAt i = some f) : i < w.calls.length := by
  obtain ⟨_, hpc, -⟩ := bind_some.mp h
  exact (List.getElem?_eq_some_iff.mp hpc).1

lemma pendingAt_length : w.pendingAt w.calls.length = none := by
  rw [pendingAt, List.getElem?_eq_none le_rfl]
  rfl

lemma Framed.pending (framed : w.Framed) {i f} (h : w.pendingAt i = some f) :
    f.currentLease = none ∧ f.transferMarker = none ∨
      ∃ id, f.currentLease = some id ∧ f.transferMarker = some i := by
  obtain ⟨pc, hpc, hp⟩ := bind_some.mp h
  cases pc with
  | acquire =>
    simp only [Pc.pending?] at hp
    split at hp
    · cases hp
      exact framed.frame hpc
    · cases hp
  | _ => cases hp

/-- The markers are those of the pending transfers, and an installed lease is asked to revoke only
by the transfer that has the marker of its key. -/
structure Marked (w : World) : Prop where
  tables : w.sys.Tables
  framed : w.Framed
  held : ∀ {key i}, w.sys.log.transfers.lookup key = some i →
    ∃ f, w.pendingAt i = some f ∧ f.key = key ∧ f.transferMarker = some i
  kept : ∀ {i f m}, w.pendingAt i = some f → f.transferMarker = some m →
    w.sys.log.closed = false → w.sys.log.transfers.lookup f.key = some m
  flagged : ∀ {key id lease}, w.sys.log.leases.lookup key = some id →
    w.sys.objects[id]? = some lease → lease.revocationRequested = true →
    ∃ i f, w.sys.log.transfers.lookup key = some i ∧ w.pendingAt i = some f ∧
      f.currentLease = some id

variable {key : CheckpointKey}

lemma Move.flagged (move : w.Move a w') {l'} (installed : w'.sys.log.leases.lookup key = some id)
    (obj : w'.sys.objects[id]? = some l') (flag : l'.revocationRequested = true) :
    (w.sys.log.leases.lookup key = some id ∧
      ∃ l, w.sys.objects[id]? = some l ∧ l.revocationRequested = true) ∨
    ∃ f, w.sys.Enters f w.calls.length w'.sys ∧ f.currentLease = some id ∧
      w'.calls = w.calls ++ [.acquire f (w'.sys.afterEnter f)] := by
  obtain ⟨l, old, touched⟩ | ⟨f, _, -, -, rfl⟩ := move.touched obj
  · have before : w.sys.log.leases.lookup key = some id := by
      cases move.retabled with
      | same hl => rw [← hl, installed]
      | install _ _ _ inst =>
        rw [inst.leases] at installed
        split at installed
        · cases installed
          have := (List.getElem?_eq_some_iff.mp old).1
          exact absurd this (lt_irrefl _)
        · exact installed
      | release _ _ hl =>
        rw [hl] at installed
        exact (Dict.erase_some installed).2
      | close hl =>
        rw [hl] at installed
        cases installed
    cases touched with
    | revoke ent captured calls => exact .inr ⟨_, ent, captured, calls⟩
    | restore => cases flag
    | _ => exact .inl ⟨before, _, old, flag⟩
  · cases flag

lemma afterEnter_pending (s : Sys) (f : AcquireFrame) :
    (Pc.acquire f (s.afterEnter f)).pending? = some f := by
  obtain h | ⟨_, _, h⟩ := s.afterEnter_cases f <;> rw [h] <;> rfl

lemma Move.flagged_before (move : w.Move a w') (same : w'.pendingAt w.calls.length = none) {l'}
    (installed : w'.sys.log.leases.lookup key = some id) (obj : w'.sys.objects[id]? = some l')
    (flag : l'.revocationRequested = true) :
    w.sys.log.leases.lookup key = some id ∧
      ∃ l, w.sys.objects[id]? = some l ∧ l.revocationRequested = true := by
  obtain before | ⟨f, -, -, calls⟩ := move.flagged installed obj flag
  · exact before
  · rw [pendingAt, calls, List.getElem?_concat_length] at same
    cases same.symm.trans (afterEnter_pending w'.sys f)

lemma Marked.keep (inv : w.Marked) (move : w.Move a w')
    (transfers : w'.sys.log.transfers = w.sys.log.transfers)
    (closed : w'.sys.log.closed = w.sys.log.closed) (same : ∀ i, w'.pendingAt i = w.pendingAt i) :
    w'.Marked := by
  have last := (same w.calls.length).trans pendingAt_length
  refine ⟨inv.tables.move move, inv.framed.move move, ?_, ?_, ?_⟩
  · intro key i h
    rw [transfers] at h
    rw [same]
    exact inv.held h
  · intro i f m h hm hc
    rw [same] at h
    rw [closed] at hc
    rw [transfers]
    exact inv.kept h hm hc
  · intro key id l' installed obj flag
    obtain ⟨before, l, old, flag'⟩ := move.flagged_before last installed obj flag
    obtain ⟨i, f, h, hp, captured⟩ := inv.flagged before old flag'
    rw [transfers]
    exact ⟨i, f, h, (same i).trans hp, captured⟩

lemma Marked.enter {f} (inv : w.Marked)
    (move : w.Move a { sys := s, calls := w.calls ++ [.acquire f (s.afterEnter f)] })
    (ent : w.sys.Enters f w.calls.length s) :
    Marked { sys := s, calls := w.calls ++ [.acquire f (s.afterEnter f)] } := by
  have pend : ∀ i, pendingAt { sys := s, calls := w.calls ++ [.acquire f (s.afterEnter f)] } i =
      if i = w.calls.length then some f else w.pendingAt i := by
    intro i
    rw [pendingAt_append, afterEnter_pending]
  have older : ∀ {i g}, w.pendingAt i = some g →
      pendingAt { sys := s, calls := w.calls ++ [.acquire f (s.afterEnter f)] } i = some g := by
    intro i g h
    rw [pend, if_neg (pendingAt_lt h).ne, h]
  refine ⟨inv.tables.move move, inv.framed.move move, ?_, ?_, ?_⟩
  · intro key i h
    obtain ⟨-, -, -, hs⟩ | ⟨cur, hcur, hm, free, hs⟩ := ent.cases
    · rw [hs] at h
      obtain ⟨g, hg, hkey, hmark⟩ := inv.held h
      exact ⟨g, older hg, hkey, hmark⟩
    · rw [hs] at h
      dsimp only [Sys.modify] at h
      rcases Dict.insert_cases h with ⟨hkey, rfl⟩ | ⟨-, h⟩
      · exact ⟨f, (pend _).trans (if_pos rfl), hkey.symm, hm⟩
      · obtain ⟨g, hg, hkey, hmark⟩ := inv.held h
        exact ⟨g, older hg, hkey, hmark⟩
  · intro i g m h hm' hc
    rw [pend] at h
    obtain ⟨-, hm, -, hs⟩ | ⟨cur, hcur, hm, free, hs⟩ := ent.cases
    · rw [hs]
      split at h
      · cases h
        cases hm.symm.trans hm'
      · exact inv.kept h hm' ent.opened
    · rw [hs]
      dsimp only [Sys.modify]
      rw [Dict.lookup_insert_ite]
      split at h
      · cases h
        rw [if_pos rfl, ← hm, hm']
      have found := inv.kept h hm' ent.opened
      rw [if_neg, found]
      intro hkey
      rw [hkey, free] at found
      cases found
  · intro key id l' installed obj flag
    obtain ⟨before, l, old, flag'⟩ | ⟨g, _, captured, calls⟩ :=
      move.flagged installed obj flag
    · obtain ⟨i, g, h, hp, hcap⟩ := inv.flagged before old flag'
      refine ⟨i, g, ?_, older hp, hcap⟩
      obtain ⟨-, -, -, hs⟩ | ⟨cur, hcur, hm, free, hs⟩ := ent.cases
      · rw [hs]
        exact h
      rw [hs]
      dsimp only [Sys.modify]
      rw [Dict.lookup_insert_ite, if_neg, h]
      rintro rfl
      cases h.symm.trans free
    · -- the captured lease is the installed one of the key of the transfer
      have same : f = g := by
        have := List.append_cancel_left calls
        cases this
        rfl
      subst same
      obtain ⟨hcur, -⟩ | ⟨_, hcur, _, _, hs⟩ := ent.cases
      · cases hcur.symm.trans captured
      have there := ent.captured.symm.trans captured
      have leases : s.log.leases = w.sys.log.leases := by rw [hs]; rfl
      have at_key : key = f.key := by
        dsimp only at installed
        rw [leases] at installed
        obtain ⟨_, obj₁, key₁, -⟩ := inv.tables.installed installed
        obtain ⟨_, obj₂, key₂, -⟩ := inv.tables.installed there
        cases obj₁.symm.trans obj₂
        exact key₁.symm.trans key₂
      refine ⟨w.calls.length, f, ?_, (pend _).trans (if_pos rfl), captured⟩
      rw [hs]
      dsimp only [Sys.modify]
      rw [Dict.lookup_insert_ite, if_pos at_key]

section
variable {call : Nat} {pc pc' : Pc} {f : AcquireFrame} (inv : w.Marked) (hpc : w.calls[call]? = some pc)
  (hf : pc.pending? = some f) (through : pc'.pending? = none)
include inv hpc hf through

/-- A call whose second section ends takes its own marker away if it takes any, and the request to
revoke with it. -/
lemma Marked.ended {unmarks} [Decidable unmarks]
    (move : w.Move a { sys := s, calls := w.calls.set call pc' })
    (transfers : ∀ key, s.log.transfers.lookup key =
      if unmarks ∧ key = f.key then none else w.sys.log.transfers.lookup key)
    (own : unmarks → w.sys.log.transfers.lookup f.key = some call)
    (drops : w.sys.log.transfers.lookup f.key = some call → f.transferMarker = some call → unmarks)
    (opened : s.log.closed = false → w.sys.log.closed = false)
    (answered : ∀ {id l l'}, s.log.leases.lookup f.key = some id → s.objects[id]? = some l' →
      l'.revocationRequested = true → unmarks → f.currentLease = some id →
      w.sys.log.leases.lookup f.key = some id → w.sys.objects[id]? = some l → False) :
    Marked { sys := s, calls := w.calls.set call pc' } := by
  have pend : ∀ i, pendingAt { sys := s, calls := w.calls.set call pc' } i =
      if i = call then none else w.pendingAt i := by
    intro i
    rw [pendingAt_set hpc, through]
  have mine : w.pendingAt call = some f := by rw [pendingAt, hpc]; exact hf
  refine ⟨inv.tables.move move, inv.framed.move move, ?_, ?_, ?_⟩
  · intro key i h
    dsimp only at h
    rw [transfers] at h
    split at h
    · cases h
    rename_i other
    obtain ⟨g, hg, hkey, hmark⟩ := inv.held h
    refine ⟨g, ?_, hkey, hmark⟩
    rw [pend, if_neg, hg]
    rintro rfl
    cases mine.symm.trans hg
    subst hkey
    exact other ⟨drops h hmark, rfl⟩
  · intro i g m h hm hc
    rw [pend] at h
    split at h
    · cases h
    rename_i other
    have found := inv.kept h hm (opened hc)
    dsimp only
    rw [transfers, if_neg, found]
    rintro ⟨gone, hkey⟩
    rw [hkey, own gone] at found
    cases found
    obtain ⟨-, none'⟩ | ⟨_, -, some'⟩ := inv.framed.pending h
    · cases none'.symm.trans hm
    cases hm.symm.trans some'
    exact other rfl
  · intro key id l' installed obj flag
    have last : pendingAt { sys := s, calls := w.calls.set call pc' } w.calls.length = none := by
      rw [pend, pendingAt_length, ite_self]
    obtain ⟨before, l, old, flag'⟩ := move.flagged_before last installed obj flag
    obtain ⟨i, g, h, hp, captured⟩ := inv.flagged before old flag'
    obtain ⟨_, hp', hkey, hmark⟩ := inv.held h
    cases hp.symm.trans hp'
    by_cases hi : i = call
    · subst hi
      cases mine.symm.trans hp
      subst hkey
      exact (answered installed obj flag (drops h hmark) captured before old).elim
    · refine ⟨i, g, ?_, ?_, captured⟩
      · dsimp only
        rw [transfers, if_neg, h]
        rintro ⟨gone, rfl⟩
        cases h.symm.trans (own gone)
        exact hi rfl
      · rw [pend, if_neg hi, hp]

lemma Marked.install {token} (inst : w.sys.Installs f token s)
    (move : w.Move a { sys := s, calls := w.calls.set call pc' }) :
    Marked { sys := s, calls := w.calls.set call pc' } := by
  have mine : w.pendingAt call = some f := by rw [pendingAt, hpc]; exact hf
  refine inv.ended hpc hf through move inst.transfers ?_ ?_ (fun _ => inst.opened) ?_
  · intro marked
    obtain ⟨_, hmark⟩ := Option.isSome_iff_exists.mp marked
    obtain ⟨-, none⟩ | ⟨_, -, some⟩ := inv.framed.pending mine
    · cases none.symm.trans hmark
    cases hmark.symm.trans some
    exact (inst.marked _ hmark).1
  · intro _ hmark
    rw [hmark]
    rfl
  · intro id l l' installed _ _ _ _ _ old
    rw [inst.leases, if_pos rfl] at installed
    cases installed
    exact absurd (List.getElem?_eq_some_iff.mp old).1 (lt_irrefl _)

lemma Marked.cancel
    (move : w.Move a { sys := w.sys.cancelAcquire f, calls := w.calls.set call pc' }) :
    Marked { sys := w.sys.cancelAcquire f, calls := w.calls.set call pc' } := by
  have mine : w.pendingAt call = some f := by rw [pendingAt, hpc]; exact hf
  have transfers : ∀ key, (w.sys.cancelAcquire f).log.transfers.lookup key =
      if w.sys.holdsMarker f = true ∧ key = f.key then none
      else w.sys.log.transfers.lookup key := by
    intro key
    simp only [Sys.cancelAcquire, Log.releaseStrategyReservation]
    by_cases holds : w.sys.holdsMarker f = true
    · rw [if_pos holds, Dict.lookup_erase_ite]
      simp [holds]
    · rw [if_neg holds, if_neg (fun both => holds both.1)]
  refine inv.ended hpc hf through move transfers ?_ ?_ id ?_
  · intro holds
    simp only [Sys.holdsMarker, Bool.and_eq_true, decide_eq_true_eq] at holds
    obtain ⟨-, none⟩ | ⟨_, -, some⟩ := inv.framed.pending mine
    · rw [none] at holds
      cases holds.1
    · rw [holds.2, some]
  · intro h hm
    simp [Sys.holdsMarker, h, hm]
  -- the transfer that asked is the one that cleans up, so the lease is no longer asked
  intro id l l' _ obj flag holds captured before old
  dsimp only [Sys.cancelAcquire] at obj
  rw [captured] at obj
  dsimp only at obj
  rw [if_pos ⟨holds, before⟩, List.getElem?_modify, old] at obj
  simp only [if_true, Option.map_eq_map, Option.map_some, Option.some.injEq] at obj
  rw [← obj] at flag
  cases flag

end

lemma Marked.start (n : ℕ+) : Marked (start n) where
  tables := .start n
  framed := ⟨nofun, nofun⟩
  held := nofun
  kept := by
    intro i f m h
    cases h
  flagged := nofun

lemma Marked.move (inv : w.Marked) (move : w.Move a w') : w'.Marked := by
  have begun : ∀ {s pc}, pc.pending? = none →
      ∀ i, pendingAt { sys := s, calls := w.calls ++ [pc] } i = w.pendingAt i := by
    intro s pc none i
    rw [pendingAt_append]
    split
    · rename_i hi
      rw [none, hi, pendingAt_length]
    · rfl
  have moved : ∀ {s} {call : Nat} {pc pc'}, w.calls[call]? = some pc →
      pc'.pending? = pc.pending? →
      ∀ i, pendingAt { sys := s, calls := w.calls.set call pc' } i = w.pendingAt i := by
    intro s call pc pc' hpc same i
    rw [pendingAt_set hpc]
    split
    · rename_i hi
      rw [same, hi, pendingAt, hpc]
      rfl
    · rfl
  have step := move
  cases move with
  | rewrite kept => exact inv.keep step (by rw [kept]) (by rw [kept]) fun _ => rfl
  | store kept => exact inv.keep step (by rw [kept]; rfl) (by rw [kept]; rfl) fun _ => rfl
  | close =>
    refine ⟨inv.tables.move step, inv.framed.move step, nofun, ?_, nofun⟩
    intro i f m _ _ hc
    cases hc
  | refuse => exact inv.keep step rfl rfl (begun rfl)
  | enter ent => exact inv.enter step ent
  | begin id returned place =>
    refine inv.keep step rfl rfl (begun ?_)
    obtain idle | ⟨_, rfl⟩ := place
    · exact idle.pending?
    · rfl
  | stop => exact inv.keep step rfl rfl fun _ => rfl
  | release =>
    exact inv.keep step (w.sys.release_log _ _).transfers (w.sys.release_log _ _).closed fun _ => rfl
  | advance hpc adv =>
    obtain ⟨ht, hc, same⟩ | ⟨f, _, hf, inst, through⟩ | ⟨f, hf, rfl, through⟩ := adv.transfers
    · exact inv.keep step ht hc (moved hpc same)
    · exact inv.install hpc hf through inst step
    · exact inv.cancel hpc hf through step
  | cancel hpc hc => exact inv.keep step rfl rfl (moved hpc (Pc.cancel_pending hc))

lemma Marked.unique (inv : w.Marked) {lease} (installed : w.sys.log.leases.lookup key = some id)
    (obj : w.sys.objects[id]? = some lease)
    (flag : lease.revocationRequested = true) : ∃! i, w.PendingTransfer key i := by
  have hopen : w.sys.log.closed = false := by
    cases hc : w.sys.log.closed with
    | false => rfl
    | true => cases installed.symm.trans (inv.tables.closed hc key)
  obtain ⟨i, f, h, hp, -⟩ := inv.flagged installed obj flag
  obtain ⟨_, hp', hkey, hmark⟩ := inv.held h
  cases hp.symm.trans hp'
  refine ⟨i, ⟨f, hp, hkey, by rw [hmark]; rfl⟩, ?_⟩
  rintro j ⟨g, hg, hkey', marked⟩
  obtain ⟨m, hm⟩ := Option.isSome_iff_exists.mp marked
  have found := inv.kept hg hm hopen
  rw [hkey', h] at found
  cases found
  obtain ⟨-, none⟩ | ⟨_, -, some⟩ := inv.framed.pending hg
  · cases none.symm.trans hm
  · cases hm.symm.trans some
    rfl

end World

/-- Whether a waiter that saw the event clear when it had been set `since` times is still asleep
only while it is clear. -/
def AsyncEvent.Waited (e : AsyncEvent) (since : Nat) : Prop :=
  since ≤ e.sets ∧ (since = e.sets → e.value = false)

lemma AsyncEvent.Waited.set {e : AsyncEvent} {since} (h : e.Waited since) : e.set.Waited since := by
  unfold AsyncEvent.set
  split
  · exact h
  · exact ⟨h.1.trans (Nat.le_succ _), fun same => absurd (same ▸ h.1) (Nat.not_succ_le_self _)⟩

lemma AsyncEvent.set_value (e : AsyncEvent) : e.set.value = true := by
  unfold AsyncEvent.set
  split
  · assumption
  · rfl

namespace World

variable {w w' : World} {a : Action} {n : ℕ+}

/-- The event of a lease is clear exactly while a delivery is in flight, and who waits for it is
woken when it is set. -/
structure Woken (w : World) : Prop where
  event : ∀ {id : LeaseId} {lease : Lease}, w.sys.objects[id]? = some lease →
    lease.deliveryCompleted.value = lease.inFlight.isNone
  waiting : ∀ {i : Nat} {f : AcquireFrame} {id : LeaseId} {since : Nat},
    w.calls[i]? = some (.acquire f (.wait id since)) →
    ∃ lease, w.sys.objects[id]? = some lease ∧ lease.deliveryCompleted.Waited since

lemma Woken.start (n : ℕ+) : Woken (start n) := ⟨nofun, nofun⟩

lemma Woken.move (inv : w.Woken) (move : w.Move a w') : w'.Woken := by
  constructor
  · intro id l' obj'
    obtain ⟨l, obj, touched⟩ | ⟨f, _, -, -, rfl⟩ := move.touched obj'
    · have before := inv.event obj
      cases touched with
      | stop | release | complete => exact AsyncEvent.set_value _
      | deliver => rfl
      | _ => exact before
    · rfl
  · intro i f id since h
    obtain ⟨_, old, wait⟩ | ⟨-, -, hst⟩ := (move.called h).acquire
    · rw [wait id since rfl] at old
      obtain ⟨l, obj, waited⟩ := inv.waiting old
      obtain ⟨l', obj', touched⟩ := move.touched_of_some obj
      refine ⟨l', obj', ?_⟩
      cases touched with
      | stop | release | complete => exact waited.set
      | deliver => exact ⟨waited.1, fun _ => rfl⟩
      | _ => exact waited
    · obtain ⟨-, lease, obj, clear, rfl⟩ := Sys.afterEnter_wait hst.symm
      exact ⟨lease, obj, le_rfl, fun _ => clear⟩

lemma Woken.goes_on (inv : w.Woken) {i f since lease}
    (hpc : w.calls[i]? = some (.acquire f (.wait id since))) (obj : w.sys.objects[id]? = some lease)
    (idle : lease.inFlight = none) (env : Env) : (w.step (.resume i env)).isSome = true := by
  obtain ⟨_, obj', waited⟩ := inv.waiting hpc
  cases obj.symm.trans obj'
  have set : lease.deliveryCompleted.value = true := by rw [inv.event obj, idle]; rfl
  have woken : since < lease.deliveryCompleted.sets := by
    refine lt_of_le_of_ne waited.1 fun same => ?_
    cases set.symm.trans (waited.2 same)
  simp [step, hpc, Sys.advance, Sys.advanceAcquire, obj, woken]

/-- A `next_record` that comes to its last section finds its lease not stopped. -/
def activeAtDelivery (w : World) : Action → Bool
  | .resume call _ =>
    match w.calls[call]? with
    | some (.consume id _ (.nextDeliver _)) => (w.sys.objects[id]?).all (·.stopped = false)
    | _ => true
  | _ => true

/-- A stopped or released lease has nothing in flight. -/
structure Quiescent (w : World) : Prop where
  marked : w.Marked
  woken : w.Woken
  idle : ∀ {id : LeaseId} {lease : Lease}, w.sys.objects[id]? = some lease →
    lease.stopped = true ∨ lease.released = true → lease.inFlight = none

lemma Quiescent.start (n : ℕ+) : Quiescent (start n) := ⟨.start n, .start n, nofun⟩

lemma Quiescent.move (inv : w.Quiescent) (ok : w.activeAtDelivery a = true)
    (move : w.Move a w') : w'.Quiescent := by
  refine ⟨inv.marked.move move, inv.woken.move move, ?_⟩
  intro id l' obj' off
  obtain ⟨l, obj, touched⟩ | ⟨f, _, -, -, rfl⟩ := move.touched obj'
  · have before := inv.idle obj
    cases touched with
    | stop | release | complete => rfl
    | deliver ha hpc made =>
      -- a lease that passes the owner check is installed, hence not released
      obtain ⟨owner, -⟩ := Sys.deliver_ok made
      obtain ⟨_, obj₁, -, -, -, live⟩ :=
        inv.marked.tables.installed (inv.marked.tables.installed_of_owner obj owner)
      cases obj.symm.trans obj₁
      subst ha
      simp only [activeAtDelivery, hpc, obj, Option.all_some, decide_eq_true_eq] at ok
      obtain stopped | released := off
      · cases ok.symm.trans stopped
      · cases live.symm.trans released
    | _ => exact before off
  · rfl

end World

/-- While no `next_record` comes to its last section on a stopped lease, a stopped or released lease
has nothing in flight and blocks no transfer, and an installed lease is asked to revoke only while
exactly one transfer of its key is pending. -/
theorem stopped_leases_idle {n : ℕ+} {w : World}
    (r : Reach World.step (fun w a => w.activeAtDelivery a = true) (World.start n) w) :
    (∀ (id : LeaseId) (lease : Lease), w.sys.objects[id]? = some lease →
      lease.stopped = true ∨ lease.released = true → lease.inFlight = none ∧
        ∀ (i : Nat) (f : AcquireFrame) (since : Nat) (env : Env),
          w.calls[i]? = some (.acquire f (.wait id since)) →
          (w.step (.resume i env)).isSome = true) ∧
    ∀ (key : CheckpointKey) (id : LeaseId) (lease : Lease), w.sys.log.leases.lookup key = some id →
      w.sys.objects[id]? = some lease → lease.revocationRequested = true →
      ∃! i, w.PendingTransfer key i := by
  have inv : w.Quiescent := by
    refine World.invariant_of_moves r (.start n) ?_ fun inv ok move => inv.move ok move
    intro w call env f hpc
    simp [World.activeAtDelivery, hpc]
  constructor
  · intro id lease obj off
    have idle := inv.idle obj off
    exact ⟨idle, fun i f since env hpc => inv.woken.goes_on hpc obj idle env⟩
  · intro key id lease installed obj flag
    exact inv.marked.unique installed obj flag

/-- Lease 0 owns partition 0 with an external store, and call 1 is a `next_record` whose load has
just answered. -/
def loadingRun : List Action :=
  [.declareStream ordersDefinition,
    .append (.aware 10) (.returned 0) "orders" (eventsRequest 1 [1] none),
    .acquire billingA 0 (.external "checkpoints" 0) false,
    .resume 0 {}, .resume 0 {}, .resume 0 {}, .resume 0 {}, .resume 0 {}, .resume 0 {},
    .nextRecord 0, .resume 1 {}]

/-- The record is delivered, a transfer waits for it, and the lease is stopped. -/
def stoppingRun : List Action :=
  loadingRun ++
    [.resume 1 {}, .resume 1 {},
      .acquire billingB 0 (.external "checkpoints" 0) true, .stop 0]

theorem stopped_leases_idle_stopping :
    ∃ w lease, execBy World.step World.activeAtDelivery (World.start 8) stoppingRun = some w ∧
      w.sys.objects[0]? = some lease ∧ lease.stopped = true ∧ lease.inFlight = none ∧
      lease.revocationRequested = true ∧ ∃! i, w.PendingTransfer ⟨"orders", "billing", 0⟩ i := by
  obtain ⟨w, hw⟩ : ∃ w, execBy World.step World.activeAtDelivery (World.start 8) stoppingRun
    = some w := ⟨_, rfl⟩
  have facts : (execBy World.step World.activeAtDelivery (World.start 8) stoppingRun).map
      (fun w => (w.sys.log.leases.lookup ⟨"orders", "billing", 0⟩,
        w.sys.objects[0]?.map fun l => (l.stopped, l.revocationRequested))) =
      some (some 0, some (true, true)) := rfl
  rw [hw] at facts
  obtain ⟨installed, flags⟩ := Prod.mk.inj (Option.some.inj facts)
  obtain ⟨lease, obj, flags⟩ := Option.map_eq_some_iff.mp flags
  obtain ⟨stopped, revoked⟩ := Prod.mk.inj flags
  obtain ⟨idle, unique⟩ := stopped_leases_idle (Reach.of_execBy (fun _ _ ok => ok) .refl hw)
  exact ⟨w, lease, hw, obj, stopped, (idle 0 lease obj (.inl stopped)).1, revoked,
    unique _ 0 lease installed obj revoked⟩

/-- The lease is stopped before the suspended `next_record` comes to its last section, and a
transfer follows. -/
def stoppedDeliveryRun : List Action :=
  loadingRun ++
    [.stop 0, .resume 1 {}, .resume 1 {},
      .acquire billingB 0 (.external "checkpoints" 0) true]

theorem stopped_lease_takes_delivery :
    ∃ w lease, Reachable World.step (World.start 8) w ∧ w.sys.objects[0]? = some lease ∧
      lease.stopped = true ∧ lease.inFlight ≠ none ∧
      ∀ env, w.step (.resume 2 env) = none := by
  refine ⟨_, _, Reach.of_exec .refl
    (rfl : exec World.step (World.start 8) stoppedDeliveryRun = some _), rfl, rfl, Option.some_ne_none _, ?_⟩
  intro env
  rfl

end ToriPy.PersistentStreams
