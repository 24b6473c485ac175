import ToriPy.PersistentStreams.Events
import ToriPy.PersistentStreams.Strategies

/-!
# From an installed lease to a returned one

`_initialize` fences the store, finds or creates the cursor and checks that the lease still owns its
key. `World.Initialized` records how far each call has come: a lease behind its fence has a fence in
the trace, a lease behind its owner check has a cursor, no lease is initialized by two calls, and a
returned lease has all of it, together with the strategy recorded for its group.
-/

namespace ToriPy.PersistentStreams

def CheckpointKey.scope (key : CheckpointKey) : Scope := (key.stream, key.group)

namespace Sys

def FencedFor (s : Sys) (lease : Lease) : Prop :=
  ∀ store, lease.store = some store → .fenced store lease.key lease.owner ∈ s.trace

def HasCursor (s : Sys) (lease : Lease) : Prop := ∃ c, s.cursor lease.store lease.key = some c

/-- What a lease has at a stage of its initialization. -/
def InitOk (s : Sys) (lease : Lease) : InitStage → Prop
  | .fence => True
  | .load => s.FencedFor lease
  | .resolve => s.FencedFor lease
  | .create _ => s.FencedFor lease
  | .owner => s.FencedFor lease ∧ s.HasCursor lease
  | .broker => lease.store = none
  | .finish => s.FencedFor lease ∧ s.HasCursor lease
  | .failed _ => True

end Sys

/-- What a section did to the lease it initializes. -/
inductive Initializes (s s' : Sys) (id : LeaseId) : InitStage → InitStage → Prop where
  | same {st} : Initializes s s' id st st
  | failed {st e} : Initializes s s' id st (.failed e)
  | fence {lease store} : s.objects[id]? = some lease → lease.store = some store →
    s' = s.fence lease store → Initializes s s' id .fence .load
  | vacant : s' = s → Initializes s s' id .load .resolve
  | found {lease} : s.objects[id]? = some lease → s.HasCursor lease → s' = s →
    Initializes s s' id .load .owner
  | resolve {start} : s' = s → Initializes s s' id .resolve (.create (.initialized start))
  | create {lease cursor} : s.objects[id]? = some lease → s'.HasCursor lease →
    Initializes s s' id (.create cursor) .owner
  | owner {lease} : s.objects[id]? = some lease →
    s.log.owners.lookup lease.key = some lease.owner → s' = s →
    Initializes s s' id .owner .finish
  | broker {lease c} : s.objects[id]? = some lease → s'.cursor none lease.key = some c →
    Initializes s s' id .broker .finish

variable {id : LeaseId} {f : AcquireFrame} {st' : InitStage}

lemma Sys.Advance.initializes {s s' pc pc'} (adv : s.Advance pc s' pc')
    (h : pc' = .acquire f (.init id st')) :
    (∃ st, pc = .acquire f (.init id st) ∧ Initializes s s' id st st') ∨
      ∃ token, id = s.objects.length ∧ s.Installs f token s' ∧ st' = f.firstStage := by
  cases adv with
  | install _ inst =>
    cases h
    exact .inr ⟨_, rfl, inst, rfl⟩
  | fence obj hstore next =>
    cases h
    obtain rfl | ⟨e, rfl⟩ := next
    · exact .inl ⟨_, rfl, .fence obj hstore rfl⟩
    · exact .inl ⟨_, rfl, .failed⟩
  | fail =>
    cases h
    exact .inl ⟨_, rfl, .failed⟩
  | vacant =>
    cases h
    exact .inl ⟨_, rfl, .vacant rfl⟩
  | found obj hc =>
    cases h
    exact .inl ⟨_, rfl, .found obj ⟨_, hc⟩ rfl⟩
  | resolve =>
    cases h
    exact .inl ⟨_, rfl, .resolve rfl⟩
  | @create _ _ lease store cursor _ _ obj hstore made next =>
    cases h
    obtain rfl | ⟨e, rfl⟩ := next
    · refine .inl ⟨_, rfl, .create obj ?_⟩
      obtain ⟨-, -, ⟨⟨c, hc⟩, rfl⟩ | ⟨-, rfl⟩⟩ := Sys.createCursor_ok made
      · exact ⟨c, by rw [hstore]; exact hc⟩
      · exact ⟨cursor, by simp [hstore, Sys.cursor, Sys.setStore, Sys.emit]⟩
    · exact .inl ⟨_, rfl, .failed⟩
  | owner obj owns =>
    cases h
    exact .inl ⟨_, rfl, .owner obj owns rfl⟩
  | @broker _ _ lease _ _ obj made =>
    cases h
    obtain ⟨c, hc⟩ : ∃ c, s'.cursor none lease.key = some c := by
      obtain ⟨-, ⟨hc, rfl⟩ | ⟨-, start, rfl⟩⟩ := Sys.initBroker_ok made
      · exact hc
      · exact ⟨.initialized start, by simp [Sys.cursor]⟩
    exact .inl ⟨_, rfl, .broker obj hc⟩
  | quiet obj q =>
    obtain ⟨⟨st, hpc⟩, -⟩ := (Sys.Advance.quiet obj q).acquire h
    cases hpc
  | deliver obj made =>
    obtain ⟨⟨st, hpc⟩, -⟩ := (Sys.Advance.deliver obj made).acquire h
    cases hpc
  | handled obj =>
    obtain ⟨⟨_, hpc⟩, -⟩ := (Sys.Advance.handled obj).acquire h
    cases hpc
  | save _ _ _ idle | complete idle | commit _ _ idle | stop idle | release _ idle =>
    subst h; cases idle
  | _ => cases h

lemma Pc.cancel_init {pc : Pc} (h : pc.cancel = some (.acquire f (.init id st'))) :
    ∃ st e, pc = .acquire f (.init id st) ∧ st' = .failed e := by
  cases pc with
  | acquire g st =>
    cases st with
    | wait => cases h
    | init id stage => cases stage <;> cases h <;> exact ⟨_, _, rfl, rfl⟩
    | _ => cases h
  | consume id c st => cases c <;> cases st <;> cases h
  | finished => cases h

namespace World

variable {w w' : World} {a : Action} {lease lease' : Lease}

lemma Move.initializes (move : w.Move a w') {i : Nat}
    (h : w'.calls[i]? = some (.acquire f (.init id st'))) :
    (∃ st, w.calls[i]? = some (.acquire f (.init id st)) ∧
        Initializes w.sys w'.sys id st st') ∨
      ∃ env token, a = .resume i env ∧ id = w.sys.objects.length ∧
        w.sys.Installs f token w'.sys ∧ st' = f.firstStage := by
  generalize hpc : Pc.acquire f (.init id st') = pc at h
  cases move.called h with
  | kept old =>
    subst hpc
    exact .inl ⟨st', old, .same⟩
  | advanced ha old adv =>
    obtain ⟨st, rfl, init⟩ | ⟨token, fresh⟩ := adv.initializes hpc.symm
    · exact .inl ⟨st, old, init⟩
    · exact .inr ⟨_, token, ha, fresh⟩
  | cancelled old hc =>
    subst hpc
    obtain ⟨st, e, rfl, rfl⟩ := Pc.cancel_init hc
    exact .inl ⟨st, old, .failed⟩
  | refused => cases hpc
  | @entered g =>
    injection hpc with _ hst
    obtain h | ⟨_, _, h⟩ := w'.sys.afterEnter_cases g <;> cases hst.trans h
  | begun _ _ _ _ place =>
    subst hpc
    obtain idle | ⟨_, h⟩ := place
    · cases idle
    · cases h

lemma Move.returned (move : w.Move a w') (h : w.sys.returned id = true) :
    w'.sys.returned id = true := by
  obtain ⟨key, owner, mem⟩ := Sys.returned_iff.mp h
  exact Sys.returned_iff.mpr ⟨key, owner, move.mem_trace mem⟩

lemma Move.fencedFor (move : w.Move a w') (key : lease'.key = lease.key)
    (owner : lease'.owner = lease.owner) (store : lease'.store = lease.store)
    (h : w.sys.FencedFor lease) : w'.sys.FencedFor lease' := by
  intro st hst
  rw [key, owner]
  exact move.mem_trace (h st (store ▸ hst))

lemma Move.hasCursor (move : w.Move a w') (key : lease'.key = lease.key)
    (store : lease'.store = lease.store) (h : w.sys.HasCursor lease) : w'.sys.HasCursor lease' := by
  obtain ⟨c, hc⟩ := h
  obtain ⟨c', hc', -⟩ := move.cursor hc
  exact ⟨c', by rw [key, store]; exact hc'⟩

/-- Every lease has what its call has come to, and a returned lease all of it. -/
structure Initialized (w : World) : Prop where
  tables : w.sys.Tables
  reserved : w.Reserved
  init : ∀ {i : Nat} {f : AcquireFrame} {id : LeaseId} {st : InitStage},
    w.calls[i]? = some (.acquire f (.init id st)) →
      ∃ lease, w.sys.objects[id]? = some lease ∧ lease.key = f.key ∧
        lease.store = f.binding.store ∧ w.sys.returned id = false ∧ w.sys.InitOk lease st
  distinct : ∀ {i j : Nat} {f g : AcquireFrame} {id : LeaseId} {st st' : InitStage},
    w.calls[i]? = some (.acquire f (.init id st)) → w.calls[j]? = some (.acquire g (.init id st')) →
      i = j
  acquired : ∀ {id : LeaseId} {key : CheckpointKey} {owner : OwnershipToken},
    .acquired id key owner ∈ w.sys.trace →
      ∃ lease b, w.sys.objects[id]? = some lease ∧ lease.key = key ∧ lease.owner = owner ∧
        w.sys.FencedFor lease ∧ w.sys.HasCursor lease ∧
        w.sys.log.groupStrategies.lookup key.scope = some b ∧ b.store = lease.store
  consume : ∀ {i : Nat} {id : LeaseId} {c : Caller} {st : ConsumeStage},
    w.calls[i]? = some (.consume id c st) → w.sys.returned id = true

lemma Initialized.start (n : ℕ+) : (start n).Initialized where
  tables := .start n
  reserved := .start n
  init := nofun
  distinct := nofun
  acquired := nofun
  consume := nofun

lemma Initialized.object (inv : w.Initialized) (h : w.sys.returned id = true) :
    ∃ lease, w.sys.objects[id]? = some lease := by
  obtain ⟨_, _, mem⟩ := Sys.returned_iff.mp h
  obtain ⟨lease, -, obj, -⟩ := inv.acquired mem
  exact ⟨lease, obj⟩

lemma Initialized.not_returned (inv : w.Initialized) (move : w.Move a w') {i : Nat} {f f' st st'}
    (old : w.calls[i]? = some (.acquire f (.init id st)))
    (new : w'.calls[i]? = some (.acquire f' (.init id st'))) : w'.sys.returned id = false := by
  obtain ⟨-, -, -, -, fresh, -⟩ := inv.init old
  refine Bool.eq_false_iff.mpr fun returned => ?_
  obtain ⟨key, owner, mem⟩ := Sys.returned_iff.mp returned
  obtain mem | em := move.emitted mem
  · cases fresh.symm.trans (Sys.returned_iff.mpr ⟨key, owner, mem⟩)
  · cases em with
    | acquired hpc _ _ ended =>
      rw [inv.distinct hpc old] at ended
      cases new.symm.trans ended

lemma Move.initOk (move : w.Move a w') {st st'} (init : Initializes w.sys w'.sys id st st')
    (obj : w.sys.objects[id]? = some lease) (key : lease'.key = lease.key)
    (owner : lease'.owner = lease.owner) (store : lease'.store = lease.store)
    (ok : w.sys.InitOk lease st) : w'.sys.InitOk lease' st' := by
  have fenced : w.sys.FencedFor lease → w'.sys.FencedFor lease' := move.fencedFor key owner store
  have cursor : w.sys.HasCursor lease → w'.sys.HasCursor lease' := move.hasCursor key store
  cases init with
  | same =>
    cases st with
    | fence | failed => trivial
    | owner | finish => exact ⟨fenced ok.1, cursor ok.2⟩
    | broker => exact store.trans ok
    | _ => exact fenced ok
  | failed => trivial
  | fence obj' hstore same =>
    cases obj.symm.trans obj'
    intro st hst
    cases hstore.symm.trans (store.symm.trans hst)
    rw [key, owner, same]
    exact List.mem_append_right _ (List.mem_singleton.mpr rfl)
  | vacant | resolve => exact fenced ok
  | found obj' found =>
    cases obj.symm.trans obj'
    exact ⟨fenced ok, cursor found⟩
  | create obj' made =>
    cases obj.symm.trans obj'
    obtain ⟨c, hc⟩ := made
    exact ⟨fenced ok, c, by rw [key, store]; exact hc⟩
  | owner => exact ⟨fenced ok.1, cursor ok.2⟩
  | @broker lease₀ c obj' made =>
    cases obj.symm.trans obj'
    have none : lease'.store = none := store.trans ok
    refine ⟨fun st hst => ?_, c, ?_⟩
    · cases none.symm.trans hst
    · rw [none, key]
      exact made

lemma Initialized.move (inv : w.Initialized) (move : w.Move a w') : w'.Initialized where
  tables := inv.tables.move move
  reserved := inv.reserved.move move
  init := by
    intro i f id st' h
    obtain ⟨st, old, init⟩ | ⟨_, token, -, rfl, inst, rfl⟩ := move.initializes h
    · obtain ⟨lease, obj, key, store, -, ok⟩ := inv.init old
      obtain ⟨lease', obj', touched⟩ := move.touched_of_some obj
      obtain ⟨key', owner', store', -⟩ := touched.identity
      exact ⟨lease', obj', key'.trans key, store'.trans store, inv.not_returned move old h,
        move.initOk init obj key' owner' store' ok⟩
    · refine ⟨f.newLease token, by rw [inst.objects]; exact List.getElem?_concat_length, rfl, rfl,
        ?_, ?_⟩
      · refine Bool.eq_false_iff.mpr fun returned => ?_
        obtain ⟨key, owner, mem⟩ := Sys.returned_iff.mp returned
        rw [inst.trace, List.mem_append, List.mem_singleton] at mem
        obtain mem | mem := mem
        · obtain ⟨lease, obj⟩ := inv.object (Sys.returned_iff.mpr ⟨key, owner, mem⟩)
          exact absurd (List.getElem?_eq_some_iff.mp obj).1 (lt_irrefl _)
        · cases mem
      · unfold AcquireFrame.firstStage
        split
        · trivial
        · rename_i none
          exact Option.not_isSome_iff_eq_none.mp none
  distinct := by
    intro i j f g id st st' hi hj
    -- the lease of a second section is a new object, so no other call initializes it
    have fresh : ∀ {k : Nat} {f st},
        w.calls[k]? ≠ some (.acquire f (.init w.sys.objects.length st)) := by
      intro k f st h
      obtain ⟨lease, obj, -⟩ := inv.init h
      exact absurd (List.getElem?_eq_some_iff.mp obj).1 (lt_irrefl _)
    obtain ⟨_, old, -⟩ | ⟨_, _, ha, rfl, -⟩ := move.initializes hi
    · obtain ⟨_, old', -⟩ | ⟨_, _, -, rfl, -⟩ := move.initializes hj
      · exact inv.distinct old old'
      · exact absurd old fresh
    · obtain ⟨_, old', -⟩ | ⟨_, _, ha', -⟩ := move.initializes hj
      · exact absurd old' fresh
      · rw [ha] at ha'
        cases ha'
        rfl
  acquired := by
    intro id key owner h
    obtain old | em := move.emitted h
    · obtain ⟨lease, b, obj, rfl, rfl, fenced, cursor, strategy, store⟩ := inv.acquired old
      obtain ⟨lease', obj', touched⟩ := move.touched_of_some obj
      obtain ⟨key', owner', store', -⟩ := touched.identity
      exact ⟨lease', b, obj', key', owner', move.fencedFor key' owner' store' fenced,
        move.hasCursor key' store' cursor, inv.reserved.strategy_stays move strategy,
        store.trans store'.symm⟩
    · cases em with
      | @acquired call f _ lease hpc obj same =>
        obtain ⟨_, obj₀, key, store, -, fenced, cursor⟩ := inv.init hpc
        cases obj.symm.trans obj₀
        refine ⟨lease, f.binding, by rw [same]; exact obj, rfl, rfl,
          move.fencedFor rfl rfl rfl fenced, move.hasCursor rfl rfl cursor, ?_, store.symm⟩
        rw [same, key]
        exact AList.lookup_insert _
  consume := by
    intro i id c st h
    obtain old | ⟨_, _, old, -⟩ | ⟨-, returned, -⟩ := (move.called h).consume
    · exact move.returned (inv.consume old)
    · exact move.returned (inv.consume old)
    · exact move.returned returned

end World

end ToriPy.PersistentStreams
