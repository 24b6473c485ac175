import ToriPy.PersistentStreams.Ownership

/-!
# What a move adds to the trace

The trace, the resume cursors and the stores' owners change together. A move adds one event, which
`Emitted` describes, or it adds nothing and touches none of them (`Traced`). From it: the trace only
grows, no cursor falls back (`Move.cursor`), and the owner of a key in a store changes only by a
fence (`Move.storeOwners`).
-/

namespace ToriPy.PersistentStreams

/-- Who may write a cursor: for the log's own table the owner in the log, for a store its fenced
owner. -/
def Sys.Authorised (s : Sys) (lease : Lease) : Option StoreId → Prop
  | none => s.log.owners.lookup lease.key = some lease.owner
  | some store => lease.store = some store ∧
      (s.stores store).owners.lookup lease.key = some lease.owner

/-- One cursor was written and nothing else of cursors and stores' owners changed. -/
structure Sys.Writes (s : Sys) (place : Option StoreId) (key : CheckpointKey)
    (cursor : ResumeCursor) (s' : Sys) : Prop where
  cursor : ∀ place' key', s'.cursor place' key' =
    if place' = place ∧ key' = key then some cursor else s.cursor place' key'
  owners : ∀ store, (s'.stores store).owners = (s.stores store).owners

/-- A move from `w` by `a` to `w'` that adds an event to the trace: at which place of which call,
what it had checked, and what it did to the cursors. -/
inductive Emitted (w : World) (a : Action) (w' : World) : Event → Prop where
  | stored {record} : w'.sys.stores = w.sys.stores →
    w'.sys.log.brokerCursors = w.sys.log.brokerCursors → Emitted w a w' (.stored record)
  | installed {f token} : w.sys.Installs f token w'.sys → Emitted w a w' (.installed f.key token)
  | fenced {call : Nat} {f : AcquireFrame} {id : LeaseId} {lease : Lease} {store : StoreId} :
    w.calls[call]? = some (.acquire f (.init id .fence)) →
    w.sys.objects[id]? = some lease → lease.store = some store → w'.sys = w.sys.fence lease store →
    Emitted w a w' (.fenced store lease.key lease.owner)
  | acquired {call : Nat} {f : AcquireFrame} {id : LeaseId} {lease : Lease} :
    w.calls[call]? = some (.acquire f (.init id .finish)) →
    w.sys.objects[id]? = some lease → w'.sys = w.sys.finishAcquire f id lease →
    w'.calls[call]? = some (.finished (.acquired id)) →
    Emitted w a w' (.acquired id lease.key lease.owner)
  | delivered {call : Nat} {env : Env} {id : LeaseId} {c : Caller} {lease : Lease}
      {cursor : ResumeCursor} {record : StoredRecord} : a = .resume call env →
    w.calls[call]? = some (.consume id c (.nextDeliver cursor)) →
    w.sys.objects[id]? = some lease → w.sys.deliver id lease cursor = .ok (some record, w'.sys) →
    Emitted w a w' (.delivered lease.key lease.owner record)
  | handled {call : Nat} {id : LeaseId} {c : Caller} {lease : Lease} {record : StoredRecord} :
    w.calls[call]? = some (.consume id c (.handling record)) →
    w.sys.objects[id]? = some lease →
    w'.sys = w.sys.emit (.handled lease.key lease.owner record) →
    Emitted w a w' (.handled lease.key lease.owner record)
  | created {call : Nat} {env : Env} {f : AcquireFrame} {id : LeaseId} {st : InitStage}
      {lease : Lease} {place : Option StoreId} {start : Nat} : a = .resume call env →
    w.calls[call]? = some (.acquire f (.init id st)) →
    (st = .broker ∧ place = none ∨ ∃ cursor, st = .create cursor ∧ place = lease.store) →
    w.sys.objects[id]? = some lease → w.sys.Authorised lease place →
    w.sys.cursor place lease.key = none → w.sys.Writes place lease.key (.initialized start) w'.sys →
    Emitted w a w' (.created place lease.key lease.owner start)
  | saved {call : Nat} {env : Env} {id : LeaseId} {c : Caller} {st : ConsumeStage} {lease : Lease}
      {place : Option StoreId} {record : StoredRecord} {expected : ResumeCursor} :
    a = .resume call env → w.calls[call]? = some (.consume id c st) →
    (st = .commit record expected ∧ place = none ∨
      st = .save record expected ∧ place = lease.store) →
    w.sys.objects[id]? = some lease → w.sys.Authorised lease place →
    w.sys.cursor place lease.key = some expected → expected.Admits record.offset →
    w.sys.Writes place lease.key (.lastSuccessful record.offset) w'.sys →
    Emitted w a w' (.saved place lease.key lease.owner record c.isRunner)

/-- What a move from `w` by `a` to `w'` added to the trace. -/
inductive Traced (w : World) (a : Action) (w' : World) : Prop where
  | silent : w'.sys.trace = w.sys.trace → w'.sys.stores = w.sys.stores →
    w'.sys.log.brokerCursors = w.sys.log.brokerCursors → Traced w a w'
  | emit {e} : w'.sys.trace = w.sys.trace ++ [e] → Emitted w a w' e → Traced w a w'

variable {c : ResumeCursor} {key : CheckpointKey}

namespace Sys

variable {s s' : Sys}

lemma cursor_congr (stores : s'.stores = s.stores)
    (broker : s'.log.brokerCursors = s.log.brokerCursors) : s'.cursor = s.cursor := by
  funext place key
  cases place with
  | none => exact congrArg (AList.lookup key) broker
  | some => simp only [cursor, stores]

lemma writes_broker (broker : s'.log.brokerCursors = s.log.brokerCursors.insert key c)
    (stores : s'.stores = s.stores) : s.Writes none key c s' := by
  constructor
  · intro place' key'
    cases place' with
    | none => simp [cursor, broker, Dict.lookup_insert_ite]
    | some => simp [cursor, stores]
  · intro store
    rw [stores]

lemma writes_store {store} (broker : s'.log.brokerCursors = s.log.brokerCursors)
    (stores : s'.stores = Function.update s.stores store
      { s.stores store with cursors := (s.stores store).cursors.insert key c }) :
    s.Writes (some store) key c s' := by
  constructor
  · intro place' key'
    cases place' with
    | none => simp [cursor, broker]
    | some store' =>
      by_cases h : store' = store
      · subst h
        simp [cursor, stores, Dict.lookup_insert_ite]
      · simp [cursor, stores, h]
  · intro store'
    by_cases h : store' = store
    · subst h
      simp [stores]
    · simp [stores, h]

end Sys

namespace World

variable {w w' : World} {a : Action}

lemma release_silent {id lease calls} :
    Traced w a { sys := w.sys.release id lease, calls := calls } := by
  unfold Sys.release
  split
  · exact .silent rfl rfl rfl
  · refine .silent rfl rfl ?_
    dsimp only
    split <;> rfl

lemma Move.traced (move : w.Move a w') : Traced w a w' := by
  cases move with
  | rewrite kept => rw [kept]; exact .silent rfl rfl rfl
  | store kept => rw [kept]; exact .emit rfl (.stored rfl rfl)
  | enter ent =>
    obtain ⟨-, -, -, hs⟩ | ⟨_, -, -, -, hs⟩ := ent.cases <;> (rw [hs]; exact .silent rfl rfl rfl)
  | release => exact release_silent
  | advance hpc adv =>
    cases adv with
    | install _ inst => exact .emit inst.trace (.installed inst)
    | fence obj hstore => exact .emit rfl (.fenced hpc obj hstore rfl)
    | @create _ _ lease store cursor _ _ obj hstore made =>
      obtain ⟨_, _⟩ := cursor
      obtain ⟨rfl, owner, ⟨-, rfl⟩ | ⟨vacant, rfl⟩⟩ := Sys.createCursor_ok made
      · exact .silent rfl rfl rfl
      · have auth : w.sys.Authorised lease (some store) := ⟨hstore, owner⟩
        exact .emit rfl (.created rfl hpc (.inr ⟨_, rfl, hstore.symm⟩) obj auth vacant
          (Sys.writes_store rfl rfl))
    | broker obj made =>
      obtain ⟨owner, ⟨-, rfl⟩ | ⟨vacant, _, rfl⟩⟩ := Sys.initBroker_ok made
      · exact .silent rfl rfl rfl
      · exact .emit rfl (.created rfl hpc (.inl ⟨rfl, rfl⟩) obj owner vacant
          (Sys.writes_broker rfl rfl))
    | finish obj =>
      have hlt := (List.getElem?_eq_some_iff.mp hpc).1
      exact .emit rfl (.acquired hpc obj rfl (by simp [hlt]))
    | abandon | release => exact release_silent
    | deliver obj made =>
      obtain ⟨-, -, -, -, same⟩ := Sys.deliver_ok made
      exact .emit (congrArg Sys.trace same) (.delivered rfl hpc obj made)
    | handled obj => exact .emit rfl (.handled hpc obj rfl)
    | @save _ _ lease store _ _ _ _ obj hstore made =>
      obtain ⟨owner, current, ahead, rfl⟩ := Sys.saveCursor_ok made
      have auth : w.sys.Authorised lease (some store) := ⟨hstore, owner⟩
      exact .emit rfl (.saved rfl hpc (.inr ⟨rfl, hstore.symm⟩) obj auth current ahead
        (Sys.writes_store rfl rfl))
    | commit obj made =>
      obtain ⟨owner, current, ahead, rfl⟩ := Sys.commitBroker_ok made
      exact .emit rfl (.saved rfl hpc (.inl ⟨rfl, rfl⟩) obj owner current ahead
        (Sys.writes_broker rfl rfl))
    | _ => exact .silent rfl rfl rfl
  | _ => exact .silent rfl rfl rfl

lemma Move.trace_append (move : w.Move a w') : ∃ t, w'.sys.trace = w.sys.trace ++ t := by
  cases move.traced with
  | silent same => exact ⟨[], same.trans (List.append_nil _).symm⟩
  | emit more => exact ⟨_, more⟩

lemma Move.mem_trace (move : w.Move a w') {e} (h : e ∈ w.sys.trace) : e ∈ w'.sys.trace := by
  obtain ⟨t, more⟩ := move.trace_append
  rw [more]
  exact List.mem_append_left t h

lemma Move.emitted (move : w.Move a w') {e} (h : e ∈ w'.sys.trace) :
    e ∈ w.sys.trace ∨ Emitted w a w' e := by
  cases move.traced with
  | silent same =>
    rw [same] at h
    exact .inl h
  | emit more em =>
    rw [more, List.mem_append, List.mem_singleton] at h
    obtain old | rfl := h
    · exact .inl old
    · exact .inr em

end World

def ResumeCursor.next (c : ResumeCursor) : Nat :=
  match c.kind with
  | .initialized => c.offset
  | .lastSuccessful => c.offset + 1

lemma ResumeCursor.admits_iff {offset} : c.Admits offset ↔ c.next ≤ offset := by
  obtain ⟨kind, o⟩ := c
  cases kind <;> rfl

namespace World

variable {w w' : World} {a : Action}

lemma fence_cursor (s : Sys) (lease : Lease) (store : StoreId) :
    (s.fence lease store).cursor = s.cursor := by
  funext place key
  cases place with
  | none => rfl
  | some store' =>
    by_cases h : store' = store
    · subst h
      simp [Sys.cursor, Sys.fence, Sys.setStore, Sys.emit, CheckpointStore.fence]
    · simp [Sys.cursor, Sys.fence, Sys.setStore, Sys.emit, h]

lemma fence_owner (s : Sys) (lease : Lease) (store store' : StoreId) (key : CheckpointKey) :
    ((s.fence lease store).stores store').owners.lookup key =
      if store' = store ∧ key = lease.key then some lease.owner
      else (s.stores store').owners.lookup key := by
  by_cases h : store' = store
  · subst h
    simp [Sys.fence, Sys.setStore, Sys.emit, CheckpointStore.fence, Dict.lookup_insert_ite]
  · simp [Sys.fence, Sys.setStore, Sys.emit, h]

lemma Emitted.cursor {e} (em : Emitted w a w' e) :
    (w'.sys.cursor = w.sys.cursor ∧ (∀ place key owner start, e ≠ .created place key owner start) ∧
      ∀ place key owner record byRunner, e ≠ .saved place key owner record byRunner) ∨
      (∃ place key owner start, e = .created place key owner start) ∨
      ∃ place key owner record byRunner, e = .saved place key owner record byRunner := by
  cases em with
  | stored stores broker => exact .inl ⟨Sys.cursor_congr stores broker, nofun, nofun⟩
  | installed inst => exact .inl ⟨Sys.cursor_congr inst.stores inst.brokerCursors, nofun, nofun⟩
  | fenced _ _ _ same => exact .inl ⟨by rw [same, fence_cursor], nofun, nofun⟩
  | acquired _ _ same | handled _ _ same =>
    exact .inl ⟨by rw [same]; exact Sys.cursor_congr rfl rfl, nofun, nofun⟩
  | delivered _ _ _ made =>
    obtain ⟨-, -, -, -, same⟩ := Sys.deliver_ok made
    exact .inl ⟨by rw [same]; exact Sys.cursor_congr rfl rfl, nofun, nofun⟩
  | created => exact .inr (.inl ⟨_, _, _, _, rfl⟩)
  | saved => exact .inr (.inr ⟨_, _, _, _, _, rfl⟩)

lemma Move.cursor_cases (move : w.Move a w') :
    w'.sys.cursor = w.sys.cursor ∨
      (∃ place key owner start, Emitted w a w' (.created place key owner start)) ∨
      ∃ place key owner record byRunner,
        Emitted w a w' (.saved place key owner record byRunner) := by
  cases move.traced with
  | silent _ stores broker => exact .inl (Sys.cursor_congr stores broker)
  | emit _ em =>
    obtain ⟨same, -⟩ | ⟨_, _, _, _, rfl⟩ | ⟨_, _, _, _, _, rfl⟩ := Emitted.cursor em
    · exact .inl same
    · exact .inr (.inl ⟨_, _, _, _, em⟩)
    · exact .inr (.inr ⟨_, _, _, _, _, em⟩)

lemma Move.cursor (move : w.Move a w') {place} (h : w.sys.cursor place key = some c) :
    ∃ c', w'.sys.cursor place key = some c' ∧ c.next ≤ c'.next := by
  obtain same | ⟨_, _, _, _, em⟩ | ⟨_, _, _, _, _, em⟩ := move.cursor_cases
  · exact ⟨c, by rw [same, h], le_rfl⟩
  · cases em with
    | created _ _ _ _ _ vacant writes =>
      rw [writes.cursor]
      split
      · rename_i at_
        obtain ⟨rfl, rfl⟩ := at_
        cases h.symm.trans vacant
      · exact ⟨c, h, le_rfl⟩
  · cases em with
    | saved _ _ _ _ _ current ahead writes =>
      rw [writes.cursor]
      split
      · rename_i at_
        obtain ⟨rfl, rfl⟩ := at_
        cases h.symm.trans current
        exact ⟨_, rfl, Nat.le_succ_of_le (ResumeCursor.admits_iff.mp ahead)⟩
      · exact ⟨c, h, le_rfl⟩

lemma Move.storeOwners (move : w.Move a w') :
    (∀ store, (w'.sys.stores store).owners = (w.sys.stores store).owners) ∨
      ∃ store key owner, Emitted w a w' (.fenced store key owner) := by
  cases move.traced with
  | silent _ stores => exact .inl fun store => by rw [stores]
  | emit _ em =>
    cases em with
    | stored stores => exact .inl fun store => by rw [stores]
    | installed inst => exact .inl fun store => by rw [inst.stores]
    | fenced hpc obj hstore same => exact .inr ⟨_, _, _, .fenced hpc obj hstore same⟩
    | acquired _ _ same | handled _ _ same => exact .inl fun store => by rw [same]; rfl
    | delivered _ _ _ made =>
      obtain ⟨-, -, -, -, same⟩ := Sys.deliver_ok made
      exact .inl fun store => by rw [same]; rfl
    | created _ _ _ _ _ _ writes | saved _ _ _ _ _ _ _ writes => exact .inl writes.owners

end World

end ToriPy.PersistentStreams
