import ToriPy.Base.Window
import ToriPy.PersistentStreams.Initialization

/-!
# A resume cursor skips nothing

The records that were ever accepted are the `stored` events of the trace, and every partition is the
image of its history (`Move.refines`). A checkpoint is successful when its cursor is accepted, which
is a `saved` event. The invariant `World.Progress` says for every cursor that its successful
checkpoints are exactly the window of the history from where the cursor was created up to where it
is.

A save keeps this because of what precedes it. `_next` loads a cursor and takes the first retained
record it admits, in a later section; trims in between are caught by the retention check, and the
cursor can only have moved ahead (`Sys.Behind`). The record in flight is therefore the next one
after the cursor, or the cursor has passed it (`Sys.Pending`), and stays so until `checkpoint`
compares the cursor it expects and requires it to advance.
-/

namespace ToriPy.PersistentStreams

open List

def Event.stored? : Event → Option StoredRecord
  | .stored record => some record
  | _ => none

def Event.savedAt (place : Option StoreId) (key : CheckpointKey) : Event → Option StoredRecord
  | .saved place' key' _ record _ => if place' = place ∧ key' = key then some record else none
  | _ => none

/-- A checkpoint of a delivered record, by a runner only if its handler had returned. -/
def Earned (before : List Event) (e : Event) : Prop :=
  ∀ place key owner record byRunner, e = .saved place key owner record byRunner →
    .delivered key owner record ∈ before ∧
      (byRunner = true → .handled key owner record ∈ before)

variable {s s' : Sys}

namespace Sys

def history (s : Sys) : Histories := historiesOf (s.trace.filterMap Event.stored?)

/-- Every record ever accepted in the partition of a key. -/
def historyOf (s : Sys) (key : CheckpointKey) : List StoredRecord :=
  s.history key.stream key.partition

/-- The successful checkpoints of a cursor, in their order. -/
def checkpoints (s : Sys) (place : Option StoreId) (key : CheckpointKey) : List StoredRecord :=
  s.trace.filterMap (Event.savedAt place key)

def Behind (s : Sys) (lease : Lease) (loaded : ResumeCursor) : Prop :=
  ∃ c, s.cursor lease.store lease.key = some c ∧ loaded.next ≤ c.next

/-- A delivered record that is the next one after the lease's cursor, if the cursor has not passed
it. -/
def Pending (s : Sys) (lease : Lease) (record : StoredRecord) : Prop :=
  .delivered lease.key lease.owner record ∈ s.trace ∧
    ∃ c, s.cursor lease.store lease.key = some c ∧
      First (·.offset) (s.historyOf lease.key) c.next record

/-- What a call of `checkpoint` has once it is past its checks. -/
def Earning (s : Sys) (lease : Lease) (c : Caller) (record : StoredRecord) : Prop :=
  s.Pending lease record ∧ (c.isRunner = true → .handled lease.key lease.owner record ∈ s.trace)

def ConsumeOk (s : Sys) (lease : Lease) (c : Caller) : ConsumeStage → Prop
  | .nextOwner loaded => s.Behind lease loaded
  | .nextDeliver loaded => s.Behind lease loaded
  | .checkpointEnter ref =>
    c.isRunner = true → .handled lease.key lease.owner ref.record ∈ s.trace
  | .checkpointLoad record => s.Earning lease c record
  | .checkpointOwner record _ => s.Earning lease c record
  | .saveOwner record _ => s.Earning lease c record
  | .save record _ => s.Earning lease c record
  | .commit record _ => s.Earning lease c record ∧ lease.store = none
  | _ => True

/-- What a cursor has passed since it was created: the records with a successful checkpoint. -/
def Passed (s : Sys) (place : Option StoreId) (key : CheckpointKey) : Option ResumeCursor → Prop
  | none => s.checkpoints place key = [] ∧ ∀ owner start, .created place key owner start ∉ s.trace
  | some c => ∃ start, (∀ owner s', .created place key owner s' ∈ s.trace → s' = start) ∧
      start ≤ c.next ∧ (c.next = start ∨ ∃ r ∈ s.historyOf key, c.next = r.offset + 1) ∧
      s.checkpoints place key = window (·.offset) (s.historyOf key) start c.next

lemma checkpoints_append {e} (h : s'.trace = s.trace ++ [e]) (place : Option StoreId)
    (key : CheckpointKey) :
    s'.checkpoints place key =
      s.checkpoints place key ++ [e].filterMap (Event.savedAt place key) := by
  rw [checkpoints, h, filterMap_append]
  rfl

lemma history_append {t} (h : s'.trace = s.trace ++ t) (stream : String) (index : Nat) :
    s'.history stream index = s.history stream index ++
      historiesOf (t.filterMap Event.stored?) stream index := by
  rw [history, h, filterMap_append]
  exact filter_append ..

lemma history_of_none {e} (h : s'.trace = s.trace ++ [e])
    (none : e.stored? = none) : s'.history = s.history := by
  simp only [history, h, filterMap_append, filterMap_cons, none, filterMap_nil, append_nil]

end Sys

variable {st : ConsumeStage} {c : Caller} {id : LeaseId} {record : StoredRecord}

lemma Pc.Idle.consumeOk {s : Sys} {lease}
    (idle : (Pc.consume id c st).Idle id) : s.ConsumeOk lease c st := by
  cases st <;> trivial

lemma Sys.historyOf_sorted {s : Sys} (ref : s.log.Refines s.history) (key : CheckpointKey) :
    (s.historyOf key).Pairwise (·.offset < ·.offset) := by
  cases h : s.log.partition? key.stream key.partition with
  | none =>
    rw [historyOf, ref.absent h]
    exact .nil
  | some => exact (ref.present h).offsets

lemma Sys.first_of_deliver {lease cursor} (ref : s.log.Refines s.history)
    (h : s.deliver id lease cursor = .ok (some record, s')) :
    First (·.offset) (s.historyOf lease.key) cursor.next record := by
  obtain ⟨-, -, -, ⟨part, hp, retained, found⟩, -⟩ := Sys.deliver_ok h
  have image : part.Refines (s.historyOf lease.key) := ref.present hp
  have next : cursor.offset ≤ cursor.next := by
    unfold ResumeCursor.next
    split
    · exact le_rfl
    · exact Nat.le_succ _
  refine First.of_find? image.offsets (retained.trans next) ?_
  rw [← image.records, ← found]
  congr 1
  funext r
  exact decide_eq_decide.mpr ResumeCursor.admits_iff.symm

namespace World

variable {w w' : World} {a : Action}

lemma Move.refines (move : w.Move a w') (ref : w.sys.log.Refines w.sys.history) :
    w'.sys.log.Refines w'.sys.history := by
  have keep : w'.sys.log.streams = w.sys.log.streams → w'.sys.history = w.sys.history →
      w'.sys.log.Refines w'.sys.history := by
    intro streams history
    have part : w'.sys.log.partition? = w.sys.log.partition? := by
      funext stream index
      simp only [Log.partition?, streams]
    rw [history]
    exact ⟨fun h => ref.present (part ▸ h), fun h => ref.absent (part ▸ h)⟩
  have release : ∀ (id : LeaseId) (lease : Lease),
      (w.sys.release id lease).history = w.sys.history := by
    intro id lease
    unfold Sys.release
    split <;> rfl
  cases move with
  | rewrite _ keeps => exact keeps _ ref
  | @store _ log record _ keeps =>
    have more :
        ({ w with sys := { w.sys with log := log }.emit (.stored record) } : World).sys.history
          = w.sys.history.extend (some record) := by
      simp only [Sys.history, ← historiesOf_append, Sys.emit, filterMap_append]
      rfl
    rw [more]
    exact keeps _ ref
  | enter ent =>
    obtain ⟨-, -, -, hs⟩ | ⟨_, -, -, -, hs⟩ := ent.cases <;> (rw [hs] at keep ⊢; exact keep rfl rfl)
  | release => exact keep (w.sys.release_log _ _).streams (release _ _)
  | advance _ adv =>
    cases adv with
    | install _ inst => exact keep inst.streams (Sys.history_of_none inst.trace rfl)
    | fence | finish | handled => exact keep rfl (Sys.history_of_none rfl rfl)
    | create _ _ made =>
      obtain ⟨-, -, ⟨-, rfl⟩ | ⟨-, rfl⟩⟩ := Sys.createCursor_ok made
      · exact keep rfl rfl
      · exact keep rfl (Sys.history_of_none rfl rfl)
    | broker _ made =>
      obtain ⟨-, ⟨-, rfl⟩ | ⟨-, _, rfl⟩⟩ := Sys.initBroker_ok made
      · exact keep rfl rfl
      · exact keep rfl (Sys.history_of_none rfl rfl)
    | abandon | release => exact keep (w.sys.release_log _ _).streams (release _ _)
    | deliver _ made =>
      obtain ⟨-, -, -, -, rfl⟩ := Sys.deliver_ok made
      exact keep rfl (Sys.history_of_none rfl rfl)
    | save _ _ made =>
      obtain ⟨-, -, -, rfl⟩ := Sys.saveCursor_ok made
      exact keep rfl (Sys.history_of_none rfl rfl)
    | commit _ made =>
      obtain ⟨-, -, -, rfl⟩ := Sys.commitBroker_ok made
      exact keep rfl (Sys.history_of_none rfl rfl)
    | _ => exact keep rfl rfl
  | _ => exact keep rfl rfl

lemma Move.historyOf_append (move : w.Move a w') (key : CheckpointKey) :
    ∃ more, w'.sys.historyOf key = w.sys.historyOf key ++ more := by
  obtain ⟨t, more⟩ := move.trace_append
  exact ⟨_, Sys.history_append more _ _⟩

section
variable {lease lease' : Lease} (key : lease'.key = lease.key) (owner : lease'.owner = lease.owner)
  (store : lease'.store = lease.store)
include key store

lemma Move.behind (move : w.Move a w') {loaded} (h : w.sys.Behind lease loaded) :
    w'.sys.Behind lease' loaded := by
  obtain ⟨c, hc, le⟩ := h
  obtain ⟨c', hc', ahead⟩ := move.cursor hc
  exact ⟨c', by rw [key, store]; exact hc', le.trans ahead⟩

include owner

lemma Move.pending (move : w.Move a w') (ref : w'.sys.log.Refines w'.sys.history)
    (h : w.sys.Pending lease record) : w'.sys.Pending lease' record := by
  obtain ⟨delivered, c, hc, first⟩ := h
  obtain ⟨c', hc', ahead⟩ := move.cursor hc
  obtain ⟨_, grown⟩ := move.historyOf_append lease.key
  have sorted := Sys.historyOf_sorted ref lease.key
  refine ⟨by rw [key, owner]; exact move.mem_trace delivered, c', by rw [key, store]; exact hc', ?_⟩
  rw [key, grown]
  refine (first.mono ahead).append fun r hr => ?_
  rw [grown] at sorted
  exact ((pairwise_append.mp sorted).2.2 record first.mem r hr).le

lemma Move.earning (move : w.Move a w') (ref : w'.sys.log.Refines w'.sys.history)
    (h : w.sys.Earning lease c record) : w'.sys.Earning lease' c record := by
  refine ⟨move.pending key owner store ref h.1, fun runner => ?_⟩
  rw [key, owner]
  exact move.mem_trace (h.2 runner)

lemma Move.consumeOk (move : w.Move a w') (ref : w'.sys.log.Refines w'.sys.history)
    (h : w.sys.ConsumeOk lease c st) : w'.sys.ConsumeOk lease' c st := by
  cases st with
  | nextOwner | nextDeliver => exact move.behind key store h
  | checkpointEnter =>
    intro runner
    rw [key, owner]
    exact move.mem_trace (h runner)
  | checkpointLoad | checkpointOwner | saveOwner | save => exact move.earning key owner store ref h
  | commit => exact ⟨move.earning key owner store ref h.1, store.trans h.2⟩
  | _ => trivial

end

lemma Move.passed (move : w.Move a w') (ref : w'.sys.log.Refines w'.sys.history) {place key c}
    (created : ∀ owner start, .created place key owner start ∈ w'.sys.trace →
      .created place key owner start ∈ w.sys.trace)
    (saved : w'.sys.checkpoints place key = w.sys.checkpoints place key)
    (h : w.sys.Passed place key c) : w'.sys.Passed place key c := by
  cases c with
  | none => exact ⟨saved.trans h.1, fun owner start hs => h.2 owner start (created owner start hs)⟩
  | some =>
    obtain ⟨start, one, le, reached, passed⟩ := h
    obtain ⟨more, grown⟩ := move.historyOf_append key
    have sorted := Sys.historyOf_sorted ref key
    rw [grown] at sorted
    refine ⟨start, fun owner s hs => one owner s (created owner s hs), le, ?_, ?_⟩
    · obtain same | ⟨r, hr, same⟩ := reached
      · exact .inl same
      · exact .inr ⟨r, by rw [grown]; exact mem_append_left more hr, same⟩
    · rw [saved, passed, grown, window_append]
      -- an appended record lies behind every cursor
      intro r hr hstart
      obtain same | ⟨last, hlast, same⟩ := reached
      · exact same.trans_le hstart
      · exact same.trans_le ((pairwise_append.mp sorted).2.2 last hlast r hr)

/-- Every cursor has passed exactly the records that were checkpointed. -/
structure Progress (w : World) : Prop where
  initialized : w.Initialized
  refines : w.sys.log.Refines w.sys.history
  passed : ∀ place key, w.sys.Passed place key (w.sys.cursor place key)
  inFlight : ∀ {id : LeaseId} {lease : Lease} {record : StoredRecord},
    w.sys.objects[id]? = some lease → lease.inFlight = some record → w.sys.Pending lease record
  stage : ∀ {i : Nat} {id : LeaseId} {c : Caller} {st : ConsumeStage} {lease : Lease},
    w.calls[i]? = some (.consume id c st) → w.sys.objects[id]? = some lease →
      w.sys.ConsumeOk lease c st
  earned : Justified Earned w.sys.trace

lemma Progress.start (n : ℕ+) : (start n).Progress where
  initialized := .start n
  refines := ⟨nofun, fun _ => rfl⟩
  passed := by
    intro place key
    cases place <;> exact ⟨rfl, nofun⟩
  inFlight := nofun
  stage := nofun
  earned := .nil

/-- A record that is saved was delivered, was handled if a runner saves it, and is the next one
after the cursor. -/
lemma Progress.saving (inv : w.Progress) {i : Nat} {lease : Lease} {place} {expected : ResumeCursor}
    (hpc : w.calls[i]? = some (.consume id c st))
    (at_ : st = .commit record expected ∧ place = none ∨
      st = .save record expected ∧ place = lease.store) (obj : w.sys.objects[id]? = some lease)
    (current : w.sys.cursor place lease.key = some expected) :
    .delivered lease.key lease.owner record ∈ w.sys.trace ∧
      (c.isRunner = true → .handled lease.key lease.owner record ∈ w.sys.trace) ∧
      First (·.offset) (w.sys.historyOf lease.key) expected.next record := by
  have ok := inv.stage hpc obj
  obtain ⟨earning, rfl⟩ : w.sys.Earning lease c record ∧ place = lease.store := by
    obtain ⟨rfl, rfl⟩ | ⟨rfl, rfl⟩ := at_
    · exact ⟨ok.1, ok.2.symm⟩
    · exact ⟨ok, rfl⟩
  obtain ⟨⟨delivered, _, hc, first⟩, handled⟩ := earning
  cases hc.symm.trans current
  exact ⟨delivered, handled, first⟩

lemma Progress.passed_move (inv : w.Progress) (move : w.Move a w') (place : Option StoreId)
    (key : CheckpointKey) : w'.sys.Passed place key (w'.sys.cursor place key) := by
  have ref := move.refines inv.refines
  have old := inv.passed place key
  cases move.traced with
  | silent same stores broker =>
    rw [Sys.cursor_congr stores broker]
    exact move.passed ref (fun _ _ h => same ▸ h) (by rw [Sys.checkpoints, same]; rfl) old
  | @emit e more em =>
    -- a cursor that the move does not write
    have other : w'.sys.cursor place key = w.sys.cursor place key →
        (∀ owner start, e ≠ .created place key owner start) → e.savedAt place key = none →
        w'.sys.Passed place key (w'.sys.cursor place key) := by
      intro same created saved
      rw [same]
      refine move.passed ref ?_ ?_ old
      · intro owner start h
        rw [more, mem_append, mem_singleton] at h
        obtain h | h := h
        · exact h
        · exact absurd h.symm (created owner start)
      · rw [Sys.checkpoints_append more]
        simp [saved]
    obtain ⟨same, created, saved⟩ | ⟨place₀, _, _, start, rfl⟩ | ⟨place₀, _, _, record, _, rfl⟩ :=
      Emitted.cursor em
    · refine other (by rw [same]) (created place key) ?_
      cases e with
      | saved => exact absurd rfl (saved _ _ _ _ _)
      | _ => rfl
    · cases em with
      | @created _ _ _ _ _ lease _ _ _ _ _ _ _ vacant writes =>
        by_cases at_ : place = place₀ ∧ key = lease.key
        · obtain ⟨rfl, rfl⟩ := at_
          rw [writes.cursor, if_pos ⟨rfl, rfl⟩]
          rw [vacant] at old
          refine ⟨start, fun owner s h => ?_, le_rfl, .inl rfl, ?_⟩
          · rw [more, mem_append, mem_singleton] at h
            obtain h | h := h
            · exact absurd h (old.2 owner s)
            · cases h
              rfl
          · rw [Sys.checkpoints_append more, old.1]
            exact (window_self _ _ start).symm
        · refine other (by rw [writes.cursor, if_neg at_]) ?_ rfl
          rintro owner s h
          cases h
          exact at_ ⟨rfl, rfl⟩
    · cases em with
      | @saved _ _ _ c _ lease _ _ expected _ hpc st obj _ current ahead writes =>
        by_cases at_ : place = place₀ ∧ key = lease.key
        · obtain ⟨rfl, rfl⟩ := at_
          rw [writes.cursor, if_pos ⟨rfl, rfl⟩]
          rw [current] at old
          obtain ⟨start, one, le, -, passed⟩ := old
          obtain ⟨-, -, first⟩ := inv.saving hpc st obj current
          have ahead : expected.next ≤ record.offset := ResumeCursor.admits_iff.mp ahead
          have same : w'.sys.historyOf lease.key = w.sys.historyOf lease.key :=
            congrFun (congrFun (Sys.history_of_none more rfl) _) _
          have sorted := Sys.historyOf_sorted inv.refines lease.key
          refine ⟨start, fun owner s h => ?_, ?_, .inr ⟨record, ?_, rfl⟩, ?_⟩
          · rw [more, mem_append, mem_singleton] at h
            obtain h | h := h
            · exact one owner s h
            · cases h
          · exact (le.trans ahead).trans (Nat.le_succ _)
          · rw [same]
            exact first.mem
          · rw [Sys.checkpoints_append more, passed, same]
            refine Eq.trans ?_ (window_advance sorted first le ahead).symm
            simp [Event.savedAt]
        · refine other (by rw [writes.cursor, if_neg at_]) nofun ?_
          exact if_neg fun h => at_ ⟨h.1.symm, h.2.symm⟩

lemma Progress.stage_move (inv : w.Progress) (move : w.Move a w') {i : Nat} {lease'}
    (h : w'.calls[i]? = some (.consume id c st))
    (obj' : w'.sys.objects[id]? = some lease') : w'.sys.ConsumeOk lease' c st := by
  have ref := move.refines inv.refines
  -- the call works on a lease that was returned before the move
  have touched : w.sys.returned id = true → ∃ lease, w.sys.objects[id]? = some lease ∧
      lease'.key = lease.key ∧ lease'.owner = lease.owner ∧ lease'.store = lease.store := by
    intro returned
    obtain ⟨lease, obj⟩ := inv.initialized.object returned
    obtain ⟨l, obj₁, touched⟩ := move.touched_of_some obj
    cases obj'.symm.trans obj₁
    obtain ⟨key, owner, store, -⟩ := touched.identity
    exact ⟨lease, obj, key, owner, store⟩
  obtain old | ⟨c₀, _, old, how⟩ | ⟨-, -, idle | ⟨rfl, ref, rfl⟩⟩ := (move.called h).consume
  · obtain ⟨lease, obj, key, owner, store⟩ := touched (inv.initialized.consume old)
    exact move.consumeOk key owner store ref (inv.stage old obj)
  · obtain ⟨_, obj, key, owner, store⟩ := touched (inv.initialized.consume old)
    have ok := inv.stage old obj
    generalize hpc : Pc.consume id c st = pc at how
    cases how with
    | idle hi =>
      subst hpc
      exact hi.consumeOk
    | quiet obj₁ q =>
      cases obj.symm.trans obj₁
      have behind := @Move.behind _ _ _ _ _ key store move
      have earning {c record} := @Move.earning c record _ _ _ _ _ key owner store move ref
      cases q with
      | idle hi =>
        subst hpc
        exact hi.consumeOk
      | loaded load | loadedBroker load =>
        cases hpc
        exact behind ⟨_, load, le_rfl⟩
      | owned =>
        cases hpc
        exact behind ok
      | entered busy =>
        cases hpc
        exact earning ⟨inv.inFlight obj busy, ok⟩
      | expected | checkpointOwned | saveOwned =>
        cases hpc
        exact earning ok
      | expectedBroker none =>
        cases hpc
        exact ⟨earning ok, store.trans none⟩
    | delivered =>
      cases c₀ with
      | application => cases hpc
      | runner => cases hpc; trivial
    | handled obj₁ hst same =>
      cases obj.symm.trans obj₁
      unfold checkpoint at hpc
      split at hpc
      · cases hpc
        intro _
        rw [key, owner, same]
        exact mem_append_right _ (mem_singleton.mpr rfl)
      · have idle : (Pc.consume id c st).Idle id := by
          rw [hpc]
          exact checkpointRaised_idle _ _ _ _
        exact idle.consumeOk
  · exact idle.consumeOk
  · exact nofun

lemma Progress.move (inv : w.Progress) (move : w.Move a w') : w'.Progress where
  initialized := inv.initialized.move move
  refines := move.refines inv.refines
  passed := inv.passed_move move
  inFlight := by
    intro id l' record obj' busy
    have ref := move.refines inv.refines
    obtain ⟨l, obj, touched⟩ | ⟨f, _, -, -, rfl⟩ := move.touched obj'
    · obtain ⟨key, owner, store, -⟩ := touched.identity
      obtain busy | ⟨_, _, c, cursor, -, hpc, made⟩ := touched.inFlight busy
      · exact move.pending key owner store ref (inv.inFlight obj busy)
      -- the first record after the cursor that was loaded comes first after the present one, too
      obtain ⟨now, hnow, le⟩ := inv.stage hpc obj
      have first := (Sys.first_of_deliver inv.refines made).mono le
      obtain ⟨-, -, -, -, same⟩ := Sys.deliver_ok made
      refine ⟨?_, now, ?_, ?_⟩
      · rw [key, owner, same]
        exact mem_append_right _ (mem_singleton.mpr rfl)
      · rw [key, store, same]
        exact hnow
      · rw [key, Sys.historyOf, same, Sys.history_of_none rfl rfl]
        exact first
    · cases busy
  stage := inv.stage_move move
  earned := by
    cases move.traced with
    | silent same => rw [same]; exact inv.earned
    | emit more em =>
      rw [more]
      refine inv.earned.snoc ?_
      rintro place key owner record byRunner rfl
      cases em with
      | saved _ hpc st obj _ current =>
        obtain ⟨delivered, handled, -⟩ := inv.saving hpc st obj current
        exact ⟨delivered, handled⟩

end World

/-- In every run, the successful checkpoints of a cursor that was created at `start` and has come to
`offset` are those of exactly the records ever accepted from `start` to `offset`, each once and in
the order of their offsets; and every one of them followed the delivery of its record and, when a
runner made it, the return of the handler. -/
theorem at_least_once {n : ℕ+} {w : World} (r : Reachable World.step (World.start n) w)
    {place : Option StoreId} {key : CheckpointKey} {owner : OwnershipToken} {start offset : Nat}
    (created : .created place key owner start ∈ w.sys.trace)
    (current : w.sys.cursor place key = some (.lastSuccessful offset)) :
    w.sys.checkpoints place key =
      (w.sys.historyOf key).filter (fun record => start ≤ record.offset ∧ record.offset ≤ offset) ∧
    (w.sys.checkpoints place key).Pairwise (·.offset < ·.offset) ∧
    Justified Earned w.sys.trace := by
  have inv : w.Progress :=
    World.invariant_of_moves r (.start n) (fun _ => trivial) fun inv _ move => inv.move move
  have passed := inv.passed place key
  rw [current] at passed
  obtain ⟨_, one, -, -, passed⟩ := passed
  obtain rfl := one owner start created
  have window_eq : w.sys.checkpoints place key = (w.sys.historyOf key).filter
      (fun record => start ≤ record.offset ∧ record.offset ≤ offset) := by
    rw [passed]
    refine filter_congr fun record _ => ?_
    exact decide_eq_decide.mpr (and_congr_right fun _ => Nat.lt_succ_iff)
  refine ⟨window_eq, ?_, inv.earned⟩
  rw [window_eq]
  exact (Sys.historyOf_sorted inv.refines key).filter _

/-- A runner processes two records; the first of them is trimmed while the second is handled. -/
def processingRun : List Action :=
  [.declareStream ordersDefinition,
    .append (.aware 10) (.returned 0) "orders" (eventsRequest 1 [1] none),
    .append (.aware 11) (.returned 0) "orders" (eventsRequest 2 [2] none),
    .acquire billingA 0 .brokerManaged false, .resume 0 {}, .resume 0 {},
    .runOnce 0 2, .resume 1 {}, .resume 1 {}, .resume 1 {}, .resume 1 {}, .resume 1 {},
    .resume 1 {}, .resume 1 {}, .resume 1 {}, .trim "orders" 0 1, .resume 1 {}, .resume 1 {},
    .resume 1 {}, .resume 1 {}]

theorem at_least_once_processing :
    ∃ w, exec World.step (World.start 8) processingRun = some w ∧
      (w.sys.checkpoints none ⟨"orders", "billing", 0⟩).map (·.offset) = [0, 2] ∧
      w.sys.checkpoints none ⟨"orders", "billing", 0⟩ =
        (w.sys.historyOf ⟨"orders", "billing", 0⟩).filter
          (fun record => 0 ≤ record.offset ∧ record.offset ≤ 2) := by
  obtain ⟨w, hw⟩ : ∃ w, exec World.step (World.start 8) processingRun = some w := ⟨_, rfl⟩
  have facts : (exec World.step (World.start 8) processingRun).map (fun w =>
      (decide (.created none ⟨"orders", "billing", 0⟩ ⟨"a", 1⟩ 0 ∈ w.sys.trace),
        w.sys.cursor none ⟨"orders", "billing", 0⟩,
        (w.sys.checkpoints none ⟨"orders", "billing", 0⟩).map (·.offset))) =
      some (true, some (.lastSuccessful 2), [0, 2]) := rfl
  rw [hw] at facts
  obtain ⟨created, facts⟩ := Prod.mk.inj (Option.some.inj facts)
  obtain ⟨current, offsets⟩ := Prod.mk.inj facts
  have passed := at_least_once (Reach.of_exec .refl hw) (of_decide_eq_true created) current
  exact ⟨w, hw, offsets, passed.1⟩

end ToriPy.PersistentStreams
