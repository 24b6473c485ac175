import ToriPy.PersistentStreams.Moves
import ToriPy.PersistentStreams.Runs

/-!
# The checkpoint strategy of a group

Every `acquire` reserves its strategy for the scope (stream and group) in its first section and
gives the reservation back on each of its exits. The pending table then counts the calls in progress
exactly: `Counts` is this reading of the table, and `World.Reserved` says that it counts the calls
and that they agree on one binding with each other and with the recorded one.
-/

namespace ToriPy.PersistentStreams

open List

/-- The frame of an `acquire` in progress. -/
def Pc.frame? : Pc → Option AcquireFrame
  | .acquire f _ => some f
  | _ => none

/-- Whether a call is an `acquire` in progress for a scope. -/
def Pc.reserves (scope : Scope) (pc : Pc) : Bool := pc.frame?.any (·.scope = scope)

/-- How many `acquire` calls are between their reservation and their completion. -/
def World.inProgress (w : World) (scope : Scope) : Nat := w.calls.countP (·.reserves scope)

section
variable {pending pending' : Dict Scope (StrategyBinding × Nat)} {n : Scope → Nat} {scope : Scope}
  {b : StrategyBinding} {count : Nat}

/-- A pending table has the count of every scope, and no entry where the count is zero. -/
def Counts (pending : Dict Scope (StrategyBinding × Nat)) (n : Scope → Nat) : Prop :=
  ∀ scope, pending.lookup scope = none ∧ n scope = 0 ∨
    ∃ b, pending.lookup scope = some (b, n scope) ∧ 0 < n scope

lemma Counts.reserve (counts : Counts pending n)
    (found : pending.lookup scope = none ∧ count = 0 ∨ pending.lookup scope = some (b, count)) :
    Counts (pending.insert scope (b, count + 1)) (Function.update n scope (n scope + 1)) := by
  intro scope'
  rw [Dict.lookup_insert_ite, Function.update_apply]
  split
  · have same : count = n scope := by
      obtain ⟨h, rfl⟩ | h := found <;> obtain ⟨h', hn⟩ | ⟨_, h', -⟩ := counts scope
      · exact hn.symm
      · cases h.symm.trans h'
      · cases h.symm.trans h'
      · cases h.symm.trans h'
        rfl
    exact .inr ⟨b, by rw [same], Nat.succ_pos _⟩
  · exact counts scope'

lemma withoutReservation_lookup (found : pending.lookup scope = some (b, count)) (scope' : Scope) :
    (Log.withoutReservation pending scope b).lookup scope' =
      if scope' = scope then (if count = 1 then none else some (b, count - 1))
      else pending.lookup scope' := by
  simp only [Log.withoutReservation, found]
  rw [if_neg (by simp)]
  by_cases last : count = 1
  · rw [if_pos last, if_pos last, Dict.lookup_erase_ite]
  · rw [if_neg last, if_neg last, Dict.lookup_insert_ite]

lemma Counts.release (counts : Counts pending n) (found : pending.lookup scope = some (b, count)) :
    Counts (Log.withoutReservation pending scope b) (Function.update n scope (n scope - 1)) := by
  intro scope'
  rw [withoutReservation_lookup found, Function.update_apply]
  split
  · obtain ⟨h, -⟩ | ⟨b', h, pos⟩ := counts scope
    · cases found.symm.trans h
    · cases found.symm.trans h
      split
      · exact .inl ⟨rfl, by omega⟩
      · exact .inr ⟨b, rfl, by omega⟩
  · exact counts scope'

lemma Counts.refused (counts : Counts pending n) (refused : Sys.Refused pending pending')
    (scope : Scope) : pending'.lookup scope = pending.lookup scope := by
  obtain rfl | ⟨scope₀, b, count, found, rfl⟩ := refused
  · rfl
  have inserted : (pending.insert scope₀ (b, count + 1)).lookup scope₀ = some (b, count + 1) := by
    rw [Dict.lookup_insert_ite, if_pos rfl]
  rw [withoutReservation_lookup inserted, Dict.lookup_insert_ite]
  split
  · rename_i hscope
    subst hscope
    obtain ⟨h, rfl⟩ | h := found
    · exact h.symm
    obtain ⟨h', -⟩ | ⟨b', h', pos⟩ := counts scope
    · cases h.symm.trans h'
    · cases h.symm.trans h'
      rw [if_neg (by omega), h]
      rfl
  · rfl

end

variable {pc pc' : Pc} {s : Sys} {call : Nat}

namespace World

variable {w w' : World} {a : Action}

lemma inProgress_set_same {calls : List Pc} (hpc : calls[call]? = some pc)
    (same : pc'.frame? = pc.frame?) (scope : Scope) :
    (calls.set call pc').countP (·.reserves scope) = calls.countP (·.reserves scope) := by
  obtain ⟨hlt, rfl⟩ := List.getElem?_eq_some_iff.mp hpc
  have pos : calls[call].reserves scope = true → 0 < calls.countP (·.reserves scope) :=
    fun h => countP_pos_iff.mpr ⟨_, getElem_mem hlt, h⟩
  have keeps : pc'.reserves scope = calls[call].reserves scope := by
    unfold Pc.reserves
    rw [same]
  rw [countP_set hlt, keeps]
  split
  · exact Nat.sub_add_cancel (pos ‹_›)
  · rfl

lemma inProgress_set_ended {calls : List Pc} {f : AcquireFrame} (hpc : calls[call]? = some pc)
    (hf : pc.frame? = some f) (ended : pc'.frame? = none) :
    (fun scope => (calls.set call pc').countP (·.reserves scope)) =
      Function.update (fun scope => calls.countP (·.reserves scope)) f.scope
        (calls.countP (·.reserves f.scope) - 1) := by
  obtain ⟨hlt, rfl⟩ := List.getElem?_eq_some_iff.mp hpc
  funext scope
  rw [countP_set hlt, Function.update_apply]
  simp only [Pc.reserves, hf, ended, Option.any_some, Option.any_none, decide_eq_true_eq]
  by_cases h : f.scope = scope
  · subst h
    simp
  · simp [h, Ne.symm h]

/-- The pending table counts the calls in progress, which agree with each other and with the
recorded strategy. -/
structure Reserved (w : World) : Prop where
  counts : Counts w.sys.log.pendingGroupStrategies w.inProgress
  pending : ∀ {pc f b count}, pc ∈ w.calls → pc.frame? = some f →
    w.sys.log.pendingGroupStrategies.lookup f.scope = some (b, count) → f.binding = b
  fixed : ∀ {pc f b}, pc ∈ w.calls → pc.frame? = some f →
    w.sys.log.groupStrategies.lookup f.scope = some b → f.binding = b

lemma Reserved.keep (inv : w.Reserved)
    (pending : ∀ scope, w'.sys.log.pendingGroupStrategies.lookup scope =
      w.sys.log.pendingGroupStrategies.lookup scope)
    (fixed : w'.sys.log.groupStrategies = w.sys.log.groupStrategies)
    (count : ∀ scope, w'.inProgress scope = w.inProgress scope)
    (frames : ∀ pc' ∈ w'.calls, ∀ f, pc'.frame? = some f → ∃ pc ∈ w.calls, pc.frame? = some f) :
    w'.Reserved := by
  constructor
  · intro scope
    rw [pending, count]
    exact inv.counts scope
  · intro pc' f b n mem hf found
    obtain ⟨pc, mem', hf'⟩ := frames pc' mem f hf
    rw [pending] at found
    exact inv.pending mem' hf' found
  · intro pc' f b mem hf found
    obtain ⟨_, mem', hf'⟩ := frames pc' mem f hf
    rw [fixed] at found
    exact inv.fixed mem' hf' found

lemma Reserved.begin {pc} (inv : w.Reserved) (none : pc.frame? = none)
    (pending : ∀ scope, s.log.pendingGroupStrategies.lookup scope =
      w.sys.log.pendingGroupStrategies.lookup scope)
    (fixed : s.log.groupStrategies = w.sys.log.groupStrategies) :
    Reserved { sys := s, calls := w.calls ++ [pc] } := by
  refine inv.keep pending fixed (fun scope => ?_) ?_
  · simp [inProgress, Pc.reserves, none]
  intro pc' mem f hf
  rcases mem_append.mp mem with old | new
  · exact ⟨pc', old, hf⟩
  · rw [mem_singleton.mp new, none] at hf
    cases hf

lemma Reserved.enter {f st marker} (inv : w.Reserved) (ent : w.sys.Enters f marker s) :
    Reserved { sys := s, calls := w.calls ++ [.acquire f st] } := by
  obtain ⟨_, found, hp⟩ := ent.reserved
  have hg : s.log.groupStrategies = w.sys.log.groupStrategies := by
    obtain ⟨-, -, -, hs⟩ | ⟨_, -, -, -, hs⟩ := ent.cases <;>
      exact congrArg (fun s => s.log.groupStrategies) hs
  constructor
  · have more := inv.counts.reserve found
    have same : World.inProgress { sys := s, calls := w.calls ++ [.acquire f st] } =
        Function.update w.inProgress f.scope (w.inProgress f.scope + 1) := by
      funext scope
      simp only [inProgress, Function.update_apply, Pc.reserves, Pc.frame?]
      by_cases h : f.scope = scope
      · subst h
        simp
      · simp [h, Ne.symm h]
    rw [same]
    dsimp only
    rw [hp]
    exact more
  · intro pc g b n mem hf look
    dsimp only at look
    rw [hp, Dict.lookup_insert_ite] at look
    rcases mem_append.mp mem with old | new
    · split at look
      · -- a call of the same scope had the binding that was found
        rename_i hscope
        cases look
        obtain ⟨h, rfl⟩ | h := found
        · obtain ⟨-, none⟩ | ⟨_, h', -⟩ := inv.counts f.scope
          · have := countP_eq_zero.mp none pc old
            simp [Pc.reserves, hf, hscope] at this
          · cases h.symm.trans h'
        · rw [← hscope] at h
          exact inv.pending old hf h
      · exact inv.pending old hf look
    · rw [mem_singleton.mp new] at hf
      cases hf
      rw [if_pos rfl] at look
      cases look
      rfl
  · intro pc g b mem hf look
    dsimp only at look
    rw [hg] at look
    rcases mem_append.mp mem with old | new
    · exact inv.fixed old hf look
    · rw [mem_singleton.mp new] at hf
      cases hf
      exact (ent.strategy b look).symm

lemma Reserved.ended {f : AcquireFrame} (inv : w.Reserved) (hpc : w.calls[call]? = some pc)
    (hf : pc.frame? = some f) (ended : pc'.frame? = none)
    (hp : s.log.pendingGroupStrategies =
      Log.withoutReservation w.sys.log.pendingGroupStrategies f.scope f.binding)
    (hg : s.log.groupStrategies = w.sys.log.groupStrategies ∨
      s.log.groupStrategies = w.sys.log.groupStrategies.insert f.scope f.binding) :
    Reserved { sys := s, calls := w.calls.set call pc' } := by
  have mem := mem_of_getElem? hpc
  obtain ⟨count, found⟩ :
      ∃ count, w.sys.log.pendingGroupStrategies.lookup f.scope = some (f.binding, count) := by
    obtain ⟨-, none⟩ | ⟨b, found, -⟩ := inv.counts f.scope
    · have := countP_eq_zero.mp none pc mem
      simp [Pc.reserves, hf] at this
    · rw [inv.pending mem hf found]
      exact ⟨_, found⟩
  have older : ∀ {pc'' g}, pc'' ∈ w.calls.set call pc' → pc''.frame? = some g →
      ∃ pc ∈ w.calls, pc.frame? = some g := by
    intro pc'' g mem' hg
    rcases mem_or_eq_of_mem_set mem' with old | rfl
    · exact ⟨pc'', old, hg⟩
    · cases ended.symm.trans hg
  constructor
  · have fewer := inv.counts.release found
    unfold inProgress at fewer ⊢
    rw [inProgress_set_ended hpc hf ended]
    dsimp only
    rw [hp]
    exact fewer
  · intro pc'' g b n mem' hg look
    obtain ⟨pc₀, mem₀, hg₀⟩ := older mem' hg
    dsimp only at look
    rw [hp, withoutReservation_lookup found] at look
    split at look
    · rename_i hscope
      split at look
      · cases look
      · cases look
        rw [← hscope] at found
        exact inv.pending mem₀ hg₀ found
    · exact inv.pending mem₀ hg₀ look
  · intro pc'' g b mem' hg' look
    obtain ⟨_, mem₀, hg₀⟩ := older mem' hg'
    dsimp only at look
    obtain hg | hg := hg
    · rw [hg] at look
      exact inv.fixed mem₀ hg₀ look
    rw [hg] at look
    rcases Dict.insert_cases look with ⟨hscope, rfl⟩ | ⟨-, look⟩
    · rw [← hscope] at found
      exact inv.pending mem₀ hg₀ found
    · exact inv.fixed mem₀ hg₀ look

end World

lemma Pc.Idle.frame? {id} {pc : Pc} (idle : pc.Idle id) : pc.frame? = none := by
  cases pc with
  | acquire => cases idle
  | consume | finished => rfl

lemma Sys.Advance.strategies {s s' : Sys} (adv : s.Advance pc s' pc') :
    (s'.log.pendingGroupStrategies = s.log.pendingGroupStrategies ∧
      s'.log.groupStrategies = s.log.groupStrategies ∧ pc'.frame? = pc.frame?) ∨
    ∃ f, pc.frame? = some f ∧ pc'.frame? = none ∧
      s'.log.pendingGroupStrategies =
        Log.withoutReservation s.log.pendingGroupStrategies f.scope f.binding ∧
      (s'.log.groupStrategies = s.log.groupStrategies ∨
        s'.log.groupStrategies = s.log.groupStrategies.insert f.scope f.binding) := by
  cases adv with
  | install _ inst => exact .inl ⟨inst.pending, inst.groupStrategies, rfl⟩
  | cancel | unreserve => exact .inr ⟨_, rfl, rfl, rfl, .inl rfl⟩
  | create _ _ made =>
    obtain ⟨-, -, ⟨-, rfl⟩ | ⟨-, rfl⟩⟩ := Sys.createCursor_ok made <;> exact .inl ⟨rfl, rfl, rfl⟩
  | broker _ made =>
    obtain ⟨-, ⟨-, rfl⟩ | ⟨-, _, rfl⟩⟩ := Sys.initBroker_ok made <;> exact .inl ⟨rfl, rfl, rfl⟩
  | finish => exact .inr ⟨_, rfl, rfl, rfl, .inr rfl⟩
  | abandon => exact .inl ⟨(s.release_log _ _).pending, (s.release_log _ _).strategies, rfl⟩
  | quiet _ q =>
    cases q with
    | idle idle => exact .inl ⟨rfl, rfl, idle.frame?⟩
    | _ => exact .inl ⟨rfl, rfl, rfl⟩
  | @deliver _ c _ _ _ _ _ made =>
    obtain ⟨-, -, -, -, rfl⟩ := Sys.deliver_ok made
    cases c <;> exact .inl ⟨rfl, rfl, rfl⟩
  | handled =>
    refine .inl ⟨rfl, rfl, ?_⟩
    unfold checkpoint
    split
    · rfl
    · exact (checkpointRaised_idle _ _ _ _).frame?
  | save _ _ made idle =>
    obtain ⟨-, -, -, rfl⟩ := Sys.saveCursor_ok made
    exact .inl ⟨rfl, rfl, idle.frame?⟩
  | complete idle | stop idle => exact .inl ⟨rfl, rfl, idle.frame?⟩
  | commit _ made idle =>
    obtain ⟨-, -, -, rfl⟩ := Sys.commitBroker_ok made
    exact .inl ⟨rfl, rfl, idle.frame?⟩
  | release _ idle =>
    exact .inl ⟨(s.release_log _ _).pending, (s.release_log _ _).strategies, idle.frame?⟩
  | _ => exact .inl ⟨rfl, rfl, rfl⟩

lemma Pc.cancel_frame (h : pc.cancel = some pc') : pc'.frame? = pc.frame? := by
  cases pc with
  | acquire f st =>
    cases st with
    | wait => cases h; rfl
    | init id stage => cases stage <;> cases h <;> rfl
    | _ => cases h
  | consume id c st => cases c <;> cases st <;> cases h <;> rfl
  | finished => cases h

namespace World

variable {w w' : World} {a : Action}

lemma Reserved.start (n : ℕ+) : Reserved (start n) :=
  ⟨fun _ => .inl ⟨rfl, rfl⟩, nofun, nofun⟩

lemma Reserved.set (inv : w.Reserved) (hpc : w.calls[call]? = some pc)
    (same : pc'.frame? = pc.frame?)
    (hp : s.log.pendingGroupStrategies = w.sys.log.pendingGroupStrategies)
    (hg : s.log.groupStrategies = w.sys.log.groupStrategies) :
    Reserved { sys := s, calls := w.calls.set call pc' } := by
  refine inv.keep (fun _ => congrArg _ hp) hg (fun scope => inProgress_set_same hpc same scope) ?_
  intro pc'' mem f hf
  rcases mem_or_eq_of_mem_set mem with old | rfl
  · exact ⟨pc'', old, hf⟩
  · exact ⟨pc, mem_of_getElem? hpc, same ▸ hf⟩

lemma Reserved.sys (inv : w.Reserved)
    (hp : s.log.pendingGroupStrategies = w.sys.log.pendingGroupStrategies)
    (hg : s.log.groupStrategies = w.sys.log.groupStrategies) : Reserved { w with sys := s } :=
  inv.keep (fun _ => congrArg _ hp) hg (fun _ => rfl) fun pc mem _ hf => ⟨pc, mem, hf⟩

lemma Reserved.move (inv : w.Reserved) (move : w.Move a w') : w'.Reserved := by
  cases move with
  | rewrite kept => exact inv.sys (by rw [kept]) (by rw [kept])
  | store kept => exact inv.sys (by rw [kept]; rfl) (by rw [kept]; rfl)
  | close | stop => exact inv.sys rfl rfl
  | refuse refused => exact inv.begin rfl (inv.counts.refused refused) rfl
  | enter ent => exact inv.enter ent
  | begin id returned place =>
    refine inv.begin ?_ (fun _ => rfl) rfl
    obtain idle | ⟨_, rfl⟩ := place
    · exact idle.frame?
    · rfl
  | release => exact inv.sys (w.sys.release_log _ _).pending (w.sys.release_log _ _).strategies
  | advance hpc adv =>
    obtain ⟨hp, hg, same⟩ | ⟨f, hf, ended, hp, hg⟩ := adv.strategies
    · exact inv.set hpc same hp hg
    · exact inv.ended hpc hf ended hp hg
  | cancel hpc hc => exact inv.set hpc (Pc.cancel_frame hc) rfl rfl

lemma Reserved.strategy_stays (inv : w.Reserved) (move : w.Move a w') {scope b}
    (h : w.sys.log.groupStrategies.lookup scope = some b) :
    w'.sys.log.groupStrategies.lookup scope = some b := by
  cases move with
  | rewrite kept | store kept => rw [kept]; exact h
  | enter ent =>
    obtain ⟨-, -, -, hs⟩ | ⟨_, -, -, -, hs⟩ := ent.cases <;> (rw [hs]; exact h)
  | release =>
    rw [(w.sys.release_log _ _).strategies]
    exact h
  | advance hpc adv =>
    obtain ⟨-, hg, -⟩ | ⟨f, hf, -, -, hg | hg⟩ := adv.strategies
    · rw [hg]; exact h
    · rw [hg]; exact h
    rw [hg, Dict.lookup_insert_ite]
    split
    · rename_i hscope
      subst hscope
      rw [inv.fixed (mem_of_getElem? hpc) hf h]
    · exact h
  | _ => exact h

end World

/-- In every reachable state a recorded strategy never changes from there on, all `acquire` calls in
progress for a scope have one binding, and the pending count of a scope is the number of them. -/
theorem strategy_binding {n : ℕ+} {w : World} (r : Reachable World.step (World.start n) w) :
    (∀ w' scope b, Reachable World.step w w' → w.sys.log.groupStrategies.lookup scope = some b →
      w'.sys.log.groupStrategies.lookup scope = some b) ∧
    (∀ pc pc' f g, pc ∈ w.calls → pc' ∈ w.calls → pc.frame? = some f → pc'.frame? = some g →
      f.scope = g.scope → f.binding = g.binding) ∧
    ∀ scope, (w.sys.log.pendingGroupStrategies.lookup scope).map (·.2) =
      if w.inProgress scope = 0 then none else some (w.inProgress scope) := by
  have reserved : ∀ {w}, Reachable World.step (World.start n) w → w.Reserved := by
    intro w r
    exact World.invariant_of_moves r (.start n) (fun _ => trivial) fun inv _ move => inv.move move
  have inv := reserved r
  refine ⟨?_, ?_, ?_⟩
  · intro w' scope b r' h
    induction r' with
    | refl => exact h
    | @tail w₁ w₂ a r₁ _ st ih =>
      have inv₁ := reserved (r.trans r₁)
      obtain rfl | move | ⟨f, s, ent, hst, move⟩ := World.step_moves st
      · exact ih
      · exact inv₁.strategy_stays move ih
      · have first := World.Move.enter (a := a) ent
        rw [hst] at first
        exact (inv₁.move first).strategy_stays move (inv₁.strategy_stays first ih)
  · intro pc pc' f g mem mem' hf hg scope
    obtain ⟨-, none⟩ | ⟨b, found, -⟩ := inv.counts f.scope
    · have := countP_eq_zero.mp none pc mem
      simp [Pc.reserves, hf] at this
    · rw [inv.pending mem hf found]
      rw [scope] at found
      rw [inv.pending mem' hg found]
  · intro scope
    obtain ⟨h, none⟩ | ⟨b, h, pos⟩ := inv.counts scope
    · rw [h, if_pos none]
      rfl
    · rw [h, if_neg pos.ne']
      rfl

/-- Two members initialize with one store while a third asks for the log's own table. -/
def reservingRun : List Action :=
  [.declareStream ordersDefinition,
    .acquire billingA 0 (.external "checkpoints" 0) false,
    .acquire billingB 1 (.external "checkpoints" 0) false,
    .acquire billingC 1 .brokerManaged false]

theorem strategy_binding_reserving :
    ∃ w, exec World.step (World.start 8) reservingRun = some w ∧ w.calls.length = 3 ∧
      (w.sys.log.pendingGroupStrategies.lookup ("orders", "billing")).map (·.2) = some 2 := by
  obtain ⟨w, hw⟩ : ∃ w, exec World.step (World.start 8) reservingRun = some w := ⟨_, rfl⟩
  have calls : (exec World.step (World.start 8) reservingRun).map
      (fun w => (w.calls.length, w.inProgress ("orders", "billing"))) = some (3, 2) := rfl
  rw [hw] at calls
  obtain ⟨length, count⟩ := Prod.mk.inj (Option.some.inj calls)
  have pending := (strategy_binding (Reach.of_exec .refl hw)).2.2 ("orders", "billing")
  rw [count] at pending
  exact ⟨w, hw, length, pending⟩

end ToriPy.PersistentStreams
