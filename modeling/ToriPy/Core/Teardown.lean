import ToriPy.Core.Lifecycle

/-!
# Startup and teardown

The traces of `start` and of the shutdown task. A startup makes startup calls only, and records the
participants whose hooks returned. A teardown quiesces, drains and then makes exactly the calls that
what was recorded asks for, in reverse order, whatever any of them answers. The rollback of `start` and
the shutdown are two procedures of the source; their traces have the same shape (`TornDown`).
-/

namespace ToriPy.Core.Lifecycle

open List

variable {π : Type} {first : Option Failure} {hook : Hook} {bootstrapped initialized : List π}
  {call : Call π} {participant : π} {f : Kernel π → Kernel π}

/-! ### Traces -/

def firstError (trace : List (Call π × Answer π)) : Option Failure :=
  trace.findSome? fun entry => entry.2.error?

lemma firstError_cons (call : Call π) (answer : Answer π) (trace : List (Call π × Answer π)) :
    firstError ((call, answer) :: trace) = answer.error?.or (firstError trace) := by
  rw [firstError, findSome?_cons]
  cases answer.error? with
  | none | some => rfl

lemma firstError_single (call : Call π) (answer : Answer π) :
    firstError [(call, answer)] = answer.error? := by
  rw [firstError_cons, firstError, findSome?_nil, Option.or_none]

lemma firstError_append (before after : List (Call π × Answer π)) :
    firstError (before ++ after) = (firstError before).or (firstError after) :=
  findSome?_append

/-- The participant whose hook ran to its end with an answer. -/
def completedBy (hook : Hook) : Call π × Answer π → Option π
  | (.hook hook' participant, answer) =>
    if hook' = hook ∧ answer.completed = true then some participant else none
  | _ => none

def completed (hook : Hook) (trace : List (Call π × Answer π)) : List π :=
  trace.filterMap (completedBy hook)

lemma completed_append (hook : Hook) (before after : List (Call π × Answer π)) :
    completed hook (before ++ after) = completed hook before ++ completed hook after :=
  filterMap_append

def lingers (trace : List (Call π × Answer π)) : Bool :=
  trace.any fun entry => entry.2.error? = some .lingeringQuiesce

def isStartup : Call π → Bool
  | .construct _ => true
  | .validate _ => true
  | .resolve _ => true
  | .hook .onModuleInit _ => true
  | .hook .onApplicationBootstrap _ => true
  | .bind => true
  | _ => false

def isTeardown : Call π → Bool
  | .hook .onApplicationShutdown _ => true
  | .hook .onModuleDestroy _ => true
  | .closeBinder => true
  | .closeResources => true
  | _ => false

def teardownCalls (bootstrapped : List π) (attempted : Bool) (initialized : List π) :
    List (Call π) :=
  bootstrapped.reverse.map (.hook .onApplicationShutdown) ++
    (if attempted then [.closeBinder] else []) ++
    initialized.reverse.map (.hook .onModuleDestroy) ++ [.closeResources]

lemma isTeardown_teardownCalls {attempted} :
    ∀ call ∈ teardownCalls bootstrapped attempted initialized, isTeardown call = true := by
  intro call mem
  rcases mem_append.mp mem with mem | mem
  · rcases mem_append.mp mem with mem | mem
    · rcases mem_append.mp mem with mem | mem
      · obtain ⟨participant, -, rfl⟩ := mem_map.mp mem
        rfl
      · split at mem
        · cases mem_singleton.mp mem
          rfl
        · cases mem
    · obtain ⟨_, -, rfl⟩ := mem_map.mp mem
      rfl
  · cases mem_singleton.mp mem
    rfl

/-- The trace of a teardown: it quiesces, drains, and goes on unless a hook lingers. -/
def TornDown (bootstrapped : List π) (attempted : Bool) (initialized : List π)
    (trace : List (Call π × Answer π)) : Prop :=
  ∃ quiet drained late, trace = quiet ++ (.drain, drained) :: late ∧
    quiet.map Prod.fst = bootstrapped.reverse.map (.hook .onApplicationQuiesce) ∧
    late.map Prod.fst =
      if lingers quiet then [] else teardownCalls bootstrapped attempted initialized

lemma TornDown.drained {attempted trace} (h : TornDown bootstrapped attempted initialized trace) :
    ∃ drained, (.drain, drained) ∈ trace := by
  obtain ⟨_, drained, _, rfl, -⟩ := h
  exact ⟨drained, mem_append_right _ mem_cons_self⟩

/-! ### The loops of a teardown -/

section
variable {k k' : Kernel π} {trace : List (Call π × Answer π)}

variable {result : Except Failure (Option Failure)} {participants : List π}

lemma runHooks_runs (run : (runHooks hook participants first).Runs k trace result k') :
    trace.map Prod.fst = participants.map (.hook hook) ∧
      result = .ok (first.or (firstError trace)) ∧ k' = k := by
  induction participants generalizing first trace with
  | nil =>
    cases run
    exact ⟨rfl, by rw [firstError, findSome?_nil, Option.or_none], rfl⟩
  | cons participant participants ih =>
    obtain ⟨_, _, rfl, others⟩ := run.call_then
    obtain ⟨calls, rfl, rfl⟩ := ih others
    refine ⟨?_, ?_, rfl⟩
    · rw [map_cons, map_cons, calls]
    · rw [Option.or_assoc, firstError_cons]

lemma runReverseHooks_runs (run : (runReverseHooks participants hook).Runs k trace result k') :
    trace.map Prod.fst = participants.reverse.map (.hook hook) ∧
      result = .ok (firstError trace) ∧ k' = k := by
  obtain ⟨calls, result, same⟩ := runHooks_runs run
  exact ⟨calls, by rw [result, Option.none_or], same⟩

lemma runQuiesce_runs {lingering result}
    (run : (runQuiesce participants (first, lingering)).Runs k trace result k') :
    trace.map Prod.fst = participants.map (.hook .onApplicationQuiesce) ∧
      result = .ok (first.or (firstError trace), lingering || lingers trace) ∧ k' = k := by
  induction participants generalizing first lingering trace with
  | nil =>
    cases run
    refine ⟨rfl, ?_, rfl⟩
    rw [firstError, findSome?_nil, Option.or_none, lingers, any_nil, Bool.or_false]
  | cons participant participants ih =>
    obtain ⟨_, _, rfl, others⟩ := run.call_then
    obtain ⟨calls, rfl, rfl⟩ := ih others
    refine ⟨?_, ?_, rfl⟩
    · rw [map_cons, map_cons, calls]
    · rw [Option.or_assoc, firstError_cons, lingers, lingers, any_cons, Bool.or_assoc]

lemma runReverseQuiesce_runs {result}
    (run : (runReverseQuiesce participants).Runs k trace result k') :
    trace.map Prod.fst = participants.reverse.map (.hook .onApplicationQuiesce) ∧
      result = .ok (firstError trace, lingers trace) ∧ k' = k := by
  obtain ⟨calls, result, same⟩ := runQuiesce_runs run
  exact ⟨calls, by rw [result, Option.none_or, Bool.false_or], same⟩

lemma closeBinder_runs (run : closeBinder.Runs k trace result k') :
    trace.map Prod.fst = (if k.bindingAttempted then [.closeBinder] else []) ∧
      result = .ok (firstError trace) ∧ k' = k := by
  have run := run.read_then
  split at run
  · rename_i attempted
    obtain ⟨_, _, rfl, others⟩ := run.call_then
    cases others
    refine ⟨?_, ?_, rfl⟩
    · rw [if_pos attempted]
      rfl
    · rw [firstError_cons, firstError, findSome?_nil, Option.or_none]
  · rename_i attempted
    cases run
    refine ⟨?_, rfl, rfl⟩
    rw [if_neg attempted]
    rfl

lemma quiesceAndDrain_runs {result} (run : quiesceAndDrain.Runs k trace result k') :
    ∃ quiet drained, trace = quiet ++ [(.drain, drained)] ∧
      quiet.map Prod.fst = k.bootstrapped.reverse.map (.hook .onApplicationQuiesce) ∧
      result = .ok (firstError trace, lingers quiet) ∧ k' = { k with workAdmissionOpen := false } := by
  rcases run.read_then.bind with ⟨e, first, -⟩ | ⟨⟨_, _⟩, _, quiet, _, first, rest, rfl⟩
  · obtain ⟨-, impossible, -⟩ := runReverseQuiesce_runs first
    cases impossible
  obtain ⟨calls, same, rfl⟩ := runReverseQuiesce_runs first
  cases same
  obtain ⟨drained, _, rfl, last⟩ := rest.modify_then.call_then
  cases last
  refine ⟨quiet, drained, rfl, calls, ?_, rfl⟩
  rw [firstError_append, firstError_cons, firstError, firstError, findSome?_nil, Option.or_none]

lemma tearDown_runs (run : tearDown.Runs k trace result k') :
    trace.map Prod.fst = teardownCalls k.bootstrapped k.bindingAttempted k.moduleInitialized ∧
      result = .ok (firstError trace) ∧ k' = k := by
  rcases run.read_then.bind with ⟨e, first, -⟩ | ⟨_, _, _, _, first, rest, rfl⟩
  · obtain ⟨-, impossible, -⟩ := runReverseHooks_runs first
    cases impossible
  obtain ⟨shutdownCalls, same, rfl⟩ := runReverseHooks_runs first
  cases same
  rcases rest.bind with ⟨e, second, -⟩ | ⟨_, _, _, _, second, rest₂, rfl⟩
  · obtain ⟨-, impossible, -⟩ := closeBinder_runs second
    cases impossible
  obtain ⟨binderCalls, same, rfl⟩ := closeBinder_runs second
  cases same
  rcases rest₂.read_then.bind with ⟨e, third, -⟩ | ⟨_, _, _, _, third, rest₃, rfl⟩
  · obtain ⟨-, impossible, -⟩ := runReverseHooks_runs third
    cases impossible
  obtain ⟨destroyCalls, same, rfl⟩ := runReverseHooks_runs third
  cases same
  obtain ⟨_, _, rfl, last⟩ := rest₃.call_then
  cases last
  refine ⟨?_, ?_, rfl⟩
  · rw [map_append, map_append, map_append, shutdownCalls, binderCalls, destroyCalls, teardownCalls,
      append_assoc, append_assoc]
    rfl
  · rw [firstError_append, firstError_append, firstError_append, firstError_cons, Option.or_assoc,
      Option.or_assoc]
    congr 4
    exact (Option.or_none).symm

lemma rollback_runs {result} (run : rollback.Runs k trace result k') :
    TornDown k.bootstrapped k.bindingAttempted k.moduleInitialized trace ∧ result = .ok () ∧
      k'.state = .failed ∧ k'.requestAdmissionOpen = false ∧ k'.workAdmissionOpen = false := by
  rcases run.modify_then.bind with ⟨e, first, -⟩ | ⟨⟨_, _⟩, _, _, _, first, rest, rfl⟩
  · obtain ⟨_, _, -, -, impossible, -⟩ := quiesceAndDrain_runs first
    cases impossible
  obtain ⟨quiet, drained, rfl, calls, same, rfl⟩ := quiesceAndDrain_runs first
  cases same
  dsimp only at rest
  split at rest
  · rename_i lingering
    obtain ⟨rfl, rfl, rfl⟩ := rest.modify
    refine ⟨⟨quiet, drained, [], ?_, calls, ?_⟩, rfl, rfl, rfl, rfl⟩
    · rw [append_nil]
    · rw [if_pos lingering]
      rfl
  · rename_i lingering
    rcases rest.bind with ⟨e, second, -⟩ | ⟨_, _, late, _, second, last, rfl⟩
    · obtain ⟨-, impossible, -⟩ := tearDown_runs second
      cases impossible
    obtain ⟨lateCalls, -, rfl⟩ := tearDown_runs second
    obtain ⟨rfl, rfl, rfl⟩ := last.modify
    refine ⟨⟨quiet, drained, late, ?_, calls, ?_⟩, rfl, rfl, rfl, rfl⟩
    · rw [append_nil, append_assoc]
      rfl
    · rw [if_neg lingering]
      exact lateCalls

lemma shutdownSteps_runs (run : shutdownSteps.Runs k trace result k') :
    TornDown k.bootstrapped k.bindingAttempted k.moduleInitialized trace ∧
      result = .ok (firstError trace) ∧ k' = { k with workAdmissionOpen := false } := by
  rcases run.bind with ⟨e, first, -⟩ | ⟨⟨_, _⟩, _, _, _, first, rest, rfl⟩
  · obtain ⟨_, _, -, -, impossible, -⟩ := quiesceAndDrain_runs first
    cases impossible
  obtain ⟨quiet, drained, rfl, calls, same, rfl⟩ := quiesceAndDrain_runs first
  cases same
  dsimp only at rest
  split at rest
  · rename_i lingering
    obtain ⟨rfl, rfl, rfl⟩ := rest.pure
    refine ⟨⟨quiet, drained, [], ?_, calls, ?_⟩, ?_, rfl⟩
    · rw [append_nil]
    · rw [if_pos lingering]
      rfl
    · rw [append_nil]
  · rename_i lingering
    rcases rest.bind with ⟨e, second, -⟩ | ⟨_, _, late, _, second, last, rfl⟩
    · obtain ⟨-, impossible, -⟩ := tearDown_runs second
      cases impossible
    obtain ⟨lateCalls, same, rfl⟩ := tearDown_runs second
    cases same
    obtain ⟨rfl, rfl, rfl⟩ := last.pure
    rw [append_nil]
    refine ⟨⟨quiet, drained, late, ?_, calls, ?_⟩, ?_, rfl⟩
    · rw [append_assoc]
      rfl
    · rw [if_neg lingering]
      exact lateCalls
    · rw [firstError_append _ late]

lemma runShutdown_runs (run : runShutdown.Runs k trace result k') :
    TornDown k.bootstrapped k.bindingAttempted k.moduleInitialized trace ∧
      result = .ok (firstError trace) ∧ k'.state = .stopped ∧
      k'.requestAdmissionOpen = k.requestAdmissionOpen ∧ k'.workAdmissionOpen = false := by
  rcases run.bind with ⟨e, steps, rfl⟩ | ⟨_, _, _, _, steps, last, rfl⟩
  · obtain ⟨-, impossible, -⟩ := shutdownSteps_runs steps
    cases impossible
  obtain ⟨tornDown, same, rfl⟩ := shutdownSteps_runs steps
  cases same
  cases last.modify_then
  rw [append_nil]
  exact ⟨tornDown, rfl, rfl, rfl, rfl⟩

end

/-! ### The startup -/

/-- A hook of the startup ran to its end only if its caller learned so. -/
def gapless : Call π → Answer π → Bool
  | .hook .onModuleInit _, answer => answer.completed == answer.error?.isNone
  | .hook .onApplicationBootstrap _, answer => answer.completed == answer.error?.isNone
  | _, _ => true

lemma gapless_ok (call : Call π) (value : π) : gapless call ⟨.ok value, true⟩ = true := by
  unfold gapless
  split
  · rfl
  · rfl
  · rfl

lemma perform_runs {k k' trace result} (run : (perform call).Runs k trace result k') :
    ∃ answer, trace = [(call, answer)] ∧ result = answer.result ∧ k' = k := by
  obtain ⟨answer, _, rfl, last⟩ := run.call_then
  generalize same : answer.result = outcome at last
  cases last
  exact ⟨answer, rfl, same.symm, rfl⟩

lemma recorded_runs {k k' trace result}
    (run : (perform (.hook hook participant) >>= fun _ => Task.modify f).Runs k trace result k') :
    ∃ answer, trace = [(.hook hook participant, answer)] ∧ answer.error? = Task.errorOf result ∧
      k' = if answer.error?.isNone then f k else k := by
  rcases run.bind with ⟨e, first, rfl⟩ | ⟨_, _, _, _, first, rest, rfl⟩
  · obtain ⟨answer, rfl, failed, rfl⟩ := perform_runs first
    refine ⟨answer, rfl, ?_, ?_⟩
    · rw [Answer.error?, ← failed]
      rfl
    · rw [Answer.error?, ← failed]
      rfl
  · obtain ⟨answer, rfl, returned, rfl⟩ := perform_runs first
    obtain ⟨rfl, rfl, rfl⟩ := rest.modify
    refine ⟨answer, rfl, ?_, ?_⟩
    · rw [Answer.error?, ← returned]
      rfl
    · rw [Answer.error?, ← returned]
      rfl

lemma completed_single {answer : Answer π} {completes : Bool} (h : answer.completed = completes) :
    completed hook [(.hook hook participant, answer)] = if completes then [participant] else [] := by
  subst h
  cases same : answer.completed with
  | false | true => simp [completed, completedBy, same]

section
variable [DecidableEq π]

/-- What a piece of the startup does: it makes calls of a startup, ends with the error of the first
that fails, and records what completed. -/
structure Advances (k : Kernel π) (trace : List (Call π × Answer π)) (error : Option Failure)
    (k' : Kernel π) : Prop where
  startup : ∀ entry ∈ trace, isStartup entry.1 = true
  error : firstError trace = error
  initialized : (∀ entry ∈ trace, gapless entry.1 entry.2 = true) →
    k'.moduleInitialized = k.moduleInitialized ++ completed .onModuleInit trace
  bootstrapped : (∀ entry ∈ trace, gapless entry.1 entry.2 = true) →
    k'.bootstrapped = k.bootstrapped ++ completed .onApplicationBootstrap trace
  attempted : k'.bindingAttempted = (k.bindingAttempted || decide (.bind ∈ trace.map Prod.fst))

lemma advances_of_same {k k' : Kernel π} (initialized : k'.moduleInitialized = k.moduleInitialized)
    (bootstrapped : k'.bootstrapped = k.bootstrapped)
    (attempted : k'.bindingAttempted = k.bindingAttempted) : Advances k [] none k' where
  startup := nofun
  error := rfl
  initialized _ := by rw [initialized, completed, filterMap_nil, append_nil]
  bootstrapped _ := by rw [bootstrapped, completed, filterMap_nil, append_nil]
  attempted := by
    rw [attempted]
    exact (Bool.or_false _).symm

lemma advances_chain : Task.Chain (Advances (π := π)) where
  refl _ := advances_of_same rfl rfl rfl
  trans {k mid k' before after error} first rest := by
    refine ⟨?_, ?_, ?_, ?_, ?_⟩
    · exact forall_mem_append.mpr ⟨first.startup, rest.startup⟩
    · rw [firstError_append, first.error, rest.error, Option.none_or]
    · intro clean
      obtain ⟨early, late⟩ := forall_mem_append.mp clean
      rw [rest.initialized late, first.initialized early, completed_append, append_assoc]
    · intro clean
      obtain ⟨early, late⟩ := forall_mem_append.mp clean
      rw [rest.bootstrapped late, first.bootstrapped early, completed_append, append_assoc]
    · rw [rest.attempted, first.attempted, map_append, Bool.or_assoc]
      simp only [mem_append, Bool.decide_or]

lemma ends_perform (startup : isStartup call = true)
    (other : ∀ hook participant, call ≠ .hook hook participant) (unbound : call ≠ .bind) :
    Task.Ends Advances (perform call) := by
  intro k trace result k' run
  obtain ⟨answer, rfl, rfl, rfl⟩ := perform_runs run
  have none : ∀ hook, completed hook [(call, answer)] = [] := by
    intro hook
    cases call with
    | hook hook participant => exact absurd rfl (other hook participant)
    | _ => rfl
  refine ⟨forall_mem_singleton.mpr startup, firstError_single call answer, ?_, ?_, ?_⟩
  · intro _
    rw [none, append_nil]
  · intro _
    rw [none, append_nil]
  · have absent : .bind ∉ [(call, answer)].map Prod.fst := fun mem =>
      unbound (mem_singleton.mp mem).symm
    rw [decide_eq_false absent, Bool.or_false]

lemma ends_moduleInit (participant : π) : Task.Ends Advances (moduleInit participant) := by
  intro k trace result k' run
  obtain ⟨answer, rfl, error, rfl⟩ := recorded_runs run
  refine ⟨forall_mem_singleton.mpr rfl, (firstError_single _ _).trans error, ?_, ?_, ?_⟩
  · intro clean
    rw [completed_single (beq_iff_eq.mp (clean _ mem_cons_self))]
    cases answer.error?.isNone with
    | true => rfl
    | false => exact (append_nil _).symm
  · intro _
    cases answer.error?.isNone with
    | true | false => exact (append_nil _).symm
  · cases answer.error?.isNone with
    | true | false => exact (Bool.or_false _).symm

lemma ends_bootstrap (participant : π) : Task.Ends Advances (bootstrap participant) := by
  intro k trace result k' run
  obtain ⟨answer, rfl, error, rfl⟩ := recorded_runs run
  refine ⟨forall_mem_singleton.mpr rfl, (firstError_single _ _).trans error, ?_, ?_, ?_⟩
  · intro _
    cases answer.error?.isNone with
    | true | false => exact (append_nil _).symm
  · intro clean
    rw [completed_single (beq_iff_eq.mp (clean _ mem_cons_self))]
    cases answer.error?.isNone with
    | true => rfl
    | false => exact (append_nil _).symm
  · cases answer.error?.isNone with
    | true | false => exact (Bool.or_false _).symm

lemma ends_modify
    (h : ∀ k, (f k).moduleInitialized = k.moduleInitialized ∧ (f k).bootstrapped = k.bootstrapped ∧
      (f k).bindingAttempted = k.bindingAttempted) : Task.Ends Advances (Task.modify f) := by
  intro k trace result k' run
  obtain ⟨rfl, rfl, rfl⟩ := run.modify
  obtain ⟨initialized, bootstrapped, attempted⟩ := h k
  exact advances_of_same initialized bootstrapped attempted

lemma ends_bind {rest : Work π Unit} (h : Task.Ends Advances rest) :
    Task.Ends Advances (do
      Task.modify fun kernel => { kernel with bindingAttempted := true }
      let _ ← perform .bind
      rest) := by
  intro k trace result k' run
  have attempted : ∀ answer : Answer π, firstError [(.bind, answer)] = answer.error? →
      Advances k [(.bind, answer)] answer.error? { k with bindingAttempted := true } := by
    intro answer error
    refine ⟨forall_mem_singleton.mpr rfl, error, fun _ => (append_nil _).symm,
      fun _ => (append_nil _).symm, (Bool.or_true _).symm⟩
  rcases run.modify_then.bind with ⟨e, first, rfl⟩ | ⟨_, _, _, _, first, last, rfl⟩
  · obtain ⟨answer, rfl, failed, rfl⟩ := perform_runs first
    have bound := attempted answer (firstError_single _ _)
    rw [Answer.error?, ← failed] at bound
    exact bound
  · obtain ⟨answer, rfl, returned, rfl⟩ := perform_runs first
    have bound := attempted answer (firstError_single _ _)
    rw [Answer.error?, ← returned] at bound
    exact advances_chain.trans bound (h _ _ _ _ last)

def Ordered (graph : CompiledGraph) : Prop :=
  ∀ ref ∈ graph.providerOrder, ∃ plan, findProvider graph.providers ref = some plan

lemma ends_startHooks {env : Env π} (ordered : Ordered env.graph) :
    Task.Ends Advances (startHooks env) := by
  apply Task.Ends.bind advances_chain
  · apply Task.Ends.foldlM advances_chain
    intro modules plan _
    exact .bind advances_chain (ends_perform rfl nofun nofun) fun _ => .pure advances_chain _
  intro modules
  apply Task.Ends.bind advances_chain
  · apply Task.Ends.forM advances_chain
    intro participant _
    unfold validateModule
    split
    · exact .bind advances_chain (ends_perform rfl nofun nofun) fun _ => .pure advances_chain _
    · exact .pure advances_chain _
  intro _
  apply Task.Ends.bind advances_chain
  · apply Task.Ends.forM advances_chain
    intro ref mem
    obtain ⟨plan, found⟩ := ordered ref mem
    unfold resolveSingleton
    rw [found]
    dsimp only
    split
    · refine .bind advances_chain (ends_perform rfl nofun nofun) fun _ => ends_modify ?_
      exact fun _ => ⟨rfl, rfl, rfl⟩
    · exact .pure advances_chain _
  intro _
  apply Task.Ends.bind advances_chain
  · apply Task.Ends.forM advances_chain
    exact fun participant _ => ends_moduleInit participant
  intro _
  apply Task.Ends.bind advances_chain
  · apply Task.Ends.forM advances_chain
    intro ref mem
    obtain ⟨_, found⟩ := ordered ref mem
    unfold singletonInit
    rw [found]
    dsimp only
    split
    · intro k trace result k' run
      have run := run.read_then
      split at run
      · exact Task.Ends.pure advances_chain _ _ _ _ _ run
      · exact ends_moduleInit _ _ _ _ _ run
    · exact .pure advances_chain _
  intro _
  apply ends_bind
  apply Task.Ends.bind advances_chain
  · exact ends_modify fun _ => ⟨rfl, rfl, rfl⟩
  intro _ k trace result k' run
  have run := run.read_then
  exact Task.Ends.forM advances_chain (fun participant _ => ends_bootstrap participant) _ _ _ _ run

/-- A run of `start`: it returns with what completed recorded, or fails with its first error and is
torn down. -/
inductive Started (trace : List (Call π × Answer π)) (k' : Kernel π) : Except Failure Unit → Prop
  | returned :
    (∀ entry ∈ trace, isStartup entry.1 = true) → firstError trace = none →
    k'.state = .started →
    k'.moduleInitialized = completed .onModuleInit trace →
    k'.bootstrapped = completed .onApplicationBootstrap trace →
    k'.bindingAttempted = decide (.bind ∈ trace.map Prod.fst) → Started trace k' (.ok ())
  | failed {error : Failure} {up down : List (Call π × Answer π)} :
    trace = up ++ down → (∀ entry ∈ up, isStartup entry.1 = true) → firstError up = some error →
    TornDown (completed .onApplicationBootstrap up) (decide (.bind ∈ up.map Prod.fst))
      (completed .onModuleInit up) down →
    k'.state = .failed → k'.requestAdmissionOpen = false → k'.workAdmissionOpen = false →
    Started trace k' (.error error)

lemma start_runs {env : Env π} (ordered : Ordered env.graph) {k' trace result}
    (run : (start env).Runs { state := .starting } trace result k')
    (clean : ∀ entry ∈ trace, gapless entry.1 entry.2 = true) : Started trace k' result := by
  have ends := ends_startHooks ordered
  rcases run.rescue with ⟨_, body, rfl⟩ | ⟨error, mid, up, _, body, handler, rfl⟩
  · rcases body.bind with ⟨e, -, impossible⟩ | ⟨_, mid, _, _, hooks, last, rfl⟩
    · cases impossible
    obtain ⟨rfl, -, rfl⟩ := last.modify
    rw [append_nil] at clean ⊢
    have advances := ends _ _ _ _ hooks
    exact .returned advances.startup advances.error rfl (advances.initialized clean)
      (advances.bootstrapped clean) advances.attempted
  · obtain ⟨early, -⟩ := forall_mem_append.mp clean
    have advances : Advances { state := .starting } up (some error) mid := by
      rcases body.bind with ⟨e, hooks, same⟩ | ⟨_, _, _, _, -, last, -⟩
      · cases same
        exact ends _ _ _ _ hooks
      · obtain ⟨-, impossible, -⟩ := last.modify
        cases impossible
    rcases handler.bind with ⟨e, back, -⟩ | ⟨_, _, _, _, back, last, rfl⟩
    · obtain ⟨-, impossible, -⟩ := rollback_runs back
      cases impossible
    obtain ⟨tornDown, -, state, request, work⟩ := rollback_runs back
    cases last
    rw [append_nil]
    refine .failed rfl advances.startup advances.error ?_ state request work
    rw [advances.bootstrapped early, advances.initialized early, advances.attempted] at tornDown
    exact tornDown

end

/-! ### Where they wait -/

def Kernel.Closed (k : Kernel π) : Prop :=
  k.requestAdmissionOpen = false ∧ k.workAdmissionOpen = false

def InState (state : ApplicationState) (k : Kernel π) : Prop := k.state = state

/-- A task of the kernel waits in a state of the application, and for a teardown call only when no
scope is admitted. -/
def WaitsIn (state : ApplicationState) (k : Kernel π) (call : Call π) : Prop :=
  k.state = state ∧ (isTeardown call = true → k.Closed)

section
variable {k : Kernel π} {inv : Kernel π → Prop} {ok : Kernel π → Call π → Prop}

lemma guards_perform (h : ok k call) : (perform call).Guards inv ok k :=
  ⟨h, fun _ _ _ => trivial⟩

lemma guards_runHooks {participants} (h : ∀ k participant, inv k → ok k (.hook hook participant))
    (here : inv k) : (runHooks hook participants first).Guards inv ok k := by
  induction participants generalizing first k with
  | nil => trivial
  | cons participant participants ih => exact ⟨h k participant here, fun k' there _ => ih there⟩

lemma guards_runQuiesce {participants lingering}
    (h : ∀ k participant, inv k → ok k (.hook .onApplicationQuiesce participant)) (here : inv k) :
    (runQuiesce participants (first, lingering)).Guards inv ok k := by
  induction participants generalizing first lingering k with
  | nil => trivial
  | cons participant participants ih => exact ⟨h k participant here, fun k' there _ => ih there⟩

end

variable {state : ApplicationState}

lemma pauses_quiesceAndDrain {k : Kernel π} (here : InState state k) :
    quiesceAndDrain.Pauses (WaitsIn state) k := by
  have guards : quiesceAndDrain.Guards (InState (π := π) state)
      (fun _ call => isTeardown call = false) k := by
    apply Task.Guards.bind (guards_runQuiesce (fun _ _ _ => rfl) here) here
    intro _ k' there
    exact ⟨there, rfl, fun _ _ _ => trivial⟩
  apply Task.Pauses.of_guards guards here
  intro k call there other
  refine ⟨there, fun teardown => ?_⟩
  rw [other] at teardown
  cases teardown

/-- The state of the application is one in which no scope is admitted. -/
def ClosedIn (state : ApplicationState) (k : Kernel π) : Prop := k.state = state ∧ k.Closed

lemma pauses_tearDown {k : Kernel π} (here : ClosedIn state k) :
    tearDown.Pauses (WaitsIn state) k := by
  have guards : tearDown.Guards (ClosedIn (π := π) state) (fun _ _ => True) k := by
    apply Task.Guards.bind (guards_runHooks (fun _ _ _ => trivial) here) here
    intro _ k' there
    apply Task.Guards.bind ?_ there
    · intro _ k' there
      apply Task.Guards.bind (guards_runHooks (fun _ _ _ => trivial) there) there
      intro _ k' there
      exact ⟨trivial, fun _ _ _ => trivial⟩
    · show (if k'.bindingAttempted then _ else _ : Work π (Option Failure)).Guards _ _ _
      split
      · exact ⟨trivial, fun _ _ _ => trivial⟩
      · trivial
  apply Task.Pauses.of_guards guards here
  intro k call there _
  exact ⟨there.1, fun _ => there.2⟩

lemma pauses_rollback {k : Kernel π} (here : k.state = state) :
    rollback.Pauses (WaitsIn state) k := by
  apply Task.Pauses.bind (pauses_quiesceAndDrain (k := { k with requestAdmissionOpen := false }) here)
  rintro trace ⟨_, _⟩ k' run
  obtain ⟨_, _, -, -, -, rfl⟩ := quiesceAndDrain_runs run
  dsimp only
  split
  · trivial
  · refine .bind (pauses_tearDown ?_) fun _ _ _ _ => trivial
    exact ⟨here, rfl, rfl⟩

lemma pauses_runShutdown {k : Kernel π} (here : k.state = .stopping)
    (closed : k.requestAdmissionOpen = false) : runShutdown.Pauses (WaitsIn .stopping) k := by
  apply Task.Pauses.bind
  · apply Task.Pauses.bind (pauses_quiesceAndDrain here)
    rintro trace ⟨_, _⟩ k' run
    obtain ⟨_, _, -, -, -, rfl⟩ := quiesceAndDrain_runs run
    dsimp only
    split
    · trivial
    · refine .bind (pauses_tearDown ?_) fun _ _ _ _ => trivial
      exact ⟨here, closed, rfl⟩
  · exact fun _ _ _ _ => trivial

lemma guards_moduleInit {k} (here : InState .starting k) :
    (moduleInit participant).Guards (InState .starting) (fun _ call => isTeardown call = false) k :=
  .bind (guards_perform rfl) here fun _ _ there => ⟨there, trivial⟩

section
variable [DecidableEq π]

lemma guards_startHooks (env : Env π) {k} (here : InState .starting k) :
    (startHooks env).Guards (InState .starting) (fun _ call => isTeardown call = false) k := by
  apply Task.Guards.bind ?_ here
  · intro modules k here
    apply Task.Guards.bind ?_ here
    · intro _ k here
      apply Task.Guards.bind ?_ here
      · intro _ k here
        apply Task.Guards.bind (.forM (fun participant _ k here => guards_moduleInit here) here) here
        intro _ k here
        apply Task.Guards.bind ?_ here
        · intro _ k here
          apply Task.Guards.modify_then here
          refine .bind (guards_perform ?_) ?_ ?_
          · rfl
          · exact here
          · intro _ k here
            refine .modify_then here (.forM ?_ here)
            intro participant _ k here
            exact .bind (guards_perform rfl) here fun _ k here => ⟨here, trivial⟩
        · apply Task.Guards.forM ?_ here
          intro ref _ k here
          unfold singletonInit
          split
          · trivial
          split
          · show (if _ then _ else _ : Work π Unit).Guards _ _ _
            split
            · trivial
            · exact guards_moduleInit here
          · trivial
      · apply Task.Guards.forM ?_ here
        intro ref _ k here
        unfold resolveSingleton
        split
        · trivial
        · split
          · exact .bind (guards_perform rfl) here fun _ k here => ⟨here, trivial⟩
          · trivial
    · apply Task.Guards.forM ?_ here
      intro participant _ k here
      unfold validateModule
      split
      · exact .bind (guards_perform rfl) here fun _ _ _ => trivial
      · trivial
  · apply Task.Guards.foldlM ?_ _ here
    intro modules plan _ k here
    exact .bind (guards_perform rfl) here fun _ _ _ => trivial

lemma pauses_start (env : Env π) :
    (start env).Pauses (WaitsIn .starting) { state := .starting } := by
  have guards := guards_startHooks env (k := { state := .starting }) rfl
  apply Task.Pauses.rescue
  · apply Task.Pauses.bind
    · apply Task.Pauses.of_guards guards rfl
      intro k call there other
      refine ⟨there, fun teardown => ?_⟩
      rw [other] at teardown
      cases teardown
    · exact fun _ _ _ _ => trivial
  · intro trace error k' run
    have there : k'.state = .starting := by
      rcases run.bind with ⟨e, hooks, -⟩ | ⟨_, _, _, _, -, last, -⟩
      · exact guards.runs rfl hooks
      · obtain ⟨-, impossible, -⟩ := last.modify
        cases impossible
    exact .bind (pauses_rollback there) fun _ _ _ _ => trivial

end

end ToriPy.Core.Lifecycle
