import ToriPy.Core.Startup
import ToriPy.Core.Teardown

/-!
# Pairing of the lifecycle hooks

The application at any moment: `start` on its way or over, callers of `shutdown` that come and go, and
scopes that are opened and closed. What has been torn down so far is the beginning of what has to be
torn down for the hooks that completed so far, and all of it when the application has stopped or has
failed to start.

A hook of the startup runs in a task of its own. When `start` is cancelled after that task has
finished and before `start` goes on, the hook has completed, and `start` does not record it:
`lifecycle_paired` is for the runs without such a cancellation.
-/

namespace ToriPy.Core.Lifecycle

open List

variable {π : Type}

/-! ### The course of an application -/

/-- A quiesce hook ignored its cancellation, and the teardown is skipped. -/
def Lingering (trace : List (Call π × Answer π)) : Prop :=
  ∃ participant answer, (.hook .onApplicationQuiesce participant, answer) ∈ trace ∧
    answer.error? = some .lingeringQuiesce

section
variable [DecidableEq π]

/-- What has to be torn down after a trace, with some calls made. -/
def expectedCalls (trace : List (Call π × Answer π)) (calls : List (Call π)) : List (Call π) :=
  teardownCalls (completed .onApplicationBootstrap trace) (decide (.bind ∈ calls))
    (completed .onModuleInit trace)

/-- The whole trace of an application: a startup, or one that is followed by the drain and then by
what has to be torn down. -/
inductive Course : List (Call π × Answer π) → Prop
  | up {trace : List (Call π × Answer π)} : (∀ entry ∈ trace, isStartup entry.1 = true) →
    Course trace
  | down {early late : List (Call π × Answer π)} {drained : Answer π} :
    (∀ entry ∈ early, isTeardown entry.1 = false ∧ entry.1 ≠ .drain) →
    late.map Prod.fst = expectedCalls early (early.map Prod.fst) ∨ late = [] ∧ Lingering early →
    Course (early ++ (.drain, drained) :: late)

end

lemma isStartup_of_isTeardown {call : Call π} (h : isTeardown call = true) :
    isStartup call = false := by
  cases call with
  | hook hook =>
    cases hook with
    | onModuleInit | onApplicationBootstrap => cases h
    | _ => rfl
  | drain | closeBinder | closeResources => rfl
  | _ => cases h

lemma isTeardown_of_isStartup {call : Call π} (h : isStartup call = true) :
    isTeardown call = false := by
  cases teardown : isTeardown call with
  | false => rfl
  | true =>
    rw [isStartup_of_isTeardown teardown] at h
    cases h

/-- What comes before the drain. -/
def Early (entry : Call π × Answer π) : Prop := isTeardown entry.1 = false ∧ entry.1 ≠ .drain

lemma early_of_startup {entry : Call π × Answer π} (h : isStartup entry.1 = true) : Early entry := by
  refine ⟨isTeardown_of_isStartup h, fun drain => ?_⟩
  rw [drain] at h
  cases h

lemma teardown_of_early {trace : List (Call π × Answer π)} (early : ∀ entry ∈ trace, Early entry) :
    (trace.map Prod.fst).filter isTeardown = [] := by
  apply filter_eq_nil_iff.mpr
  intro call mem teardown
  obtain ⟨entry, listed, rfl⟩ := mem_map.mp mem
  rw [(early entry listed).1] at teardown
  cases teardown

lemma completed_of_other {hook} (startup : ∀ participant : π, isStartup (.hook hook participant))
    {trace : List (Call π × Answer π)} (h : ∀ entry ∈ trace, isStartup entry.1 = false) :
    completed hook trace = [] := by
  apply filterMap_eq_nil_iff.mpr
  rintro ⟨_, answer⟩ mem
  have other := h _ mem
  unfold completedBy
  split
  · rename_i hook' participant answer same
    cases same
    split
    · rename_i both
      rw [both.1, startup participant] at other
      cases other
    · rfl
  · rfl

lemma split_at {α : Type} {before rest first second : List α} {x}
    (h : before ++ x :: rest = first ++ second) :
    (∃ more, first = before ++ x :: more) ∨ ∃ passed, before = first ++ passed ∧
      second = passed ++ x :: rest := by
  rcases append_eq_append_iff.mp h with ⟨more, rfl, same⟩ | ⟨passed, rfl, rfl⟩
  · cases more with
    | nil =>
      rw [nil_append] at same
      exact .inr ⟨[], by rw [append_nil, append_nil], same.symm⟩
    | cons y more =>
      cases same
      exact .inl ⟨more, rfl⟩
  · exact .inr ⟨passed, rfl, rfl⟩

/-- Without a timeout the drain leaves no scope active. -/
def Drained (env : Env π) (sys : Sys π) : Prop :=
  env.shutdownTimeout = none → ∀ drained, (.drain, drained) ∈ sys.trace → sys.active = []

lemma Drained.frame {env} {sys sys' : Sys π} (h : Drained env sys)
    (same : sys'.trace = sys.trace ∧ sys'.active = sys.active) : Drained env sys' := by
  intro timeout drained mem
  rw [same.1] at mem
  rw [same.2]
  exact h timeout drained mem

lemma Drained.answer {env} {sys : Sys π} {call answer} (h : Drained env sys)
    (answered : possible env sys.active call answer = true) :
    Drained env { sys with trace := sys.trace ++ [(call, answer)] } := by
  intro timeout drained mem
  rcases mem_append.mp mem with mem | mem
  · exact h timeout drained mem
  · cases mem_singleton.mp mem
    simp only [possible, timeout, Option.isSome_none, Bool.false_or, Bool.and_eq_true] at answered
    exact List.isEmpty_iff.mp answered.1

section
variable [DecidableEq π]

lemma expectedCalls_append {early extra : List (Call π × Answer π)} {calls}
    (h : ∀ entry ∈ extra, isStartup entry.1 = false) (h' : ∀ call ∈ calls, isStartup call = false) :
    expectedCalls (early ++ extra) (early.map Prod.fst ++ calls) =
      expectedCalls early (early.map Prod.fst) := by
  have unbound : .bind ∉ calls := by
    intro mem
    cases h' _ mem
  have same : (.bind ∈ early.map Prod.fst ++ calls) = (.bind ∈ early.map Prod.fst) := by
    rw [mem_append]
    exact propext (or_iff_left unbound)
  unfold expectedCalls
  rw [completed_append, completed_append, completed_of_other (fun _ => rfl) h,
    completed_of_other (fun _ => rfl) h, append_nil, append_nil]
  simp only [same]

lemma Course.of_tornDown {up down : List (Call π × Answer π)}
    (startup : ∀ entry ∈ up, isStartup entry.1 = true)
    (tornDown : TornDown (completed .onApplicationBootstrap up)
      (decide (.bind ∈ up.map Prod.fst)) (completed .onModuleInit up) down) :
    Course (up ++ down) := by
  obtain ⟨quiet, _, _, rfl, quietCalls, lateCalls⟩ := tornDown
  have quiesces : ∀ entry ∈ quiet, ∃ participant, entry.1 = .hook .onApplicationQuiesce participant := by
    intro entry mem
    have called := mem_map_of_mem (f := Prod.fst) mem
    rw [quietCalls] at called
    obtain ⟨participant, -, same⟩ := mem_map.mp called
    exact ⟨participant, same.symm⟩
  have other : ∀ entry ∈ quiet, isStartup entry.1 = false := by
    intro entry mem
    obtain ⟨participant, same⟩ := quiesces entry mem
    rw [same]
    rfl
  have expected : expectedCalls (up ++ quiet) ((up ++ quiet).map Prod.fst) =
      teardownCalls (completed .onApplicationBootstrap up) (decide (.bind ∈ up.map Prod.fst))
        (completed .onModuleInit up) := by
    rw [map_append, expectedCalls_append other]
    · rfl
    · intro call mem
      obtain ⟨entry, listed, rfl⟩ := mem_map.mp mem
      exact other entry listed
  rw [← append_assoc]
  apply Course.down
  · intro entry mem
    rcases mem_append.mp mem with mem | mem
    · exact early_of_startup (startup entry mem)
    · obtain ⟨participant, same⟩ := quiesces entry mem
      rw [same]
      exact ⟨rfl, nofun⟩
  · rw [expected]
    split at lateCalls
    · rename_i lingering
      obtain ⟨entry, mem, error⟩ := any_eq_true.mp lingering
      obtain ⟨participant, same⟩ := quiesces entry mem
      refine .inr ⟨map_eq_nil_iff.mp lateCalls, participant, entry.2, ?_, of_decide_eq_true error⟩
      rw [← same]
      exact mem_append_right _ mem
    · exact .inl lateCalls

/-- At a call on the way what has been torn down is the beginning of what has to be. The teardown
comes after the drain, and after the drain comes nothing else. -/
structure Partway (trace : List (Call π × Answer π)) (call : Call π) : Prop where
  ordered : (trace.map Prod.fst ++ [call]).filter isTeardown <+:
    expectedCalls trace (trace.map Prod.fst ++ [call])
  drained : (trace.map Prod.fst ++ [call]).filter isTeardown ≠ [] →
    ∃ drained, (.drain, drained) ∈ trace
  late : ∀ drained, (.drain, drained) ∈ trace → isTeardown call = true

variable {trace : List (Call π × Answer π)} {before after : List (Call π × Answer π)} {k : Kernel π}

lemma partway_of_early {call} (early : ∀ entry ∈ trace, Early entry)
    (here : isTeardown call = false) : Partway trace call := by
  have nothing : (trace.map Prod.fst ++ [call]).filter isTeardown = [] := by
    rw [filter_append, teardown_of_early early, nil_append, filter_cons_of_neg]
    · rfl
    · simp [here]
  refine ⟨?_, fun some => absurd nothing some, ?_⟩
  · rw [nothing]
    exact nil_prefix
  · intro drained mem
    exact absurd rfl (early _ mem).2

/-- After the drain, with some of the teardown answered and all of `calls` made. -/
lemma teardown_of_late {early passed : List (Call π × Answer π)} (drained : Answer π)
    {calls : List (Call π)} (before : ∀ entry ∈ early, Early entry)
    (teardown : ∀ call ∈ calls, isTeardown call = true)
    (answered : ∀ entry ∈ passed, entry.1 ∈ calls) :
    (early.map Prod.fst ++ .drain :: calls).filter isTeardown = calls ∧
      expectedCalls (early ++ (.drain, drained) :: passed) (early.map Prod.fst ++ .drain :: calls) =
        expectedCalls early (early.map Prod.fst) := by
  refine ⟨?_, expectedCalls_append ?_ ?_⟩
  · rw [filter_append, teardown_of_early before, nil_append, filter_cons_of_neg]
    · exact filter_eq_self.mpr teardown
    · exact Bool.false_ne_true
  · intro entry mem
    rcases mem_cons.mp mem with rfl | mem
    · rfl
    · exact isStartup_of_isTeardown (teardown _ (answered entry mem))
  · intro call mem
    rcases mem_cons.mp mem with rfl | mem
    · rfl
    · exact isStartup_of_isTeardown (teardown call mem)

lemma partway_of_late {early passed : List (Call π × Answer π)} {drained call rest}
    (before : ∀ entry ∈ early, Early entry)
    (late : passed.map Prod.fst ++ call :: rest = expectedCalls early (early.map Prod.fst)) :
    Partway (early ++ (.drain, drained) :: passed) call := by
  have teardown : ∀ other ∈ passed.map Prod.fst ++ [call], isTeardown other = true := by
    intro other mem
    apply isTeardown_teardownCalls other
    have listed : other ∈ passed.map Prod.fst ++ call :: rest := by
      rw [append_cons]
      exact mem_append_left _ mem
    rw [late] at listed
    exact listed
  obtain ⟨torn, expected⟩ := teardown_of_late drained before teardown
    fun entry mem => mem_append_left _ (mem_map_of_mem mem)
  have calls : (early ++ (.drain, drained) :: passed).map Prod.fst ++ [call] =
      early.map Prod.fst ++ .drain :: (passed.map Prod.fst ++ [call]) := by
    rw [map_append, append_assoc]
    rfl
  refine ⟨?_, ?_, ?_⟩
  · rw [calls, torn, expected, ← late]
    exact ⟨rest, by rw [append_assoc]; rfl⟩
  · exact fun _ => ⟨drained, mem_append_right _ mem_cons_self⟩
  · exact fun _ _ => teardown call (mem_append_right _ mem_cons_self)

lemma Course.partway {rest : List (Call π × Answer π)} {call : Call π} {answer : Answer π}
    (h : Course (trace ++ (call, answer) :: rest)) : Partway trace call := by
  generalize whole : trace ++ (call, answer) :: rest = course at h
  cases h with
  | up startup =>
    subst whole
    obtain ⟨before, after⟩ := forall_mem_append.mp startup
    apply partway_of_early fun entry mem => early_of_startup (before entry mem)
    exact isTeardown_of_isStartup (after _ mem_cons_self)
  | @down early late drained before calls =>
    have whole : trace ++ (call, answer) :: rest = (early ++ [(.drain, drained)]) ++ late := by
      rw [whole, append_assoc]
      rfl
    rcases split_at whole with ⟨_, first⟩ | ⟨passed, rfl, rfl⟩
    · rcases split_at first.symm with ⟨_, rfl⟩ | ⟨passed, rfl, last⟩
      · obtain ⟨before, after⟩ := forall_mem_append.mp before
        exact partway_of_early before (after _ mem_cons_self).1
      cases passed with
      | nil =>
        cases last
        rw [append_nil]
        exact partway_of_early before rfl
      | cons =>
        have short := congrArg List.length last
        simp at short
    · rcases calls with calls | ⟨impossible, -⟩
      · rw [map_append, map_cons] at calls
        rw [append_assoc]
        exact partway_of_late before calls
      · cases (append_eq_nil_iff.mp impossible).2

/-- At the end of its course an application that was torn down has been so completely, unless a
quiesce hook lingers. -/
lemma Course.complete (h : Course trace) :
    (∀ entry ∈ trace, isStartup entry.1 = true) ∨
      ((trace.map Prod.fst).filter isTeardown <+: expectedCalls trace (trace.map Prod.fst) ∧
        (Lingering trace ∨
          (trace.map Prod.fst).filter isTeardown = expectedCalls trace (trace.map Prod.fst)) ∧
        ∃ drained, (.drain, drained) ∈ trace) := by
  cases h with
  | up startup => exact .inl startup
  | @down early late drained before calls =>
    right
    have drain : ∃ answer, (.drain, answer) ∈ early ++ (.drain, drained) :: late :=
      ⟨drained, mem_append_right _ mem_cons_self⟩
    rcases calls with calls | ⟨rfl, participant, answer, mem, lingering⟩
    · have teardown : ∀ other ∈ late.map Prod.fst, isTeardown other = true := by
        rw [calls]
        exact isTeardown_teardownCalls
      obtain ⟨torn, expected⟩ := teardown_of_late drained before teardown
        fun entry mem => mem_map_of_mem mem
      have same : ((early ++ (.drain, drained) :: late).map Prod.fst).filter isTeardown =
          expectedCalls (early ++ (.drain, drained) :: late)
            ((early ++ (.drain, drained) :: late).map Prod.fst) := by
        rw [map_append, map_cons, torn, expected, calls]
      rw [same]
      exact ⟨prefix_refl _, .inr rfl, drain⟩
    · refine ⟨?_, .inl ⟨participant, answer, mem_append_left _ mem, lingering⟩, drain⟩
      rw [map_append, filter_append, teardown_of_early before]
      exact nil_prefix

lemma Started.course {result} (h : Started trace k result) : Course trace := by
  cases h with
  | returned startup => exact .up startup
  | failed whole startup _ tornDown =>
    subst whole
    exact .of_tornDown startup tornDown

lemma Started.course_shutdown (h : Started before k (.ok ()))
    (tornDown : TornDown k.bootstrapped k.bindingAttempted k.moduleInitialized after) :
    Course (before ++ after) := by
  cases h with
  | returned startup _ _ initialized bootstrapped attempted =>
    rw [initialized, bootstrapped, attempted] at tornDown
    exact .of_tornDown startup tornDown

/-! ### The application at any moment -/

def pendingOf {α : Type} : Option (Work π α) → List (Call π)
  | some (.await call _) => [call]
  | _ => []

namespace Sys

/-- The calls that were made, the last ones not answered yet. -/
def calls (sys : Sys π) : List (Call π) :=
  sys.trace.map Prod.fst ++ (pendingOf sys.starting ++ pendingOf sys.shutdownTask)

def teardown (sys : Sys π) : List (Call π) := sys.calls.filter isTeardown

def expected (sys : Sys π) : List (Call π) := expectedCalls sys.trace sys.calls

/-- `start` is not cancelled between the end of a hook and its own next step. -/
def undisturbed (sys : Sys π) : Event π → Bool
  | .answerStart answer =>
    match sys.starting with
    | some (.await call _) => gapless call answer
    | _ => true
  | _ => true

end Sys

def Gapless (trace : List (Call π × Answer π)) : Prop :=
  ∀ entry ∈ trace, gapless entry.1 entry.2 = true

def Kernel.stopping (k : Kernel π) : Kernel π :=
  { k with state := .stopping, requestAdmissionOpen := false }

/-- The phases of an application. -/
inductive Phase (env : Env π) (sys : Sys π) : Prop
  | compiled : sys.kernel = {} → sys.starting = none → sys.shutdownTask = none → sys.trace = [] →
    sys.outcome = none → sys.reports = [] → Phase env sys
  | starting {call : Call π} {next : Answer π → Work π Unit} :
    sys.starting = some (.await call next) → sys.shutdownTask = none → sys.outcome = none →
    sys.reports = [] →
    Task.Continues (start env) { state := .starting } sys.trace (.await call next) sys.kernel →
    Task.Pauses (WaitsIn .starting) (.await call next) sys.kernel →
    Gapless sys.trace → Phase env sys
  | ended {result : Except Failure Unit} : sys.starting = none → sys.shutdownTask = none →
    sys.outcome = some result → sys.reports = [] → Started sys.trace sys.kernel result →
    Phase env sys
  | requested {mid : Kernel π} : sys.starting = none → sys.shutdownTask = some runShutdown →
    sys.outcome = some (.ok ()) → sys.reports = [] → Started sys.trace mid (.ok ()) →
    sys.kernel = mid.stopping → Phase env sys
  | stopping {call : Call π} {next : Answer π → Work π (Option Failure)} {mid : Kernel π}
      {before after : List (Call π × Answer π)} :
    sys.starting = none → sys.shutdownTask = some (.await call next) →
    sys.outcome = some (.ok ()) → sys.reports = [] → sys.trace = before ++ after →
    Started before mid (.ok ()) →
    Task.Continues runShutdown mid.stopping after (.await call next) sys.kernel →
    Task.Pauses (WaitsIn .stopping) (.await call next) sys.kernel → Phase env sys
  | stopped {mid : Kernel π} {before after : List (Call π × Answer π)} :
    sys.starting = none → sys.shutdownTask = none → sys.outcome = some (.ok ()) →
    (∀ report ∈ sys.reports, report = firstError after) → sys.trace = before ++ after →
    Started before mid (.ok ()) →
    runShutdown.Runs mid.stopping after (.ok (firstError after)) sys.kernel → Phase env sys

/-- What holds of an application at any moment. -/
structure Paired (env : Env π) (sys : Sys π) : Prop where
  /-- The teardown is in order, and nothing is torn down twice. -/
  ordered : sys.teardown <+: sys.expected
  /-- The teardown is complete, unless a quiesce hook lingers. -/
  complete : sys.kernel.state = .failed ∨ sys.kernel.state = .stopped →
    Lingering sys.trace ∨ sys.teardown = sys.expected
  /-- No scope is opened during the teardown. -/
  closed : sys.teardown ≠ [] → ∀ kind, sys.admits kind = false
  /-- Without a timeout no scope is active during the teardown. -/
  drained : sys.teardown ≠ [] → env.shutdownTimeout = none → sys.active = []
  /-- The callers of `shutdown` are told the first failure. -/
  reports : ∀ report ∈ sys.reports, report = firstError sys.trace
  /-- `start` raises its own error, which is the first failure as well. -/
  outcome : ∀ error, sys.outcome = some (.error error) → firstError sys.trace = some error

variable {sys : Sys π} {env : Env π} {call : Call π} {next : Answer π → Work π (Option Failure)}
  {task : Work π (Option Failure)} {sys' : Sys π}

lemma partway_start (ordered : Ordered env.graph) {trace : List (Call π × Answer π)}
    {next : Answer π → Work π Unit}
    (continues : Task.Continues (start env) { state := .starting } trace (.await call next) k)
    (clean : Gapless trace) : Partway trace call := by
  obtain ⟨_, _, _, run, follows⟩ := continues.exists_run fun _ => ⟨.ok env.pyNone, true⟩
  refine (start_runs ordered run ?_).course.partway
  refine forall_mem_append.mpr ⟨clean, forall_mem_cons.mpr ⟨gapless_ok _ _, ?_⟩⟩
  intro entry mem
  rw [follows entry mem]
  exact gapless_ok _ _

lemma partway_shutdown (env : Env π) {k mid} (startup : Started before mid (.ok ()))
    (continues : Task.Continues runShutdown mid.stopping after (.await call next) k) :
    Partway (before ++ after) call := by
  obtain ⟨_, _, _, run, -⟩ := continues.exists_run fun _ => ⟨.ok env.pyNone, true⟩
  obtain ⟨tornDown, -⟩ := runShutdown_runs run
  have course := startup.course_shutdown tornDown
  rw [← append_assoc] at course
  exact course.partway

/-- What a phase says about the teardown. -/
structure Torn (sys : Sys π) : Prop where
  ordered : sys.teardown <+: sys.expected
  complete : sys.kernel.state = .failed ∨ sys.kernel.state = .stopped →
    Lingering sys.trace ∨ sys.teardown = sys.expected
  drained : sys.teardown ≠ [] → ∃ drained, (.drain, drained) ∈ sys.trace
  closed : ∀ drained, (.drain, drained) ∈ sys.trace → sys.kernel.Closed

lemma torn_of_partway {state} (partway : Partway sys.trace call)
    (calls : sys.calls = sys.trace.map Prod.fst ++ [call]) (waits : WaitsIn state sys.kernel call)
    (busy : state ≠ .failed ∧ state ≠ .stopped) : Torn sys := by
  refine ⟨?_, ?_, ?_, ?_⟩
  · rw [Sys.teardown, Sys.expected, calls]
    exact partway.ordered
  · rw [waits.1]
    rintro (ended | ended)
    · exact absurd ended busy.1
    · exact absurd ended busy.2
  · rw [Sys.teardown, calls]
    exact partway.drained
  · intro drained mem
    exact waits.2 (partway.late drained mem)

lemma torn_of_startup (startup : ∀ entry ∈ sys.trace, isStartup entry.1 = true)
    (calls : sys.calls = sys.trace.map Prod.fst)
    (busy : sys.kernel.state ≠ .failed ∧ sys.kernel.state ≠ .stopped) : Torn sys := by
  have nothing : sys.teardown = [] := by
    rw [Sys.teardown, calls]
    exact teardown_of_early fun entry mem => early_of_startup (startup entry mem)
  refine ⟨?_, ?_, ?_, ?_⟩
  · rw [nothing]
    exact nil_prefix
  · rintro (ended | ended)
    · exact absurd ended busy.1
    · exact absurd ended busy.2
  · exact fun something => absurd nothing something
  · intro drained mem
    cases startup _ mem

lemma torn_of_complete (course : Course sys.trace) (calls : sys.calls = sys.trace.map Prod.fst)
    (closed : sys.kernel.Closed) (drained : ∃ drained, (.drain, drained) ∈ sys.trace) :
    Torn sys := by
  rcases course.complete with startup | ⟨ordered, complete, -⟩
  · obtain ⟨drained, mem⟩ := drained
    cases startup _ mem
  refine ⟨?_, fun _ => ?_, fun _ => drained, fun _ _ => closed⟩
  · rw [Sys.teardown, Sys.expected, calls]
    exact ordered
  · rw [Sys.teardown, Sys.expected, calls]
    exact complete

lemma Phase.torn (ordered : Ordered env.graph) (h : Phase env sys) : Torn sys := by
  cases h with
  | compiled kernel starting shutdownTask trace =>
    apply torn_of_startup
    · rw [trace]
      exact nofun
    · rw [Sys.calls, starting, shutdownTask]
      exact append_nil _
    · rw [kernel]
      exact ⟨nofun, nofun⟩
  | starting starting shutdownTask _ _ continues pauses clean =>
    apply torn_of_partway (partway_start ordered continues clean) _ pauses.1 ⟨nofun, nofun⟩
    rw [Sys.calls, starting, shutdownTask]
    rfl
  | ended starting shutdownTask _ _ startup =>
    have calls : sys.calls = sys.trace.map Prod.fst := by
      rw [Sys.calls, starting, shutdownTask]
      exact append_nil _
    have course := startup.course
    cases startup with
    | returned startup _ state =>
      apply torn_of_startup startup calls
      rw [state]
      exact ⟨nofun, nofun⟩
    | failed whole _ _ tornDown _ request work =>
      obtain ⟨drained, mem⟩ := tornDown.drained
      apply torn_of_complete course calls ⟨request, work⟩
      rw [whole]
      exact ⟨drained, mem_append_right _ mem⟩
  | requested starting shutdownTask _ _ startup kernel =>
    cases startup with
    | returned startup =>
      apply torn_of_startup startup
      · rw [Sys.calls, starting, shutdownTask]
        exact append_nil _
      · rw [kernel]
        exact ⟨nofun, nofun⟩
  | stopping starting shutdownTask _ _ trace startup continues pauses =>
    apply torn_of_partway _ _ pauses.1 ⟨nofun, nofun⟩
    · rw [trace]
      exact partway_shutdown env startup continues
    · rw [Sys.calls, starting, shutdownTask]
      rfl
  | stopped starting shutdownTask _ _ trace startup run =>
    obtain ⟨tornDown, -, -, request, work⟩ := runShutdown_runs run
    obtain ⟨drained, mem⟩ := tornDown.drained
    apply torn_of_complete _ _ ⟨request, work⟩
    · rw [trace]
      exact ⟨drained, mem_append_right _ mem⟩
    · rw [trace]
      exact startup.course_shutdown tornDown
    · rw [Sys.calls, starting, shutdownTask]
      exact append_nil _

/-! ### Steps -/

lemma phase_goStart (ordered : Ordered env.graph) {task : Work π Unit}
    (shutdownTask : sys.shutdownTask = none) (outcome : sys.outcome = none)
    (reports : sys.reports = [])
    (continues : Task.Continues (start env) { state := .starting } sys.trace task sys.kernel)
    (pauses : task.Pauses (WaitsIn .starting) sys.kernel) (clean : Gapless sys.trace) :
    Phase env (sys.goStart task) := by
  have continues := continues.advance
  have pauses := pauses.advance
  have stops := task.advance_stops sys.kernel
  unfold Sys.goStart
  generalize task.advance sys.kernel = ahead at continues pauses stops
  obtain ⟨_, k⟩ := ahead
  rcases stops with ⟨_, same⟩ | ⟨_, _, same⟩
  · cases same
    exact .ended rfl shutdownTask rfl reports (start_runs ordered continues.runs clean)
  · cases same
    exact .starting rfl shutdownTask outcome reports continues pauses clean

lemma phase_goShutdown {mid} (starting : sys.starting = none)
    (outcome : sys.outcome = some (.ok ())) (reports : sys.reports = [])
    (trace : sys.trace = before ++ after) (startup : Started before mid (.ok ()))
    (continues : Task.Continues runShutdown mid.stopping after task sys.kernel)
    (pauses : task.Pauses (WaitsIn .stopping) sys.kernel) : Phase env (sys.goShutdown task) := by
  have continues := continues.advance
  have pauses := pauses.advance
  have stops := task.advance_stops sys.kernel
  unfold Sys.goShutdown
  generalize task.advance sys.kernel = ahead at continues pauses stops
  obtain ⟨_, k⟩ := ahead
  rcases stops with ⟨_, same⟩ | ⟨_, _, same⟩
  · cases same
    have run := continues.runs
    obtain ⟨-, same, -⟩ := runShutdown_runs run
    cases same
    refine .stopped starting rfl outcome ?_ trace startup run
    intro report mem
    rw [reports] at mem
    exact eq_of_mem_replicate mem
  · cases same
    exact .stopping starting rfl outcome reports trace startup continues pauses

lemma Phase.frame (h : Phase env sys) (kernel : sys'.kernel = sys.kernel)
    (starting : sys'.starting = sys.starting) (outcome : sys'.outcome = sys.outcome)
    (shutdownTask : sys'.shutdownTask = sys.shutdownTask) (reports : sys'.reports = sys.reports)
    (trace : sys'.trace = sys.trace) : Phase env sys' := by
  obtain ⟨_, _, _, _, _, _, _, _, _⟩ := sys
  obtain ⟨_, _, _, _, _, _, _, _, _⟩ := sys'
  cases kernel
  cases starting
  cases outcome
  cases shutdownTask
  cases reports
  cases trace
  cases h with
  | compiled h₁ h₂ h₃ h₄ h₅ h₆ => exact .compiled h₁ h₂ h₃ h₄ h₅ h₆
  | starting h₁ h₂ h₃ h₄ h₅ h₆ h₇ => exact .starting h₁ h₂ h₃ h₄ h₅ h₆ h₇
  | ended h₁ h₂ h₃ h₄ h₅ => exact .ended h₁ h₂ h₃ h₄ h₅
  | requested h₁ h₂ h₃ h₄ h₅ h₆ => exact .requested h₁ h₂ h₃ h₄ h₅ h₆
  | stopping h₁ h₂ h₃ h₄ h₅ h₆ h₇ h₈ => exact .stopping h₁ h₂ h₃ h₄ h₅ h₆ h₇ h₈
  | stopped h₁ h₂ h₃ h₄ h₅ h₆ h₇ => exact .stopped h₁ h₂ h₃ h₄ h₅ h₆ h₇

lemma Phase.not_started (h : Phase env sys) (state : sys.kernel.state = .compiled) :
    sys.kernel = {} ∧ sys.trace = [] ∧ sys.shutdownTask = none ∧ sys.outcome = none ∧
      sys.reports = [] := by
  cases h with
  | compiled kernel _ shutdownTask trace outcome reports =>
    exact ⟨kernel, trace, shutdownTask, outcome, reports⟩
  | starting _ _ _ _ _ pauses | stopping _ _ _ _ _ _ _ pauses =>
    cases state.symm.trans pauses.1.1
  | ended _ _ _ _ startup =>
    cases startup with
    | returned _ _ other | failed _ _ _ _ other => cases state.symm.trans other
  | requested _ _ _ _ _ kernel =>
    rw [kernel] at state
    cases state
  | stopped _ _ _ _ _ _ run =>
    obtain ⟨-, -, other, -⟩ := runShutdown_runs run
    cases state.symm.trans other

lemma Phase.running (h : Phase env sys) (state : sys.kernel.state = .started) :
    sys.starting = none ∧ sys.outcome = some (.ok ()) ∧ sys.reports = [] ∧
      Started sys.trace sys.kernel (.ok ()) := by
  cases h with
  | compiled kernel | requested _ _ _ _ _ kernel =>
    rw [kernel] at state
    cases state
  | starting _ _ _ _ _ pauses | stopping _ _ _ _ _ _ _ pauses =>
    cases state.symm.trans pauses.1.1
  | ended starting _ outcome reports startup =>
    cases startup with
    | returned h₁ h₂ h₃ h₄ h₅ h₆ =>
      exact ⟨starting, outcome, reports, .returned h₁ h₂ h₃ h₄ h₅ h₆⟩
    | failed _ _ _ _ other => cases state.symm.trans other
  | stopped _ _ _ _ _ _ run =>
    obtain ⟨-, -, other, -⟩ := runShutdown_runs run
    cases state.symm.trans other

lemma Phase.shutdown (h : Phase env sys) : Phase env sys.shutdown := by
  unfold Sys.shutdown
  split
  · exact h
  · split
    · exact h.frame rfl rfl rfl rfl rfl rfl
    · exact h.frame rfl rfl rfl rfl rfl rfl
  · rename_i state
    obtain ⟨starting, outcome, reports, startup⟩ := h.running state
    exact .requested starting rfl outcome reports startup rfl
  · exact h.frame rfl rfl rfl rfl rfl rfl

lemma Phase.answerStart (ordered : Ordered env.graph) {next : Answer π → Work π Unit}
    {answer : Answer π} (h : Phase env sys) (waits : sys.starting = some (.await call next))
    (clean : gapless call answer = true) :
    Phase env ({ sys with trace := sys.trace ++ [(call, answer)] }.goStart (next answer)) := by
  cases h with
  | starting starting shutdownTask outcome reports continues pauses before =>
    cases Option.some.inj (starting.symm.trans waits)
    refine phase_goStart ordered ?_ ?_ ?_ (continues.answer answer) (pauses.2 answer) ?_
    · exact shutdownTask
    · exact outcome
    · exact reports
    · exact forall_mem_append.mpr ⟨before, forall_mem_singleton.mpr clean⟩
  | compiled _ starting | ended starting | requested starting | stopping starting
  | stopped starting => cases starting.symm.trans waits

lemma Phase.runShutdown (h : Phase env sys) (there : sys.shutdownTask = some task)
    (fresh : ∀ call next, task ≠ .await call next) : Phase env (sys.goShutdown task) := by
  cases h with
  | requested starting shutdownTask outcome reports startup kernel =>
    cases Option.some.inj (shutdownTask.symm.trans there)
    apply phase_goShutdown starting outcome reports (append_nil _).symm startup
    · rw [kernel]
      exact Task.Continues.refl _ _
    · rw [kernel]
      exact pauses_runShutdown rfl rfl
  | stopping _ shutdownTask =>
    exact absurd (Option.some.inj (there.symm.trans shutdownTask)) (fresh _ _)
  | compiled _ _ shutdownTask | starting _ shutdownTask | ended _ shutdownTask
  | stopped _ shutdownTask => cases shutdownTask.symm.trans there

lemma Phase.answerShutdown (h : Phase env sys) (waits : sys.shutdownTask = some (.await call next))
    (answer : Answer π) :
    Phase env ({ sys with trace := sys.trace ++ [(call, answer)] }.goShutdown (next answer)) := by
  cases h with
  | stopping starting shutdownTask outcome reports trace startup continues pauses =>
    cases Option.some.inj (shutdownTask.symm.trans waits)
    refine phase_goShutdown ?_ ?_ ?_ ?_ startup (continues.answer answer) (pauses.2 answer)
    · exact starting
    · exact outcome
    · exact reports
    · exact (congrArg (· ++ _) trace).trans (append_assoc _ _ _)
  | requested _ shutdownTask =>
    -- The shutdown task reads the kernel before it waits for anything.
    cases Option.some.inj (shutdownTask.symm.trans waits)
  | compiled _ _ shutdownTask | starting _ shutdownTask | ended _ shutdownTask
  | stopped _ shutdownTask => cases shutdownTask.symm.trans waits

lemma Phase.step (ordered : Ordered env.graph) {event} (h : Phase env sys)
    (drained : Drained env sys) (undisturbed : sys.undisturbed event = true)
    (st : sys.step env event = some sys') : Phase env sys' ∧ Drained env sys' := by
  cases event with
  | start =>
    simp only [Sys.step] at st
    split at st
    · rename_i state
      cases st
      refine ⟨?_, drained.frame (Sys.goStart_frame _ _)⟩
      obtain ⟨kernel, trace, shutdownTask, outcome, reports⟩ := h.not_started state
      refine phase_goStart ordered ?_ ?_ ?_ ?_ ?_ ?_
      · exact shutdownTask
      · exact outcome
      · exact reports
      · rw [kernel, trace]
        exact Task.Continues.refl _ _
      · rw [kernel]
        exact pauses_start env
      · rw [trace]
        exact nofun
    · cases st
      exact ⟨h.frame rfl rfl rfl rfl rfl rfl, drained⟩
  | answerStart answer =>
    simp only [Sys.step] at st
    split at st
    · rename_i call next waits
      split at st
      · rename_i answered
        cases st
        simp only [Sys.undisturbed, waits] at undisturbed
        exact ⟨h.answerStart ordered waits undisturbed,
          (drained.answer answered).frame (Sys.goStart_frame _ _)⟩
      · cases st
    · cases st
  | shutdown =>
    cases st
    exact ⟨h.shutdown, drained.frame sys.shutdown_frame⟩
  | runShutdown =>
    simp only [Sys.step] at st
    split at st
    · cases st
    · rename_i task fresh there
      cases st
      refine ⟨h.runShutdown there ?_, drained.frame (sys.goShutdown_frame _)⟩
      exact fun call next same => fresh call next same
    · cases st
  | answerShutdown answer =>
    simp only [Sys.step] at st
    split at st
    · rename_i call next waits
      split at st
      · rename_i answered
        cases st
        exact ⟨h.answerShutdown waits answer,
          (drained.answer answered).frame (Sys.goShutdown_frame _ _)⟩
      · cases st
    · cases st
  | openScope kind scope =>
    simp only [Sys.step] at st
    split at st
    · rename_i admitted
      cases st
      refine ⟨h.frame rfl rfl rfl rfl rfl rfl, ?_⟩
      intro timeout drained mem
      -- The teardown has begun, so the scope is not admitted.
      obtain ⟨request, work⟩ := (h.torn ordered).closed drained mem
      rw [Bool.and_eq_true] at admitted
      cases kind with
      | request => cases request.symm.trans admitted.1
      | work => cases work.symm.trans admitted.1
    · cases st
  | closeScope scope =>
    simp only [Sys.step] at st
    split at st
    · cases st
      refine ⟨h.frame rfl rfl rfl rfl rfl rfl, ?_⟩
      intro timeout answer mem
      show sys.active.erase scope = []
      rw [drained timeout answer mem]
      rfl
    · cases st

/-! ### What an application does in any run -/

lemma Phase.reports_first (h : Phase env sys) :
    ∀ report ∈ sys.reports, report = firstError sys.trace := by
  have nothing : sys.reports = [] → ∀ report ∈ sys.reports, report = firstError sys.trace := by
    intro none report mem
    rw [none] at mem
    cases mem
  cases h with
  | compiled _ _ _ _ _ reports | starting _ _ _ reports | ended _ _ _ reports
  | requested _ _ _ reports | stopping _ _ _ reports => exact nothing reports
  | stopped _ _ _ reports trace startup =>
    intro report mem
    rw [reports report mem, trace, firstError_append]
    cases startup with
    | returned _ clean =>
      rw [clean]
      rfl

lemma Phase.outcome_first (h : Phase env sys) {error}
    (failed : sys.outcome = some (.error error)) : firstError sys.trace = some error := by
  cases h with
  | compiled _ _ _ _ outcome | starting _ _ outcome
  | requested _ _ outcome | stopping _ _ outcome | stopped _ _ outcome =>
    cases outcome.symm.trans failed
  | ended _ _ outcome _ startup =>
    cases Option.some.inj (outcome.symm.trans failed)
    cases startup with
    | failed whole _ first =>
      rw [whole, firstError_append, first]
      rfl

lemma Phase.paired (ordered : Ordered env.graph) (h : Phase env sys) (drained : Drained env sys) :
    Paired env sys := by
  have torn := h.torn ordered
  refine ⟨torn.ordered, torn.complete, ?_, ?_, h.reports_first, fun error => h.outcome_first⟩
  · intro begun kind
    obtain ⟨answer, mem⟩ := torn.drained begun
    obtain ⟨request, work⟩ := torn.closed answer mem
    cases kind with
    | request => exact request
    | work => exact work
  · intro begun timeout
    obtain ⟨answer, mem⟩ := torn.drained begun
    exact drained timeout answer mem

/-- The hooks of an application are paired at every moment of every run in which `start` is not
cancelled between the end of a hook and its own next step. -/
theorem lifecycle_paired (program : Program) (depth : Nat) (root : ModuleImport) (env : Env π)
    (compiled : compileGraph program depth root = .ok env.graph) (sys : Sys π)
    (reach : Reach (Sys.step env) (fun sys event => sys.undisturbed event = true) {} sys) :
    Paired env sys := by
  have ordered : Ordered env.graph := by
    obtain ⟨⟨_, _⟩, -, h⟩ := bind_ok.mp compiled
    obtain ⟨_, -, h⟩ := bind_ok.mp h
    exact (finish_ok h).ordered
  have sound : Phase env sys ∧ Drained env sys := by
    apply reach.invariant (I := fun sys => Phase env sys ∧ Drained env sys)
    · refine ⟨.compiled rfl rfl rfl rfl rfl rfl, ?_⟩
      intro timeout drained mem
      cases mem
    · intro sys event sys' ⟨phase, drained⟩ undisturbed st
      exact phase.step ordered drained undisturbed st
  exact sound.1.paired ordered sound.2

end

/-! ### A module whose hooks fail -/

def workerProgram : Program where
  metadata _ := .ok {}
  materialize _ := .ok {}

def workerGraph : CompiledGraph :=
  (compileGraph workerProgram 1 (.static ⟨50, "WorkerModule"⟩)).toOption.getD
    ⟨⟨⟨50, "WorkerModule"⟩, none⟩, [], [], [], []⟩

def workerEnv : Env Nat where
  graph := workerGraph
  pyNone := 0
  isGraphValidator _ := false

lemma worker_compiles :
    compileGraph workerProgram 1 (.static ⟨50, "WorkerModule"⟩) = .ok workerGraph := by
  have compiled : (compileGraph workerProgram 1
      (.static ⟨50, "WorkerModule"⟩)).toOption.isSome = true := by
    decide +kernel
  obtain ⟨_, found⟩ := Option.isSome_iff_exists.mp compiled
  rw [workerGraph, found]
  exact ok_of_toOption found

def returned (value : Nat) : Answer Nat := ⟨.ok value, true⟩

/-- The bootstrap hook of the module raises, so the binder is closed and the module destroyed. -/
def bootstrapFails : List (Event Nat) :=
  [.start, .answerStart (returned 1), .answerStart (returned 0), .answerStart (returned 0),
    .answerStart ⟨.error (.raised 7), false⟩, .answerStart (returned 0), .answerStart (returned 0),
    .answerStart (returned 0), .answerStart (returned 0)]

/-- `start` is cancelled when the init hook of the module has ended. -/
def cancelledLate : List (Event Nat) :=
  [.start, .answerStart (returned 1), .answerStart ⟨.error .cancelled, true⟩,
    .answerStart (returned 0), .answerStart (returned 0)]

theorem worker_torn_down :
    ∃ sys, execBy (Sys.step workerEnv) Sys.undisturbed {} bootstrapFails = some sys ∧
      sys.teardown = [.closeBinder, .hook .onModuleDestroy 1, .closeResources] ∧
      sys.kernel.state = .failed ∧ Paired workerEnv sys := by
  have run : (execBy (Sys.step workerEnv) Sys.undisturbed {} bootstrapFails).map
      (fun sys => (sys.teardown, sys.kernel.state)) =
      some ([.closeBinder, .hook .onModuleDestroy 1, .closeResources], .failed) := by
    decide +kernel
  obtain ⟨sys, run, same⟩ := Option.map_eq_some_iff.mp run
  refine ⟨sys, run, congrArg Prod.fst same, congrArg Prod.snd same, ?_⟩
  exact lifecycle_paired workerProgram 1 (.static ⟨50, "WorkerModule"⟩) workerEnv worker_compiles sys
    (Reach.of_execBy (fun _ _ h => h) .refl run)

/-- The module has been initialized and is never destroyed. -/
theorem worker_not_destroyed :
    ∃ sys, Reachable (Sys.step workerEnv) {} sys ∧ sys.kernel.state = .failed ∧
      completed .onModuleInit sys.trace = [1] ∧ sys.teardown = [.closeResources] ∧
      ¬ Paired workerEnv sys := by
  have run : (exec (Sys.step workerEnv) {} cancelledLate).map
      (fun sys => (sys.kernel.state, completed .onModuleInit sys.trace, sys.teardown,
        decide (sys.teardown <+: sys.expected))) =
      some (.failed, [1], [.closeResources], false) := by
    decide +kernel
  obtain ⟨sys, run, same⟩ := Option.map_eq_some_iff.mp run
  refine ⟨sys, Reach.of_exec .refl run, congrArg (·.1) same, congrArg (·.2.1) same,
    congrArg (·.2.2.1) same, ?_⟩
  intro paired
  exact of_decide_eq_false (congrArg (·.2.2.2) same) paired.ordered

end ToriPy.Core.Lifecycle
