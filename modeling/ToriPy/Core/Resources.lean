import ToriPy.Core.Rollback

/-!
# Resources of a scope

A request or work scope that is used by its owner: any resolutions, one after the other, with any
constructor, entry or exit failing, and the cleanup at the end. The records of the scope are the
resources that are open, in the order in which they were entered. A resolution that fails leaves the
records and the cache as they were, and a value in the cache has its resource among the records.

Whether the records tell the truth is another question. A synchronous `__enter__` runs in a worker
thread, and an owner that is cancelled while it waits goes on without a record although the entry
completes. An exit of a rollback is a task that the cancelled owner takes down with it, even before it
began. `scope_resources` says that nothing else goes wrong: where no cancellation falls into these
two gaps, what was entered is exited once, in reverse order, before the cleanup ends.
-/

namespace ToriPy.Core

open List

variable {β : Type} {before after : List (Call β × Answer β)}

/-! ### Answers -/

def Answer.Returned (answer : Answer β) : Prop := ∃ value, answer.result = .ok value

def Answer.Cancelled (answer : Answer β) : Prop :=
  ∃ error, answer.result = .error error ∧ error.isCancellation = true

/-- What an answer can be. Only a caller that is cancelled is not told what becomes of the call: of
an entry in a worker thread, and of an exit that it awaits itself. -/
def Possible : Call β → Answer β → Prop
  | .invoke .., _ => True
  | .enter _ _ kind _, answer => (answer.Returned → answer.happened = true) ∧
      (answer.happened = true → answer.Returned ∨ kind = .synchronous ∧ answer.Cancelled)
  | .exit _ shielded _, answer => answer.happened = true ∨ shielded = false ∧ answer.Cancelled

/-- No cancellation comes between a call and its record. -/
def Undisturbed : Call β → Answer β → Prop
  | .invoke .., _ => True
  | .enter .., answer => answer.Cancelled → answer.happened = false
  | .exit .., answer => answer.Cancelled → answer.happened = true

/-- The answers of a run in which no cancellation falls into a gap. -/
def Clean (trace : List (Call β × Answer β)) : Prop :=
  ∀ entry ∈ trace, Possible entry.1 entry.2 ∧ Undisturbed entry.1 entry.2

lemma clean_append : Clean (before ++ after) ↔ Clean before ∧ Clean after :=
  forall_mem_append

/-! ### Open resources -/

/-- A call that leaves the resources of the scope alone. -/
def Silent : Call β × Answer β → Prop
  | (.enter .request .., answer) => answer.happened = false
  | (.exit .request .., answer) => answer.happened = false
  | _ => True

/-- The resources that are open before and after a trace: an entry opens one, and an exit closes the
last one. -/
inductive Bracketed : List (ProviderRef × β) → List (Call β × Answer β) →
    List (ProviderRef × β) → Prop
  | nil {stack : List (ProviderRef × β)} : Bracketed stack [] stack
  | enter {stack stack' : List (ProviderRef × β)} {trace : List (Call β × Answer β)}
      {ref : ProviderRef} {kind : ManagerKind} {manager : β} {answer : Answer β} :
    answer.happened = true → Bracketed ((ref, manager) :: stack) trace stack' →
    Bracketed stack ((.enter .request ref kind manager, answer) :: trace) stack'
  | exit {stack stack' : List (ProviderRef × β)} {trace : List (Call β × Answer β)}
      {shielded : Bool} {record : Record β} {answer : Answer β} :
    answer.happened = true → Bracketed stack trace stack' →
    Bracketed ((record.ref, record.manager) :: stack)
      ((.exit .request shielded record, answer) :: trace) stack'
  | skip {stack stack' : List (ProviderRef × β)} {trace : List (Call β × Answer β)}
      {entry : Call β × Answer β} : Silent entry → Bracketed stack trace stack' →
    Bracketed stack (entry :: trace) stack'

lemma Bracketed.trans {stack stack' stack''} (h : Bracketed stack before stack')
    (h' : Bracketed stack' after stack'') : Bracketed stack (before ++ after) stack'' := by
  induction h with
  | nil => exact h'
  | enter happened _ ih => exact .enter happened (ih h')
  | exit happened _ ih => exact .exit happened (ih h')
  | skip silent _ ih => exact .skip silent (ih h')

lemma Bracketed.of_nil {stack stack' : List (ProviderRef × β)} (h : Bracketed stack [] stack') :
    stack' = stack := by
  cases h
  rfl

/-- The resources that the records of the scope stand for. -/
def opened (store : Store β) : List (ProviderRef × β) :=
  store.request.records.map fun record => (record.ref, record.manager)

/-- The records tell the truth along a clean trace. -/
def Balanced (s : Store β) (trace : List (Call β × Answer β)) (s' : Store β) : Prop :=
  Clean trace → Bracketed (opened s) trace (opened s')

lemma balanced_path : Task.Path (Balanced (β := β)) where
  refl _ _ := .nil
  trans first rest clean := by
    obtain ⟨before, after⟩ := clean_append.mp clean
    exact (first before).trans (rest after)

variable {trace : List (Call β × Answer β)} {s s' : Store β} {env : Env β}

lemma balanced_of_records (h : s'.request.records = s.request.records) : Balanced s [] s' := by
  intro _
  rw [opened, opened, h]
  exact .nil

lemma balanced_enterManager (owner : ScopeKind) (ref : ProviderRef) (kind : ManagerKind)
    (value : β) : Task.Along Balanced (enterManager owner ref kind value) := by
  intro s trace result s' run clean
  obtain ⟨answer, _, rfl, outcome⟩ := perform_then run
  have here := clean (.enter owner ref kind value, answer) mem_cons_self
  rcases outcome with ⟨entered, returned, run⟩ | ⟨_, failed, rfl, rfl, rfl⟩
  · have happened : answer.happened = true := here.1.1 ⟨entered, returned⟩
    cases run.read_then.modify_then
    cases owner with
    | application => exact .skip trivial .nil
    | request => exact .enter happened .nil
  · -- The entry failed: there is no record, and nothing was entered.
    have nothing : answer.happened = false := by
      cases happened : answer.happened with
      | false => rfl
      | true =>
        rcases here.1.2 happened with ⟨v, returned⟩ | ⟨-, cancelled⟩
        · cases failed.symm.trans returned
        · exact happened.symm.trans (here.2 cancelled)
    refine .skip ?_ .nil
    cases owner with
    | application => trivial
    | request => exact nothing

lemma balanced_closeRecords (env : Env β) (owner : ScopeKind) (shielded : Bool) (mark rounds : Nat)
    (errors : List Failure) :
    Task.Along Balanced (closeRecords env owner shielded mark rounds errors) := by
  induction rounds generalizing errors with
  | zero => exact .ret balanced_path _
  | succ rounds ih =>
    intro s trace result s' run
    have run := run.read_then
    split at run
    · exact Task.Along.ret balanced_path _ _ _ _ _ run
    rename_i record rest records
    split at run
    · exact Task.Along.ret balanced_path _ _ _ _ _ run
    obtain ⟨answer, _, rfl, others⟩ := run.modify_then.call_then
    intro clean
    have here := clean (.exit owner shielded record, answer) mem_cons_self
    have happened : answer.happened = true := by
      rcases here.1 with happened | ⟨-, cancelled⟩
      · exact happened
      · exact here.2 cancelled
    have after := ih _ _ _ _ _ others (fun entry mem => clean entry (mem_cons_of_mem _ mem))
    cases owner with
    | application => exact .skip trivial after
    | request =>
      have now : opened s = (record.ref, record.manager) :: opened (s.update .request
          fun state => { state with records := rest }) := by
        have records : s.request.records = record :: rest := records
        rw [opened, records]
        rfl
      rw [now]
      exact .exit happened after

lemma balanced_follows (env : Env β) (owner : ScopeKind) : Follows env Balanced owner where
  path := balanced_path
  invokes _ _ _ _ _ _ := .skip trivial .nil
  enters := balanced_enterManager owner
  closes := balanced_closeRecords env owner false
  caches _ _ := by
    apply balanced_of_records
    cases owner with
    | application | request => rfl

lemma balanced_resolveRef (env : Env β) (fuel : Nat) (scope : ScopeKind) (ref : ProviderRef) :
    Task.Along Balanced (resolveRef env fuel scope ref) := by
  apply along_resolveRef balanced_path (P := fun _ => True) trivial
  · exact fun _ => (balanced_follows env _).construct
  · exact fun _ => (balanced_follows env _).resolveCached
  · trivial

lemma balanced_useScope (env : Env β) (fuel : Nat) (refs : List ProviderRef) :
    Task.Along Balanced (useScope env fuel refs) := by
  induction refs with
  | nil => exact .ret balanced_path _
  | cons ref refs ih =>
    apply Task.Along.bind balanced_path (.attempt (balanced_resolveRef env fuel .request ref))
    intro result
    exact .bind balanced_path ih fun _ => .ret balanced_path _

/-! ### Failures -/

lemma untouched_follows (env : Env β) :
    Follows env (fun s _ s' => s'.request = s.request) .application where
  path := ⟨fun _ => rfl, fun first rest => rest.trans first⟩
  invokes _ _ _ _ _ := rfl
  enters ref kind value := by
    intro s trace result s' run
    obtain ⟨answer, rest, rfl, outcome⟩ := perform_then run
    rcases outcome with ⟨_, -, run⟩ | ⟨_, -, -, -, rfl⟩
    · cases run.read_then.modify_then
      rfl
    · rfl
  closes mark rounds errors := by
    induction rounds generalizing errors with
    | zero => exact .ret ⟨fun _ => rfl, fun first rest => rest.trans first⟩ _
    | succ rounds ih =>
      intro s trace result s' run
      have run := run.read_then
      split at run
      · cases run
        rfl
      split at run
      · cases run
        rfl
      · obtain ⟨_, _, rfl, others⟩ := run.modify_then.call_then
        have same := ih _ _ _ _ _ others
        exact same
  caches _ _ := rfl

lemma untouched_resolveRef (env : Env β) (fuel : Nat) (ref : ProviderRef) :
    Task.Along (fun s _ s' => s'.request = s.request) (resolveRef env fuel .application ref) := by
  apply along_resolveRef (untouched_follows env).path (P := (· = .application)) rfl
  · intro resolve owner application resolves
    subst application
    exact (untouched_follows env).construct resolves
  · intro resolve owner application resolves
    subst application
    exact (untouched_follows env).resolveCached resolves
  · rfl

lemma resolveRef_failed {fuel ref error}
    (run : (resolveRef env fuel .request ref).Runs s trace (.error error) s') :
    s'.request.records = s.request.records ∧ s'.request.cache = s.request.cache := by
  cases fuel with
  | zero =>
    cases run
    exact ⟨rfl, rfl⟩
  | succ fuel =>
    have run := run.read_then
    split at run
    · cases run
      exact ⟨rfl, rfl⟩
    split at run
    · cases run
      exact ⟨rfl, rfl⟩
    unfold resolvePlan at run
    split at run
    · have same := (untouched_follows env).resolveCached (untouched_resolveRef env fuel) _ _
        _ _ _ _ run
      exact ⟨congrArg _ same, congrArg _ same⟩
    · cases run
      exact ⟨rfl, rfl⟩
    · exact resolveCached_failed (grows_resolveRef .request fuel .request) run
    · exact (construct_runs (grows_resolveRef .request fuel .request) run).2.2 error rfl

/-! ### A scope of a request or of work -/

/-- The values in the cache of the scope have their resources open. -/
def Backed (store : Store β) : Prop :=
  ∀ entry ∈ store.request.cache, Held .request store entry.2

lemma grows_useScope (env : Env β) (fuel : Nat) (refs : List ProviderRef) :
    Task.Along (Grows .request) (useScope env fuel refs) := by
  induction refs with
  | nil => exact .ret (grows_path _) _
  | cons ref refs ih =>
    apply Task.Along.bind (grows_path _) (.attempt (grows_resolveRef .request fuel .request ref))
    intro result
    exact .bind (grows_path _) ih fun _ => .ret (grows_path _) _

lemma useScope_returns {fuel refs result}
    (run : (useScope env fuel refs).Runs s trace result s') : ∃ results, result = .ok results := by
  induction refs generalizing s trace result with
  | nil =>
    cases run
    exact ⟨[], rfl⟩
  | cons ref refs ih =>
    rcases run.bind with ⟨e, first, rfl⟩ | ⟨one, _, before, after, first, rest, rfl⟩
    · obtain ⟨r, impossible, -⟩ := first.attempt
      cases impossible
    rcases rest.bind with ⟨e, others, rfl⟩ | ⟨results, _, _, _, others, ret, rfl⟩
    · obtain ⟨results, impossible⟩ := ih others
      cases impossible
    · cases ret
      exact ⟨one :: results, rfl⟩

lemma Grows.backed (grows : Grows .request s trace s') (empty : s.request.cache = []) :
    Backed s' := by
  obtain ⟨_, _, -, cache, -, -, new, -⟩ := grows
  intro entry mem
  have mem : entry ∈ (s'.scope .request).cache := mem
  have empty : (s.scope .request).cache = [] := empty
  rw [cache, empty, append_nil] at mem
  exact (new entry mem).2

lemma closeScope_runs {result} (run : (closeScope env).Runs s trace result s') :
    s'.request.records = [] ∧ Balanced s trace s' := by
  have run := run.modify_then.read_then
  refine ⟨?_, ?_⟩
  · obtain ⟨-, scope, -⟩ := closeRecords_runs run (append_nil _).symm length_nil
      (Nat.le_add_right _ _)
    have records : (s'.scope .request).records = [] := by rw [scope]
    exact records
  · have closing : Balanced s [] (s.update .request fun state => { state with closed := true }) :=
      balanced_of_records rfl
    exact balanced_path.trans closing (balanced_closeRecords _ _ _ _ _ _ _ _ _ _ run)

/-- The resources of a scope: along any resolutions by its owner the cached values stay open, a
failure leaves everything as it was, and where no cancellation comes between a call and its record
what was entered is exited once, in reverse order, by the end of the cleanup. -/
theorem scope_resources (env : Env β) (fuel : Nat) (refs : List ProviderRef)
    (application : ScopeState β) (closed : Bool) :
    (∀ trace result store,
      (useScope env fuel refs).Runs { application, closed } trace result store →
      Backed store ∧ (Clean trace → Bracketed [] trace (opened store)) ∧
        ∀ ref trace' error store',
          (resolveRef env fuel .request ref).Runs store trace' (.error error) store' →
          store'.request.records = store.request.records ∧
            store'.request.cache = store.request.cache ∧
            (Clean trace' → Bracketed (opened store) trace' (opened store))) ∧
    ∀ trace result store,
      (requestScope env fuel refs).Runs { application, closed } trace result store →
      store.request.records = [] ∧ (Clean trace → Bracketed [] trace []) := by
  refine ⟨?_, ?_⟩
  · intro trace result store run
    refine ⟨(grows_useScope env fuel refs _ _ _ _ run).backed rfl,
      balanced_useScope env fuel refs _ _ _ _ run, ?_⟩
    intro ref trace' error store' failed
    obtain ⟨records, cache⟩ := resolveRef_failed failed
    have balanced := balanced_resolveRef env fuel .request ref _ _ _ _ failed
    rw [Balanced, opened, opened, records] at balanced
    exact ⟨records, cache, balanced⟩
  · intro trace result store run
    rcases run.bind with ⟨e, first, -⟩ | ⟨results, _, _, _, first, rest, rfl⟩
    · obtain ⟨_, impossible⟩ := useScope_returns first
      cases impossible
    obtain ⟨records, balanced⟩ := closeScope_runs rest
    refine ⟨records, ?_⟩
    have whole := balanced_path.trans (balanced_useScope env fuel refs _ _ _ _ first) balanced
    rw [Balanced, opened, opened, records] at whole
    exact whole

/-! ### A session -/

/-- A request-scoped session that is a synchronous context manager. -/
def sessionDeclaration : Declaration :=
  .cls (.cls ⟨31, "Session"⟩) ⟨31, "Session"⟩ (some []) .request true false []

def sessionProgram : Program where
  metadata _ := .ok { providers := [sessionDeclaration] }
  materialize _ := .ok {}

def sessionRef : ProviderRef := ⟨⟨⟨30, "SessionModule"⟩, none⟩, .cls ⟨31, "Session"⟩⟩

def sessionPlan : ProviderPlan where
  key := sessionRef
  declaration := sessionDeclaration
  dependencies := []
  scope := .request
  canonical := sessionRef
  recipe := compileRecipe sessionDeclaration []
  proxy := false

def sessionEnv (graph : CompiledGraph) : Env Nat where
  graph
  workScopeFactory := none
  intrinsicProvider := none
  managerKind _ := .synchronous
  truthy _ := false
  proxy _ value := value

lemma session_compiles : ∃ graph,
    compileGraph sessionProgram 1 (.static ⟨30, "SessionModule"⟩) = .ok graph ∧
      graph.providers = [sessionPlan] := by
  have compiled : (compileGraph sessionProgram 1 (.static ⟨30, "SessionModule"⟩)).toOption.map
      (·.providers) = some [sessionPlan] := by
    decide +kernel
  obtain ⟨graph, found, providers⟩ := Option.map_eq_some_iff.mp compiled
  exact ⟨graph, ok_of_toOption found, providers⟩

/-- A request that resolves the session: its constructor, its entry and what follows. -/
def sessionTrace (entered : Answer Nat) (rest : List (Call Nat × Answer Nat)) :
    List (Call Nat × Answer Nat) :=
  (.invoke sessionRef sessionPlan.recipe [], ⟨.ok 7, true⟩) ::
    (.enter .request sessionRef .synchronous 7, entered) :: rest

/-- The session is exited by the cleanup. -/
theorem session_exited : ∃ graph,
    compileGraph sessionProgram 1 (.static ⟨30, "SessionModule"⟩) = .ok graph ∧
    ∃ trace result store,
      (requestScope (sessionEnv graph) 1 [sessionRef]).Runs {} trace result store ∧
      trace = sessionTrace ⟨.ok 7, true⟩ [(.exit .request true ⟨0, sessionRef, 7⟩, ⟨.ok 0, true⟩)] ∧
      Clean trace ∧ Bracketed [] trace [] := by
  obtain ⟨⟨root, modules, _, visibility, order⟩, compiled, same⟩ := session_compiles
  cases same
  have run := Task.runs_of_execute (rfl : (requestScope (sessionEnv
    ⟨root, modules, [sessionPlan], visibility, order⟩) 1 [sessionRef]).execute
      [⟨.ok 7, true⟩, ⟨.ok 7, true⟩, ⟨.ok 0, true⟩] {} = some (sessionTrace ⟨.ok 7, true⟩
        [(.exit .request true ⟨0, sessionRef, 7⟩, ⟨.ok 0, true⟩)], _))
  have clean : Clean (sessionTrace ⟨.ok 7, true⟩
      [(.exit .request true ⟨0, sessionRef, 7⟩, ⟨.ok 0, true⟩)]) := by
    refine forall_mem_cons.mpr ⟨⟨trivial, trivial⟩, forall_mem_cons.mpr ⟨⟨⟨?_, ?_⟩, ?_⟩,
      forall_mem_cons.mpr ⟨⟨.inl rfl, fun _ => rfl⟩, nofun⟩⟩⟩
    · exact fun _ => rfl
    · exact fun _ => .inl ⟨7, rfl⟩
    · rintro ⟨_, impossible, -⟩
      cases impossible
  exact ⟨_, compiled, _, _, _, run, rfl, clean, ((scope_resources _ _ _ _ _).2 _ _ _ run).2 clean⟩

/-- The request is cancelled while the worker thread enters the session, and nothing exits it. -/
theorem session_leaked : ∃ graph,
    compileGraph sessionProgram 1 (.static ⟨30, "SessionModule"⟩) = .ok graph ∧
    ∃ trace result store,
      (requestScope (sessionEnv graph) 1 [sessionRef]).Runs {} trace result store ∧
      trace = sessionTrace ⟨.error .cancelled, true⟩ [] ∧
      (∀ entry ∈ trace, Possible entry.1 entry.2) ∧ ¬ Bracketed [] trace [] := by
  obtain ⟨⟨root, modules, _, visibility, order⟩, compiled, same⟩ := session_compiles
  cases same
  have run := Task.runs_of_execute (rfl : (requestScope (sessionEnv
    ⟨root, modules, [sessionPlan], visibility, order⟩) 1 [sessionRef]).execute
      [⟨.ok 7, true⟩, ⟨.error .cancelled, true⟩] {} =
        some (sessionTrace ⟨.error .cancelled, true⟩ [], _))
  refine ⟨_, compiled, _, _, _, run, rfl, ?_, ?_⟩
  · refine forall_mem_cons.mpr ⟨trivial, forall_mem_cons.mpr ⟨⟨?_, ?_⟩, nofun⟩⟩
    · rintro ⟨_, impossible⟩
      cases impossible
    · exact fun _ => .inr ⟨rfl, .cancelled, rfl, rfl⟩
  · intro bracketed
    cases bracketed with
    | skip _ rest =>
      cases rest with
      | enter _ rest => cases rest.of_nil
      | skip silent => cases silent

end ToriPy.Core
