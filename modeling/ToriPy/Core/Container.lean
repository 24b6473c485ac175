import ToriPy.Base.Task
import ToriPy.Core.Compiler

/-!
# The container

`Container` and `_ResourceStack` of `core/runtime.py` as tasks: the resolution of a provider through
its canonical plan, the cached lifetimes, the construction with its dependencies, the resources that
are entered and the rollback of a construction that fails. A constructor or factory, an entry and an
exit of a context manager are calls, and their answers are arbitrary.

A record carries the number of its acquisition, and a resolved value the number of the resource that
stands behind it. The code has neither: they name what is entered, so that it can be said to be open.
-/

namespace ToriPy.Core

/-- The kind of a scope: `"application"`, or one of `"request"` and `"work"`. -/
inductive ScopeKind where
  | application
  | request
deriving DecidableEq

/-- What `enter` finds in a value: no context manager, an asynchronous or a synchronous one. -/
inductive ManagerKind where
  | plain
  | asynchronous
  | synchronous
deriving DecidableEq

/-- What a resolution raises. -/
inductive Failure where
  | keyError
  | recursion
  | scopeClosed (message : String)
  | scopeError (message : String)
  | uncanonicalizedAlias
  | acquire (message : String)
  | invalidExit (resource : ProviderRef)
  | raised (error : Nat)
  | control (error : Nat)
  | cancelled
  | scopeCancellation (cleanupErrors : List Failure)
  | scopeFinalization (bodyError : Option Failure) (cleanupErrors : List Failure)

/-- `isinstance(error, asyncio.CancelledError)`. -/
def Failure.isCancellation : Failure → Bool
  | .cancelled => true
  | .scopeCancellation _ => true
  | _ => false

/-- `isinstance(error, (KeyboardInterrupt, SystemExit))`. -/
def Failure.isControl : Failure → Bool
  | .control _ => true
  | _ => false

/-- `_scope_cleanup_error` for an error of the body. -/
def scopeCleanupError (bodyError : Failure) (cleanupErrors : List Failure) : Failure :=
  if bodyError.isCancellation then .scopeCancellation cleanupErrors
  else if bodyError.isControl then bodyError
  else
    match cleanupErrors.find? (·.isControl) with
    | some error => error
    | none =>
      if cleanupErrors.any (·.isCancellation) then
        .scopeCancellation (bodyError :: cleanupErrors.eraseP (·.isCancellation))
      else .scopeFinalization (some bodyError) cleanupErrors

variable {β : Type}

/-- `_CleanupRecord`: the number of the acquisition, the provider that its label names, and the
context manager. -/
structure Record (β : Type) where
  number : Nat
  ref : ProviderRef
  manager : β
deriving DecidableEq

/-- A resolved value, with the number of the resource behind it. -/
structure Resolved (β : Type) where
  value : β
  resource : Option Nat
deriving DecidableEq

/-- `_ScopeState` and its `_ResourceStack`, the last record first. -/
structure ScopeState (β : Type) where
  cache : List (ProviderRef × Resolved β) := []
  records : List (Record β) := []
  acquired : Nat := 0
  closed : Bool := false
deriving DecidableEq

/-- The state of the container: the application, and the scope of a request. -/
structure Store (β : Type) where
  application : ScopeState β := {}
  request : ScopeState β := {}
  closed : Bool := false
deriving DecidableEq

namespace Store

def scope (store : Store β) : ScopeKind → ScopeState β
  | .application => store.application
  | .request => store.request

def update (store : Store β) (kind : ScopeKind) (f : ScopeState β → ScopeState β) : Store β :=
  match kind with
  | .application => { store with application := f store.application }
  | .request => { store with request := f store.request }

end Store

/-- What is called: the invoker of a recipe, and the methods of a context manager. The exits of a
scope that is closed run in a task of their own, shielded from the owner of the scope. -/
inductive Call (β : Type) where
  | invoke (ref : ProviderRef) (recipe : ConstructionRecipe) (arguments : List (String × β))
  | enter (owner : ScopeKind) (ref : ProviderRef) (kind : ManagerKind) (manager : β)
  | exit (owner : ScopeKind) (shielded : Bool) (record : Record β)

/-- An answer: what the caller gets, and whether the call itself took place to its end (for an
entry) or at all (for an exit), which a cancelled caller does not learn. -/
structure Answer (β : Type) where
  result : Except Failure β
  happened : Bool

/-- What a container is made with, and what values are: `getattr` of the methods of a context
manager, `bool`, and `_ProviderProxy`. The slack is for the rounds that the loop of a rollback makes
beyond the records that it started with. -/
structure Env (β : Type) where
  graph : CompiledGraph
  workScopeFactory : Option (ModuleId → β)
  intrinsicProvider : Option (Token → β)
  managerKind : β → ManagerKind
  truthy : β → Bool
  proxy : ProviderRef → β → β
  slack : Nat := 0

abbrev Work (β α : Type) := Task (Store β) (Call β) (Answer β) Failure α

def perform (call : Call β) : Work β β := do
  let answer ← Task.call call
  Task.ofExcept answer.result

lemma perform_then {α : Type} {call} {next : β → Work β α} {s s'} {trace : List (Call β × Answer β)}
    {result} (h : Task.Runs (perform call >>= next) s trace result s') :
    ∃ answer rest, trace = (call, answer) :: rest ∧
      ((∃ value, answer.result = .ok value ∧ Task.Runs (next value) s rest result s') ∨
        ∃ error, answer.result = .error error ∧ rest = [] ∧ result = .error error ∧ s' = s) := by
  rcases h.bind with ⟨e, first, rfl⟩ | ⟨value, _, _, after, first, rest, rfl⟩
  · obtain ⟨answer, tail, rfl, last⟩ := first.call_then
    generalize same : answer.result = outcome at last
    cases last
    exact ⟨answer, [], rfl, .inr ⟨e, same, rfl, rfl, rfl⟩⟩
  · obtain ⟨answer, _, rfl, last⟩ := first.call_then
    generalize same : answer.result = outcome at last
    cases last
    exact ⟨answer, after, rfl, .inl ⟨value, same, rest⟩⟩

/-! ### Resources -/

def push (ref : ProviderRef) (manager : β) (state : ScopeState β) : ScopeState β :=
  { state with
    records := ⟨state.acquired, ref, manager⟩ :: state.records
    acquired := state.acquired + 1 }

/-- `_ResourceStack.enter` of a context manager. -/
def enterManager (owner : ScopeKind) (ref : ProviderRef) (kind : ManagerKind) (value : β) :
    Work β (Resolved β) := do
  let entered ← perform (.enter owner ref kind value)
  let number ← Task.read fun store => (store.scope owner).acquired
  Task.modify fun store => store.update owner (push ref value)
  pure ⟨entered, some number⟩

/-- `_ResourceStack.enter`. -/
def enter (env : Env β) (owner : ScopeKind) (ref : ProviderRef) (value : β) :
    Work β (Resolved β) := do
  let closed ← Task.read fun store => (store.scope owner).closed
  if closed then Task.raise (.acquire "resource stack is closed")
  else
    match env.managerKind value with
    | .plain => pure ⟨value, none⟩
    | kind => enterManager owner ref kind value

def exitErrors (env : Env β) (record : Record β) (answer : Answer β) : List Failure :=
  match answer.result with
  | .error error => [error]
  | .ok value => if env.truthy value then [.invalidExit record.ref] else []

/-- `_close_records` without a deadline. -/
def closeRecords (env : Env β) (owner : ScopeKind) (shielded : Bool) (mark : Nat) :
    Nat → List Failure → Work β (List Failure)
  | 0, errors => pure errors
  | rounds + 1, errors => do
    match ← Task.read fun store => (store.scope owner).records with
    | [] => pure errors
    | record :: rest =>
      if rest.length < mark then pure errors
      else do
        Task.modify fun store => store.update owner fun state => { state with records := rest }
        let answer ← Task.call (.exit owner shielded record)
        closeRecords env owner shielded mark rounds (errors ++ exitErrors env record answer)

/-- `rollback_to`. -/
def rollbackTo (env : Env β) (owner : ScopeKind) (mark : Nat) : Work β (List Failure) := do
  let rounds ← Task.read fun store => (store.scope owner).records.length
  closeRecords env owner false mark (rounds + env.slack) []

/-! ### Construction -/

def intrinsicArgument (env : Env β) (moduleId : ModuleId) (token : Token) : Except Failure β :=
  if token = .cls workScopeFactory then
    match env.workScopeFactory with
    | none => .error (.scopeError "WorkScopeFactory requires an application runtime")
    | some factory => .ok (factory moduleId)
  else
    match env.intrinsicProvider with
    | none => .error (.scopeError (token.label ++ " requires an application runtime"))
    | some provider => .ok (provider token)

def addArgument (env : Env β) (resolve : ProviderRef → Work β (Resolved β)) (moduleId : ModuleId)
    (arguments : List (String × β)) (dependency : DependencySource) : Work β (List (String × β)) :=
  match dependency.intrinsic with
  | some token => do
    let value ← Task.ofExcept (intrinsicArgument env moduleId token)
    pure (arguments ++ [(dependency.parameterName, value)])
  | none =>
    match dependency.providerRef with
    | none => pure arguments
    | some ref => do
      let resolved ← resolve ref
      pure (arguments ++ [(dependency.parameterName, resolved.value)])

/-- `recipe.invoker(**arguments)`, awaited as the policy says. -/
def invoke (ref : ProviderRef) (recipe : ConstructionRecipe) (arguments : List (String × β)) :
    Work β β :=
  match recipe.invoker with
  | .uncanonicalizedAlias => Task.raise .uncanonicalizedAlias
  | _ => perform (.invoke ref recipe arguments)

def manage (env : Env β) (owner : ScopeKind) (ref : ProviderRef) (managed : Bool) (value : β) :
    Work β (Resolved β) :=
  if managed then enter env owner ref value else pure ⟨value, none⟩

/-- The body of `_construct`. -/
def constructBody (env : Env β) (resolve : ProviderRef → Work β (Resolved β)) (ref : ProviderRef)
    (recipe : ConstructionRecipe) (owner : ScopeKind) (proxied : Bool) : Work β (Resolved β) := do
  let arguments ← recipe.dependencies.foldlM (addArgument env resolve ref.moduleId) []
  let value ← invoke ref recipe arguments
  let resolved ← manage env owner ref recipe.manage value
  pure (if proxied then { resolved with value := env.proxy ref resolved.value } else resolved)

/-- The handler of `_construct`. -/
def unwind (env : Env β) (owner : ScopeKind) (mark : Nat) (initial : List ProviderRef)
    (error : Failure) : Work β (Resolved β) := do
  let cleanupErrors ← rollbackTo env owner mark
  Task.modify fun store => store.update owner fun state =>
    { state with cache := state.cache.filter fun entry => entry.1 ∈ initial }
  Task.raise (if cleanupErrors.isEmpty then error else scopeCleanupError error cleanupErrors)

/-- `_construct`. -/
def construct (env : Env β) (resolve : ProviderRef → Work β (Resolved β)) (ref : ProviderRef)
    (recipe : ConstructionRecipe) (owner : ScopeKind) : Work β (Resolved β) :=
  match findProvider env.graph.providers ref with
  | none => Task.raise .keyError
  | some plan => do
    let state ← Task.read fun store => store.scope owner
    (constructBody env resolve ref recipe owner plan.proxy).rescue
      (unwind env owner state.records.length (state.cache.map Prod.fst))

/-- `_resolve_cached`. -/
def resolveCached (env : Env β) (resolve : ProviderRef → Work β (Resolved β)) (ref : ProviderRef)
    (recipe : ConstructionRecipe) (owner : ScopeKind) : Work β (Resolved β) := do
  match ← Task.read fun store => (store.scope owner).cache.lookup ref with
  | some resolved => pure resolved
  | none =>
    let resolved ← construct env resolve ref recipe owner
    Task.modify fun store => store.update owner fun state =>
      { state with cache := (ref, resolved) :: state.cache }
    pure resolved

/-- The branches of `_resolve_ref`. -/
def resolvePlan (env : Env β) (resolve : ScopeKind → ProviderRef → Work β (Resolved β))
    (scope : ScopeKind) (plan : ProviderPlan) : Work β (Resolved β) :=
  match plan.scope, scope with
  | .singleton, _ => resolveCached env (resolve .application) plan.canonical plan.recipe .application
  | .request, .application =>
    Task.raise (.scopeError "request-scoped provider requires a request scope")
  | .request, .request => resolveCached env (resolve .request) plan.canonical plan.recipe .request
  | .transient, scope => construct env (resolve scope) plan.canonical plan.recipe scope

/-- `_resolve_ref`. -/
def resolveRef (env : Env β) : Nat → ScopeKind → ProviderRef → Work β (Resolved β)
  | 0, _, _ => Task.raise .recursion
  | fuel + 1, scope, ref => do
    let closed ← Task.read Store.closed
    if closed then Task.raise (.scopeClosed "container is closed")
    else
      match findProvider env.graph.providers ref with
      | none => Task.raise .keyError
      | some plan => resolvePlan env (resolveRef env fuel) scope plan

/-- One provider in the loop of `ApplicationKernel.start`. -/
def resolveSingleton (env : Env β) (fuel : Nat) (ref : ProviderRef) : Work β Unit :=
  match findProvider env.graph.providers ref with
  | none => Task.raise .keyError
  | some plan =>
    if plan.scope = .singleton then do
      let _ ← resolveRef env fuel .application ref
      pure ()
    else pure ()

/-- The loop of `ApplicationKernel.start` over the providers. -/
def resolveSingletons (env : Env β) (fuel : Nat) : Work β Unit :=
  env.graph.providerOrder.forM (resolveSingleton env fuel)

/-! ### Request and work scopes -/

/-- Resolutions in a scope by its owner, which goes on after a failure. -/
def useScope (env : Env β) (fuel : Nat) :
    List ProviderRef → Work β (List (Except Failure (Resolved β)))
  | [] => pure []
  | ref :: refs => do
    let result ← (resolveRef env fuel .request ref).attempt
    let results ← useScope env fuel refs
    pure (result :: results)

/-- `RequestScope._close`: the resource stack is closed, the last resource first. -/
def closeScope (env : Env β) : Work β (List Failure) := do
  Task.modify fun store => store.update .request fun state => { state with closed := true }
  let rounds ← Task.read fun store => (store.scope .request).records.length
  closeRecords env .request true 0 (rounds + env.slack) []

/-- A scope from its entry to the end of its cleanup. -/
def requestScope (env : Env β) (fuel : Nat) (refs : List ProviderRef) : Work β (List Failure) := do
  let _ ← useScope env fuel refs
  closeScope env

/-! ### Relations along a resolution -/

section
variable {R : Store β → List (Call β × Answer β) → Store β → Prop} {env : Env β}

/-- What holds along the calls of the invokers, the entries and the dependencies holds along the body
of a construction. -/
lemma along_constructBody (path : Task.Path R) {resolve owner}
    (resolves : ∀ ref, Task.Along R (resolve ref))
    (invokes : ∀ s ref recipe arguments answer, R s [(.invoke ref recipe arguments, answer)] s)
    (enters : ∀ ref kind value, Task.Along R (enterManager owner ref kind value))
    (ref : ProviderRef) (recipe : ConstructionRecipe) (proxied : Bool) :
    Task.Along R (constructBody env resolve ref recipe owner proxied) := by
  apply Task.Along.bind path
  · apply Task.Along.foldlM path
    intro arguments dependency _
    unfold addArgument
    split
    · exact .bind path (.ret path _) fun _ => .ret path _
    · split
      · exact .ret path _
      · exact .bind path (resolves _) fun _ => .ret path _
  · intro arguments
    apply Task.Along.bind path
    · unfold invoke
      split
      · exact .ret path _
      · exact .bind path (.call fun s answer => invokes s _ _ _ answer) fun _ => .ret path _
    · intro value
      refine .bind path ?_ fun _ => .ret path _
      unfold manage
      split
      · apply Task.Along.bind path (.read path _)
        intro closed
        split
        · exact .ret path _
        · split
          · exact .ret path _
          · exact enters _ _ _
      · exact .ret path _

/-- A relation that holds along each of the pieces that a construction in a scope is made of. -/
structure Follows (env : Env β) (R : Store β → List (Call β × Answer β) → Store β → Prop)
    (owner : ScopeKind) : Prop where
  path : Task.Path R
  invokes : ∀ s ref recipe arguments answer, R s [(.invoke ref recipe arguments, answer)] s
  enters : ∀ ref kind value, Task.Along R (enterManager owner ref kind value)
  closes : ∀ mark rounds errors, Task.Along R (closeRecords env owner false mark rounds errors)
  caches : ∀ s (f : List (ProviderRef × Resolved β) → List (ProviderRef × Resolved β)),
    R s [] (s.update owner fun state => { state with cache := f state.cache })

namespace Follows

variable {resolve : ProviderRef → Work β (Resolved β)} {owner : ScopeKind}

lemma construct (follows : Follows env R owner) (resolves : ∀ ref, Task.Along R (resolve ref))
    (ref : ProviderRef) (recipe : ConstructionRecipe) :
    Task.Along R (Core.construct env resolve ref recipe owner) := by
  have path := follows.path
  unfold Core.construct
  split
  · exact .ret path _
  apply Task.Along.bind path (.read path _)
  intro state
  apply Task.Along.rescue path
  · exact along_constructBody path resolves follows.invokes follows.enters _ _ _
  intro error
  apply Task.Along.bind path
  · exact .bind path (.read path _) fun _ => follows.closes _ _ _
  · intro errors
    exact .bind path (.modify fun s => follows.caches s fun cache => _) fun _ => .ret path _

lemma resolveCached (follows : Follows env R owner) (resolves : ∀ ref, Task.Along R (resolve ref))
    (ref : ProviderRef) (recipe : ConstructionRecipe) :
    Task.Along R (Core.resolveCached env resolve ref recipe owner) := by
  have path := follows.path
  apply Task.Along.bind path (.read path _)
  intro cached
  split
  · exact .ret path _
  · apply Task.Along.bind path (follows.construct resolves _ _)
    intro resolved
    exact .bind path (.modify fun s => follows.caches s fun cache => _) fun _ => .ret path _

end Follows

/-- What holds along the constructions and the cached lifetimes of some scopes holds along the
resolutions in these scopes. -/
lemma along_resolveRef (path : Task.Path R) {P : ScopeKind → Prop} (application : P .application)
    (constructs : ∀ {resolve owner}, P owner → (∀ ref, Task.Along R (resolve ref)) →
      ∀ ref recipe, Task.Along R (construct env resolve ref recipe owner))
    (caches : ∀ {resolve owner}, P owner → (∀ ref, Task.Along R (resolve ref)) →
      ∀ ref recipe, Task.Along R (resolveCached env resolve ref recipe owner)) (fuel : Nat) {scope}
    (here : P scope) (ref : ProviderRef) : Task.Along R (resolveRef env fuel scope ref) := by
  induction fuel generalizing scope ref with
  | zero => exact .ret path _
  | succ fuel ih =>
    apply Task.Along.bind path (.read path _)
    intro closed
    split
    · exact .ret path _
    split
    · exact .ret path _
    unfold resolvePlan
    split
    · exact caches application (ih application) _ _
    · exact .ret path _
    · exact caches here (ih here) _ _
    · exact constructs here (ih here) _ _

end

end ToriPy.Core
