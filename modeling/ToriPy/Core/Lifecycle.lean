import ToriPy.Base.Task
import ToriPy.Base.Transition
import ToriPy.Core.Compiler

/-!
# The application lifecycle

`ApplicationKernel` of `core/runtime.py`: `start` with its rollback, `shutdown` with the task that all
its callers share, and the admission of request and work scopes. `start` and the shutdown task are
tasks over the state of the kernel. What they call is answered arbitrarily: the constructors and
validators of the modules, the resolution of the singletons, `_call_hook`, the binder, the drain of the
scopes and the resources of the container.

The sections under the lock of the kernel do not await, so each of them is one step. A hook runs in a
task of its own: the answer to a call of `_call_hook` says what the caller gets, and whether the hook
ran to its end.
-/

namespace ToriPy.Core.Lifecycle

/-- `ApplicationState`. -/
inductive ApplicationState where
  | compiled
  | starting
  | started
  | stopping
  | stopped
  | failed
deriving DecidableEq

def ApplicationState.value : ApplicationState → String
  | .compiled => "compiled"
  | .starting => "starting"
  | .started => "started"
  | .stopping => "stopping"
  | .stopped => "stopped"
  | .failed => "failed"

/-- The lifecycle hooks of a participant. -/
inductive Hook where
  | onModuleInit
  | onApplicationBootstrap
  | onApplicationQuiesce
  | onApplicationShutdown
  | onModuleDestroy
deriving DecidableEq

/-- What the calls of the kernel raise, and what it raises itself. -/
inductive Failure where
  | raised (error : Nat)
  | cancelled
  | lingeringQuiesce
  | keyError
  | applicationState (message : String)
deriving DecidableEq

/-- What the kernel calls. -/
inductive Call (π : Type) where
  | construct (moduleId : ModuleId)
  | validate (participant : π)
  | resolve (ref : ProviderRef)
  | hook (hook : Hook) (participant : π)
  | bind
  | drain
  | closeBinder
  | closeResources
deriving DecidableEq

/-- An answer: what the caller gets, and whether what it called ran to its end, which a caller that
is cancelled does not learn. -/
structure Answer (π : Type) where
  result : Except Failure π
  completed : Bool

def Answer.error? {π : Type} (answer : Answer π) : Option Failure := Task.errorOf answer.result

/-- What an application is made of. The objects are `π`, with `None` among them. -/
structure Env (π : Type) where
  graph : CompiledGraph
  pyNone : π
  isGraphValidator : π → Bool
  shutdownTimeout : Option Nat := none

/-- The state of `ApplicationKernel` that `start` and the shutdown write. -/
structure Kernel (π : Type) where
  state : ApplicationState := .compiled
  cache : List (ProviderRef × π) := []
  moduleInitialized : List π := []
  bootstrapped : List π := []
  bindingAttempted : Bool := false
  requestAdmissionOpen : Bool := false
  workAdmissionOpen : Bool := false

abbrev Work (π α : Type) := Task (Kernel π) (Call π) (Answer π) Failure α

variable {π : Type}

def perform (call : Call π) : Work π π := do
  let answer ← Task.call call
  Task.ofExcept answer.result

/-! ### Startup -/

def constructModules (env : Env π) : Work π (List π) :=
  env.graph.modules.foldlM (fun modules plan => do
    let module ← perform (.construct plan.moduleId)
    pure (modules ++ [module])) []

def validateModule (env : Env π) (participant : π) : Work π Unit :=
  if env.isGraphValidator participant then do
    let _ ← perform (.validate participant)
    pure ()
  else pure ()

/-- One round of the loop that resolves the singletons, which are cached under their canonical
reference. -/
def resolveSingleton (env : Env π) (ref : ProviderRef) : Work π Unit :=
  match findProvider env.graph.providers ref with
  | none => Task.raise .keyError
  | some plan =>
    if plan.scope = .singleton then do
      let value ← perform (.resolve ref)
      Task.modify fun kernel =>
        { kernel with cache := kernel.cache ++ [(plan.canonical, value)] }
    else pure ()

/-- `on_module_init` of a participant, which is recorded when the hook returns. -/
def moduleInit (participant : π) : Work π Unit := do
  let _ ← perform (.hook .onModuleInit participant)
  Task.modify fun kernel =>
    { kernel with moduleInitialized := kernel.moduleInitialized ++ [participant] }

/-- One round of the loop that initializes the singletons. -/
def singletonInit [DecidableEq π] (env : Env π) (ref : ProviderRef) : Work π Unit :=
  match findProvider env.graph.providers ref with
  | none => Task.raise .keyError
  | some plan =>
    if plan.scope = .singleton then do
      let participant ← Task.read fun kernel => (kernel.cache.lookup ref).getD env.pyNone
      if participant = env.pyNone then pure () else moduleInit participant
    else pure ()

/-- `on_application_bootstrap` of a participant, which is recorded when the hook returns. -/
def bootstrap (participant : π) : Work π Unit := do
  let _ ← perform (.hook .onApplicationBootstrap participant)
  Task.modify fun kernel => { kernel with bootstrapped := kernel.bootstrapped ++ [participant] }

/-- The body of `start`, up to the end of the hooks. -/
def startHooks [DecidableEq π] (env : Env π) : Work π Unit := do
  let modules ← constructModules env
  modules.forM (validateModule env)
  env.graph.providerOrder.forM (resolveSingleton env)
  modules.forM moduleInit
  env.graph.providerOrder.forM (singletonInit env)
  Task.modify fun kernel => { kernel with bindingAttempted := true }
  let _ ← perform .bind
  Task.modify fun kernel => { kernel with workAdmissionOpen := true }
  let participants ← Task.read Kernel.moduleInitialized
  participants.forM bootstrap

/-! ### Teardown -/

/-- The loop of `_run_reverse_hooks`, over the participants in the order of the loop. -/
def runHooks (hook : Hook) : List π → Option Failure → Work π (Option Failure)
  | [], firstError => pure firstError
  | participant :: participants, firstError => do
    let answer ← Task.call (.hook hook participant)
    runHooks hook participants (firstError.or answer.error?)

/-- `_run_reverse_hooks`. -/
def runReverseHooks (participants : List π) (hook : Hook) : Work π (Option Failure) :=
  runHooks hook participants.reverse none

/-- The loop of `_run_reverse_quiesce`: the first error, and whether a hook is lingering. -/
def runQuiesce : List π → Option Failure × Bool → Work π (Option Failure × Bool)
  | [], state => pure state
  | participant :: participants, (firstError, lingering) => do
    let answer ← Task.call (.hook .onApplicationQuiesce participant)
    runQuiesce participants
      (firstError.or answer.error?, lingering || answer.error? = some .lingeringQuiesce)

/-- `_run_reverse_quiesce`. -/
def runReverseQuiesce (participants : List π) : Work π (Option Failure × Bool) :=
  runQuiesce participants.reverse (none, false)

/-- `binder.close`, if a binding was attempted. -/
def closeBinder : Work π (Option Failure) := do
  if ← Task.read Kernel.bindingAttempted then do
    let answer ← Task.call .closeBinder
    pure answer.error?
  else pure none

/-- What `_rollback` and `_shutdown_steps` begin with: the quiesce hooks, the end of the admission of
work, and the drain. -/
def quiesceAndDrain : Work π (Option Failure × Bool) := do
  let bootstrapped ← Task.read Kernel.bootstrapped
  let (quiesceError, lingering) ← runReverseQuiesce bootstrapped
  Task.modify fun kernel => { kernel with workAdmissionOpen := false }
  let drained ← Task.call .drain
  pure (quiesceError.or drained.error?, lingering)

/-- What they end with: the shutdown hooks, the binder, the destroy hooks and the resources. -/
def tearDown : Work π (Option Failure) := do
  let bootstrapped ← Task.read Kernel.bootstrapped
  let shutdownError ← runReverseHooks bootstrapped .onApplicationShutdown
  let binderError ← closeBinder
  let moduleInitialized ← Task.read Kernel.moduleInitialized
  let destroyError ← runReverseHooks moduleInitialized .onModuleDestroy
  let closed ← Task.call .closeResources
  pure (((shutdownError.or binderError).or destroyError).or closed.error?)

/-- `_rollback`. Its errors are logged. -/
def rollback : Work π Unit := do
  Task.modify fun kernel => { kernel with requestAdmissionOpen := false }
  let (_, lingering) ← quiesceAndDrain
  if lingering then Task.modify fun kernel => { kernel with state := .failed }
  else do
    let _ ← tearDown
    Task.modify fun kernel => { kernel with
      requestAdmissionOpen := false
      workAdmissionOpen := false
      state := .failed }

/-- `start`, from the state `STARTING` on. -/
def start [DecidableEq π] (env : Env π) : Work π Unit :=
  (do
    startHooks env
    Task.modify fun kernel => { kernel with requestAdmissionOpen := true, state := .started }).rescue
  fun error => do
    rollback
    Task.raise error

/-- `_shutdown_steps`: its first error. -/
def shutdownSteps : Work π (Option Failure) := do
  let (firstError, lingering) ← quiesceAndDrain
  if lingering then pure firstError
  else do
    let error ← tearDown
    pure (firstError.or error)

/-- `_run_shutdown`. -/
def runShutdown : Work π (Option Failure) := do
  let firstError ← shutdownSteps
  Task.modify fun kernel => { kernel with state := .stopped }
  pure firstError

/-! ### The application -/

/-- `"request"` or `"work"`. -/
inductive Admission where
  | request
  | work
deriving DecidableEq

/-- The kernel, the call of `start` that goes on or its outcome, the shutdown task, the callers of
`shutdown` that wait for it and what callers were told, the scopes that are active, and the calls that
were answered. -/
structure Sys (π : Type) where
  kernel : Kernel π := {}
  starting : Option (Work π Unit) := none
  outcome : Option (Except Failure Unit) := none
  shutdownTask : Option (Work π (Option Failure)) := none
  waiting : Nat := 0
  reports : List (Option Failure) := []
  refusals : List Failure := []
  active : List Nat := []
  trace : List (Call π × Answer π) := []

/-- What happens next. -/
inductive Event (π : Type) where
  | start
  | answerStart (answer : Answer π)
  | shutdown
  | runShutdown
  | answerShutdown (answer : Answer π)
  | openScope (kind : Admission) (scope : Nat)
  | closeScope (scope : Nat)

/-- What can answer a call. What returns ran to its end, and without a timeout the drain waits for
the last of the scopes. -/
def possible (env : Env π) (active : List Nat) : Call π → Answer π → Bool
  | .drain, answer => env.shutdownTimeout.isSome || active.isEmpty && answer.error?.isNone
  | _, answer => answer.error?.isSome || answer.completed

namespace Sys

/-- `start` up to its next call. -/
def goStart (sys : Sys π) (task : Work π Unit) : Sys π :=
  match task.advance sys.kernel with
  | (.ret result, kernel) =>
    { sys with kernel, starting := none, outcome := some result }
  | (task, kernel) => { sys with kernel, starting := some task }

/-- The shutdown task up to its next call. Its result is what the callers that wait are told. -/
def goShutdown (sys : Sys π) (task : Work π (Option Failure)) : Sys π :=
  match task.advance sys.kernel with
  | (.ret result, kernel) =>
    { sys with
      kernel
      shutdownTask := none
      waiting := 0
      reports := sys.reports ++ List.replicate sys.waiting
        (match result with
          | .ok firstError => firstError
          | .error error => some error) }
  | (task, kernel) => { sys with kernel, shutdownTask := some task }

def refuse (sys : Sys π) (message : String) : Sys π :=
  { sys with refusals := sys.refusals ++ [.applicationState message] }

/-- The section of `shutdown` under the lock. -/
def shutdown (sys : Sys π) : Sys π :=
  match sys.kernel.state with
  | .stopped => sys
  | .stopping =>
    match sys.shutdownTask with
    | none => sys.refuse "application shutdown task is unavailable"
    | some _ => { sys with waiting := sys.waiting + 1 }
  | .started =>
    { sys with
      kernel := { sys.kernel with state := .stopping, requestAdmissionOpen := false }
      shutdownTask := some Lifecycle.runShutdown
      waiting := sys.waiting + 1 }
  | state => sys.refuse ("cannot shut down application in " ++ state.value ++ " state")

/-- The flag that `_register_request_scope` and `_register_work_scope` check. -/
def admits (sys : Sys π) : Admission → Bool
  | .request => sys.kernel.requestAdmissionOpen
  | .work => sys.kernel.workAdmissionOpen

/-- One step of the application. A scope that is not admitted is not opened. -/
def step [DecidableEq π] (env : Env π) (sys : Sys π) : Event π → Option (Sys π)
  | .start =>
    if sys.kernel.state = .compiled then
      some ({ sys with kernel := { sys.kernel with state := .starting } }.goStart
        (Lifecycle.start env))
    else some (sys.refuse ("cannot start application in " ++ sys.kernel.state.value ++ " state"))
  | .answerStart answer =>
    match sys.starting with
    | some (.await call next) =>
      if possible env sys.active call answer then
        some ({ sys with trace := sys.trace ++ [(call, answer)] }.goStart (next answer))
      else none
    | _ => none
  | .shutdown => some sys.shutdown
  | .runShutdown =>
    match sys.shutdownTask with
    | some (.await _ _) => none
    | some task => some (sys.goShutdown task)
    | none => none
  | .answerShutdown answer =>
    match sys.shutdownTask with
    | some (.await call next) =>
      if possible env sys.active call answer then
        some ({ sys with trace := sys.trace ++ [(call, answer)] }.goShutdown (next answer))
      else none
    | _ => none
  | .openScope kind scope =>
    if sys.admits kind && !sys.active.contains scope then
      some { sys with active := sys.active ++ [scope] }
    else none
  | .closeScope scope =>
    if sys.active.contains scope then some { sys with active := sys.active.erase scope }
    else none

/-! ### What leaves the scopes alone -/

lemma goStart_frame (sys : Sys π) (task : Work π Unit) :
    (sys.goStart task).trace = sys.trace ∧ (sys.goStart task).active = sys.active := by
  unfold goStart
  split
  · exact ⟨rfl, rfl⟩
  · exact ⟨rfl, rfl⟩

lemma goShutdown_frame (sys : Sys π) (task : Work π (Option Failure)) :
    (sys.goShutdown task).trace = sys.trace ∧ (sys.goShutdown task).active = sys.active := by
  unfold goShutdown
  split
  · exact ⟨rfl, rfl⟩
  · exact ⟨rfl, rfl⟩

lemma shutdown_frame (sys : Sys π) :
    sys.shutdown.trace = sys.trace ∧ sys.shutdown.active = sys.active := by
  unfold shutdown
  split
  · exact ⟨rfl, rfl⟩
  · split
    · exact ⟨rfl, rfl⟩
    · exact ⟨rfl, rfl⟩
  · exact ⟨rfl, rfl⟩
  · exact ⟨rfl, rfl⟩

end Sys

end ToriPy.Core.Lifecycle
