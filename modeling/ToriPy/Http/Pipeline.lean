import ToriPy.Base.Task
import ToriPy.Base.Transition
import ToriPy.Core.Compiler

/-!
# The HTTP pipeline

`PipelineExecutor` of `http/pipeline.py`: the qualification of the bindings, and `run` with its
middleware, guards, pipes, interceptors and exception filters. The binding of the arguments is the
loop of `_bind_arguments` in `starlette/routes.py` and `asgi/routes.py`.

Whatever is awaited is a call that is answered arbitrarily: the providers of the request scope, the
middleware and the other components, the handler, and the callbacks of the driver. A middleware or
interceptor gets a one-shot `next_once`. It may call it any number of times and at any time, also from
several tasks at once and after it has returned, so a request is a list of activations of the
framework's code: `run` itself and one for each call of a `next_once`, over the `called` flags that
they share.
-/

namespace ToriPy.Http

open Core

/-- A Python object: a token, a `PipelineResult`, or any other one. -/
inductive Value (π : Type) where
  | object (x : π)
  | token (token : Token)
  | pipelineResult (value : Value π) (isResponse : Bool)
deriving DecidableEq

variable {π : Type}

/-- `PipelineResult.from_value`. -/
def Value.fromValue (value : Value π) : Value π := .pipelineResult value false

/-- What the components and the driver raise, which may not be an `Exception`, and what the pipeline
raises itself. -/
inductive Failure where
  | raised (isException : Bool) (error : Nat)
  | pipelineState (message : String)
  | httpException (status : Nat) (detail : String)
  | typeError (message : String)
  | keyError (key : String)
deriving DecidableEq

/-- `isinstance(error, Exception)`. -/
def Failure.isException : Failure → Bool
  | .raised isException _ => isException
  | _ => true

/-! ### Plans -/

/-- A binding of a component: a provider, or an object such as the component itself. -/
inductive Binding (π : Type) where
  | ref (ref : ProviderRef)
  | object (value : Value π)
deriving DecidableEq

/-- `PipelineBindings`. -/
structure PipelineBindings (π : Type) where
  middleware : List (Binding π) := []
  guards : List (Binding π) := []
  pipes : List (Binding π) := []
  interceptors : List (Binding π) := []
  filters : List (Binding π) := []
deriving DecidableEq

inductive ParameterKind where
  | path
  | query
  | header
  | cookie
  | body
  | bodyStream
  | inject
  | context
  | custom
deriving DecidableEq

/-- `ParameterPlan`, as far as the pipeline reads it. -/
structure ParameterPlan (π : Type) where
  name : String
  annotation : Value π
  kind : ParameterKind
  source : Option String := none
deriving DecidableEq

/-- `RoutePlan`, as far as the pipeline reads it. The parameters are those of a signature, so their
names differ. -/
structure RoutePlan (π : Type) where
  moduleId : ModuleId
  routeId : String
  parameters : List (ParameterPlan π)
  controllerPipeline : PipelineBindings π := {}
  routePipeline : PipelineBindings π := {}
  rejectsBody : Bool := false
  hasExecutionPipeline : Bool := false
  names : (parameters.map (·.name)).Nodup

/-- `ArgumentMetadata`. -/
structure ArgumentMetadata (π : Type) where
  parameterName : String
  bindingKind : ParameterKind
  sourceName : Option String
  annotation : Value π
  routeId : String
  moduleId : String
deriving DecidableEq

/-- `_module_label`. -/
def moduleLabel (moduleId : ModuleId) : String :=
  match moduleId.key with
  | none => moduleId.module.qualname
  | some key => moduleId.module.qualname ++ "[" ++ key ++ "]"

def RoutePlan.metadata (plan : RoutePlan π) (parameter : ParameterPlan π) : ArgumentMetadata π where
  parameterName := parameter.name
  bindingKind := parameter.kind
  sourceName := parameter.source
  annotation := parameter.annotation
  routeId := plan.routeId
  moduleId := moduleLabel plan.moduleId

/-- `HttpPipelineAdapter`. -/
structure HttpPipelineAdapter (π : Type) where
  isAbortException : Failure → Bool
  normalizeResult : Value π → Except Failure (Value π)
  nativeResponseResult : Value π → Except Failure (Option (Value π))
  renderException : Failure → Except Failure (Value π)
  renderEmergency : Except Failure (Value π)

/-- `PipelineExecutor`, with the built-in `repr` of a token and truth value of an object. -/
structure PipelineExecutor (π : Type) where
  graph : CompiledGraph
  globalTokens : PipelineBindings π
  globalPipeline : PipelineBindings π
  transport : HttpPipelineAdapter π
  repr : Token → String
  truthy : Value π → Bool

namespace PipelineExecutor

/-! ### Qualification -/

/-- A binding in `_qualify_bindings_for_kind`. -/
def qualifyBinding (executor : PipelineExecutor π) (moduleId : ModuleId) (kind : String) :
    Binding π → Except BootstrapError (Binding π)
  | .object (.token token) =>
    match executor.graph.visibility.lookup (moduleId, token) with
    | none => .error ⟨"pipeline provider is not visible from its owning module",
        "provider.unresolved", [("kind", .text kind), ("token", .text (executor.repr token))]⟩
    | some ref => .ok (.ref ref)
  | binding => .ok binding

/-- `_qualify_bindings`. -/
def qualifyBindings (executor : PipelineExecutor π) (moduleId : ModuleId)
    (bindings : PipelineBindings π) : Except BootstrapError (PipelineBindings π) := do
  let middleware ← bindings.middleware.mapM (executor.qualifyBinding moduleId "middleware")
  let guards ← bindings.guards.mapM (executor.qualifyBinding moduleId "guards")
  let pipes ← bindings.pipes.mapM (executor.qualifyBinding moduleId "pipes")
  let interceptors ← bindings.interceptors.mapM (executor.qualifyBinding moduleId "interceptors")
  let filters ← bindings.filters.mapM (executor.qualifyBinding moduleId "filters")
  .ok { middleware, guards, pipes, interceptors, filters }

/-- `configure_global`. -/
def configureGlobal (executor : PipelineExecutor π) (globalTokens : PipelineBindings π) :
    Except BootstrapError (PipelineExecutor π) := do
  let globalPipeline ← executor.qualifyBindings executor.graph.root globalTokens
  .ok { executor with globalTokens, globalPipeline }

end PipelineExecutor

def PipelineBindings.executes (group : PipelineBindings π) : Bool :=
  !group.middleware.isEmpty || !group.guards.isEmpty || !group.pipes.isEmpty ||
    !group.interceptors.isEmpty

namespace PipelineExecutor

/-- A plan in `qualify`. -/
def qualifyPlan (executor : PipelineExecutor π) (plan : RoutePlan π) :
    Except BootstrapError (RoutePlan π) := do
  let controllerPipeline ← executor.qualifyBindings plan.moduleId plan.controllerPipeline
  let routePipeline ← executor.qualifyBindings plan.moduleId plan.routePipeline
  .ok { plan with
    controllerPipeline
    routePipeline
    hasExecutionPipeline := [executor.globalPipeline, controllerPipeline, routePipeline].any
      PipelineBindings.executes }

/-- `qualify`: the executor with the global bindings, and the plans. -/
def qualify (executor : PipelineExecutor π) (plans : List (RoutePlan π)) :
    Except BootstrapError (PipelineExecutor π × List (RoutePlan π)) := do
  let executor ← executor.configureGlobal executor.globalTokens
  let qualified ← plans.mapM executor.qualifyPlan
  .ok (executor, qualified)

/-- An abort error or one that is not an `Exception`. -/
def fatal (executor : PipelineExecutor π) (error : Failure) : Bool :=
  executor.transport.isAbortException error || !error.isException

end PipelineExecutor

/-! ### Calls -/

/-- What the pipeline calls. The callback `next_once` of a component is the address of its flag. -/
inductive Call (π : Type) where
  | resolve (ref : ProviderRef)
  | handle (middleware : Value π) (next : Nat)
  | canActivate (guard : Value π)
  | rejectBody
  | bind (parameter : ParameterPlan π)
  | transform (pipe value : Value π) (metadata : ArgumentMetadata π)
  | intercept (interceptor : Value π) (next : Nat)
  | handler (arguments : Dict String (Value π))
  | validateResult
  | encodeResult (result : Value π)
  | catch (filter : Value π) (error : Failure)

abbrev Answer (π : Type) := Except Failure (Value π)

/-- What a callback goes on with: the middleware or interceptors that are left. -/
inductive Step (π : Type) where
  | middleware (rest : List (Value π))
  | interceptors (rest : List (Value π)) (arguments : Dict String (Value π))

/-- The cell of a callback. -/
structure Next (π : Type) where
  called : Bool
  step : Step π

abbrev Work (π α : Type) := Task (List (Next π)) (Call π) (Answer π) Failure α

def perform (call : Call π) : Work π (Value π) := do
  let answer ← Task.call call
  Task.ofExcept answer

/-- A component in `_resolve_pipeline`. -/
def resolveBinding : Binding π → Work π (Value π)
  | .ref ref => perform (.resolve ref)
  | .object value => pure value

/-- `_resolve_pipeline`. -/
def resolvePipeline (bindings : List (Binding π)) : Work π (List (Value π)) :=
  bindings.foldlM (fun instances binding => do
    let value ← resolveBinding binding
    pure (instances ++ [value])) []

/-! ### The stages -/

section
variable (executor : PipelineExecutor π) (plan : RoutePlan π)

/-- A group of bindings, in the order global, controller, route. -/
def inOrder (group : PipelineBindings π → List (Binding π)) : List (Binding π) :=
  group executor.globalPipeline ++ group plan.controllerPipeline ++ group plan.routePipeline

/-- A guard in `_run_guards`. -/
def runGuard (guard : Value π) : Work π Unit := do
  let allowed ← perform (.canActivate guard)
  if executor.truthy allowed then pure ()
  else Task.raise (.httpException 403 "Forbidden.")

/-- `_run_guards`. -/
def runGuards : Work π Unit := do
  let guards ← resolvePipeline (inOrder executor plan (·.guards))
  guards.forM (runGuard executor)

/-- A parameter in `_bind_arguments`: its value, with the default for a missing one. -/
def bindArgument (arguments : Dict String (Value π)) (parameter : ParameterPlan π) :
    Work π (Dict String (Value π)) := do
  let value ← perform (.bind parameter)
  pure (arguments.insert parameter.name value)

def rejectBody : Work π Unit :=
  if plan.rejectsBody then do
    let _ ← perform .rejectBody
    pure ()
  else pure ()

/-- `_bind_arguments`. -/
def bindArguments : Work π (Dict String (Value π)) := do
  rejectBody plan
  plan.parameters.foldlM bindArgument ∅

/-- A pipe and a parameter in `_run_pipes`. -/
def runPipe (parameter : ParameterPlan π) (arguments : Dict String (Value π)) (pipe : Value π) :
    Work π (Dict String (Value π)) :=
  match arguments.lookup parameter.name with
  | none => Task.raise (.keyError parameter.name)
  | some value => do
    let value ← perform (.transform pipe value (plan.metadata parameter))
    pure (arguments.insert parameter.name value)

/-- A parameter in `_run_pipes`. -/
def pipeArgument (pipes : List (Value π)) (arguments : Dict String (Value π))
    (parameter : ParameterPlan π) : Work π (Dict String (Value π)) :=
  if parameter.kind = .context ∨ parameter.kind = .inject then pure arguments
  else pipes.foldlM (runPipe plan parameter) arguments

/-- `_run_pipes`. -/
def runPipes (arguments : Dict String (Value π)) : Work π (Dict String (Value π)) := do
  let pipes ← resolvePipeline (inOrder executor plan (·.pipes))
  plan.parameters.foldlM (pipeArgument plan pipes) arguments

/-- `_handler_result`. -/
def handlerResult (arguments : Dict String (Value π)) : Work π (Value π) := do
  let result ← perform (.handler arguments)
  pure result.fromValue

def allocate (step : Step π) : Work π Nat := do
  let next ← Task.read List.length
  Task.modify fun cells => cells ++ [⟨false, step⟩]
  pure next

/-- `dispatch` of `_run_interceptors`. -/
def dispatchInterceptors (arguments : Dict String (Value π)) : List (Value π) → Work π (Value π)
  | [] => handlerResult arguments
  | interceptor :: rest => do
    let next ← allocate (.interceptors rest arguments)
    let result ← perform (.intercept interceptor next)
    Task.ofExcept (executor.transport.normalizeResult result)

/-- `_run_interceptors`. -/
def runInterceptors (arguments : Dict String (Value π)) : Work π (Value π) := do
  let interceptors ← resolvePipeline (inOrder executor plan (·.interceptors))
  dispatchInterceptors executor arguments interceptors

/-- `terminal` of `_run_middleware`. -/
def terminal : Work π (Value π) := do
  runGuards executor plan
  let arguments ← bindArguments plan
  let arguments ← runPipes executor plan arguments
  runInterceptors executor plan arguments

/-- `dispatch` of `_run_middleware`. -/
def dispatchMiddleware : List (Value π) → Work π (Value π)
  | [] => terminal executor plan
  | middleware :: rest => do
    let next ← allocate (.middleware rest)
    let result ← perform (.handle middleware next)
    Task.ofExcept (executor.transport.normalizeResult result)

/-- `_run_middleware`. -/
def runMiddleware : Work π (Value π) := do
  let middleware ← resolvePipeline (inOrder executor plan (·.middleware))
  dispatchMiddleware executor plan middleware

/-- `_run_handler`. -/
def runHandler : Work π (Value π) := do
  let arguments ← bindArguments plan
  handlerResult arguments

/-- `dispatch(index + 1)`, for either of the two. -/
def dispatch : Step π → Work π (Value π)
  | .middleware rest => dispatchMiddleware executor plan rest
  | .interceptors rest arguments => dispatchInterceptors executor arguments rest

/-- `next_once` with its cell. A callback that is not there is not called. -/
def callNext (next : Nat) : Option (Next π) → Work π (Value π)
  | none => Task.raise (.keyError "next")
  | some cell =>
    if cell.called then Task.raise (.pipelineState "pipeline next callback was called twice")
    else do
      Task.modify fun cells => cells.set next { cell with called := true }
      dispatch executor plan cell.step

/-- `next_once`. -/
def nextOnce (next : Nat) : Work π (Value π) := do
  let cell ← Task.read (·[next]?)
  callNext executor plan next cell

/-! ### Exceptions -/

/-- What `catch` returned, if it is a valid result. -/
def filterResult (result : Value π) : Except Failure (Value π) :=
  match result with
  | .pipelineResult value isResponse => .ok (.pipelineResult value isResponse)
  | result => do
    match ← executor.transport.nativeResponseResult result with
    | some native => .ok native
    | none => .error (.typeError "exception filter must return PipelineResult")

/-- A filter in `_handle_exception`. -/
def runFilter (error : Failure) (binding : Binding π) : Work π (Value π) := do
  let filter ← resolveBinding binding
  let result ← perform (.catch filter error)
  Task.ofExcept (filterResult executor result)

/-- The loop of `_handle_exception`. -/
def runFilters (error : Failure) : List (Binding π) → Work π (Value π)
  | [] => Task.ofExcept (executor.transport.renderException error)
  | binding :: bindings => do
    match ← (runFilter executor error binding).attempt with
    | .ok result => pure result
    | .error filterError =>
      if executor.fatal filterError then Task.raise filterError else runFilters error bindings

/-- The filters, in the order route, controller, global. -/
def filters : List (Binding π) :=
  plan.routePipeline.filters ++ plan.controllerPipeline.filters ++ executor.globalPipeline.filters

/-- `_handle_exception`. -/
def handleException (error : Failure) : Work π (Value π) :=
  if executor.transport.isAbortException error then Task.raise error
  else runFilters executor error (filters executor plan)

/-- `_render_exception`, with `_render_emergency`. -/
def renderException (error : Failure) : Work π (Value π) := do
  match ← (do
      let result ← handleException executor plan error
      perform (.encodeResult result)).attempt with
  | .ok response => pure response
  | .error renderError =>
    if executor.fatal renderError then Task.raise renderError
    else Task.ofExcept executor.transport.renderEmergency

/-- The handlers of `run`. -/
def recover (error : Failure) : Work π (Value π) :=
  if executor.fatal error then Task.raise error else renderException executor plan error

def runStages : Work π (Value π) :=
  if plan.hasExecutionPipeline then runMiddleware executor plan else runHandler plan

/-- The first block of `run`. -/
def runPipeline (validates : Bool) : Work π (Value π) := do
  let result ← runStages executor plan
  if validates then do
    let _ ← perform .validateResult
    pure result
  else pure result

/-- `run`. The validation of the result is optional. -/
def run (validates : Bool) : Work π (Value π) := do
  match ← (runPipeline executor plan validates).attempt with
  | .error error => recover executor plan error
  | .ok result => do
    match ← (perform (.encodeResult result)).attempt with
    | .ok response => pure response
    | .error error => recover executor plan error

end

/-! ### A request -/

/-- An activation: the calls it has made with their answers, and what is left of it. -/
structure Activation (π : Type) where
  trace : List (Call π × Answer π) := []
  task : Work π (Value π)

/-- An entry of the log of a request. -/
inductive Entry (π : Type) where
  | made (call : Call π)
  | answered (call : Call π) (answer : Answer π)

/-- A request: the cells of the callbacks, the activations with `run` in the first place, and the log
of all calls. -/
structure Request (π : Type) where
  cells : List (Next π) := []
  activations : List (Activation π) := []
  log : List (Entry π) := []

/-- What happens next. -/
inductive Event (π : Type) where
  | answer (index : Nat) (answer : Answer π)
  | next (cell : Nat)

def pending : Work π (Value π) → List (Entry π)
  | .await call _ => [.made call]
  | _ => []

namespace Request

def resume (request : Request π) (index : Nat) (trace : List (Call π × Answer π))
    (task : Work π (Value π)) : Request π :=
  let ahead := task.advance request.cells
  { cells := ahead.2
    activations := request.activations.set index ⟨trace, ahead.1⟩
    log := request.log ++ pending ahead.1 }

def activate (request : Request π) (task : Work π (Value π)) : Request π :=
  let added : Request π := { request with activations := request.activations ++ [{ task }] }
  added.resume request.activations.length [] task

section
variable (executor : PipelineExecutor π) (plan : RoutePlan π) (validates : Bool)

def arrive : Request π := ({} : Request π).activate (run executor plan validates)

/-- One step of a request: a call is answered, or a component calls a callback that it was given. -/
def step (request : Request π) : Event π → Option (Request π)
  | .answer index answer =>
    match request.activations[index]? with
    | some ⟨trace, .await call next⟩ =>
      let answered : Request π := { request with log := request.log ++ [.answered call answer] }
      some (answered.resume index (trace ++ [(call, answer)]) (next answer))
    | _ => none
  | .next cell =>
    match request.cells[cell]? with
    | some _ => some (request.activate (nextOnce executor plan cell))
    | none => none

end

end Request

end ToriPy.Http
