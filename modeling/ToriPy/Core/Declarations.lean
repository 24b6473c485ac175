import ToriPy.Base.Except

/-!
# Provider and module declarations

The declarations of `core/providers.py` and `core/modules.py`, and what `core/compiler.py` reads off
a single declaration: the dependencies of its constructor or factory and its construction recipe.

A class, a factory and a value are known by their identity; what `inspect` and `get_type_hints` say
of them is part of the declaration.
-/

namespace ToriPy.Core

/-- A class: its identity and its `__qualname__`. -/
structure Class where
  address : Nat
  qualname : String
deriving DecidableEq

/-- `Token`. -/
inductive Token where
  | text (name : String)
  | cls (target : Class)
deriving DecidableEq

/-- `_token_label`. -/
def Token.label : Token → String
  | .text name => name
  | .cls target => target.qualname

/-- `ModuleId`. -/
structure ModuleId where
  module : Class
  key : Option String := none
deriving DecidableEq

/-- `_module_label`. -/
def ModuleId.label (moduleId : ModuleId) : String :=
  match moduleId.key with
  | none => moduleId.module.qualname
  | some key => moduleId.module.qualname ++ ":" ++ key

/-- `ProviderRef`. -/
structure ProviderRef where
  moduleId : ModuleId
  token : Token
deriving DecidableEq

/-- `_provider_label`. -/
def ProviderRef.label (ref : ProviderRef) : String := ref.moduleId.label ++ "::" ++ ref.token.label

/-- A value among the details of an error. -/
inductive Detail where
  | text (value : String)
  | path (labels : List String)
deriving DecidableEq

/-- `BootstrapError`. -/
structure BootstrapError where
  message : String
  code : String
  details : List (String × Detail) := []
deriving DecidableEq

/-- `Scope`. -/
inductive Scope where
  | singleton
  | request
  | transient
deriving DecidableEq

def Scope.value : Scope → String
  | .singleton => "singleton"
  | .request => "request"
  | .transient => "transient"

/-- `WorkScopeFactory`. -/
def workScopeFactory : Class := ⟨0, "WorkScopeFactory"⟩

/-- `_INTRINSIC_DEPENDENCIES`. -/
def intrinsicDependencies : List Token :=
  [.cls workScopeFactory, .cls ⟨1, "ModulesContainer"⟩, .cls ⟨2, "DiscoveryService"⟩,
    .cls ⟨3, "Reflector"⟩]

/-! ### Declarations -/

/-- The annotation of a parameter: the class it is, if it is one, and its `Inject` markers. -/
structure Annotation where
  cls : Option Class := none
  markers : List Token := []
deriving DecidableEq

/-- A parameter of a constructor or factory. -/
structure Parameter where
  name : String
  variadic : Bool := false
  annotation : Annotation
  hasDefault : Bool := false
deriving DecidableEq

/-- A binding of `use_method_interceptors`: a token or an object. -/
inductive Interceptor where
  | token (token : Token)
  | object (address : Nat)
deriving DecidableEq

/-- A method of a class, the last definition along the resolution order. -/
structure Method where
  name : String
  coroutine : Bool
  interceptors : List Interceptor
deriving DecidableEq

/-- `ProviderDeclaration`. The parameters are missing where they cannot be inspected. -/
inductive Declaration where
  | value (token : Token) (object : Nat) (manage : Bool)
  | cls (token : Token) (useClass : Class) (parameters : Option (List Parameter)) (scope : Scope)
      (manage proxy : Bool) (methods : List Method)
  | factory (token : Token) (callable : Nat) (parameters : Option (List Parameter)) (scope : Scope)
      (manage coroutine : Bool)
  | alias (token target : Token)
deriving DecidableEq

namespace Declaration

def token : Declaration → Token
  | .value token .. => token
  | .cls token .. => token
  | .factory token .. => token
  | .alias token _ => token

def scope : Declaration → Scope
  | .value .. => .singleton
  | .cls _ _ _ scope .. => scope
  | .factory _ _ _ scope .. => scope
  | .alias .. => .singleton

def proxy : Declaration → Bool
  | .cls _ _ _ _ _ proxy _ => proxy
  | _ => false

def target : Declaration → Option Token
  | .alias _ target => some target
  | _ => none

end Declaration

/-- `_validate_provider_token`. -/
def validateProviderToken (token : Token) : Except BootstrapError Unit :=
  require (token ∉ intrinsicDependencies)
    ⟨token.label ++ " is a reserved framework dependency", "provider.reserved_token", []⟩

/-! ### Dependencies -/

/-- `DependencyPlan`. -/
structure DependencyPlan where
  parameterName : String
  token : Option Token
  hasDefault : Bool
  providerRef : Option ProviderRef := none
deriving DecidableEq

/-- `_annotation_token`. -/
def annotationToken (given : Annotation) : Except BootstrapError (Option Token × Bool) :=
  match given.markers with
  | [] => .ok (given.cls.map .cls, false)
  | [token] => .ok (some token, true)
  | _ => .error ⟨"multiple Inject markers are invalid", "provider.invalid_signature", []⟩

/-- One round of the loop of `_compile_dependencies`. -/
def compileDependency (parameter : Parameter) : Except BootstrapError DependencyPlan := do
  require (parameter.variadic = false)
    ⟨"variadic provider parameter " ++ parameter.name ++ " is not injectable",
      "provider.invalid_signature", []⟩
  let (token, explicit) ← annotationToken parameter.annotation
  require (token.isSome = true ∨ parameter.hasDefault = true)
    ⟨"required provider parameter " ++ parameter.name ++ " is unannotated",
      "provider.invalid_signature", []⟩
  .ok {
    parameterName := parameter.name
    token := if parameter.hasDefault && !explicit then none else token
    hasDefault := parameter.hasDefault }

/-- The loop of `_compile_dependencies`. -/
def compileParameters : Option (List Parameter) → Except BootstrapError (List DependencyPlan)
  | none => .error ⟨"provider annotations could not be compiled", "provider.invalid_signature", []⟩
  | some parameters => parameters.mapM compileDependency

/-- `_compile_dependencies`. -/
def compileDependencies : Declaration → Except BootstrapError (List DependencyPlan)
  | .value .. => .ok []
  | .cls _ _ parameters .. => compileParameters parameters
  | .factory _ _ parameters .. => compileParameters parameters
  | .alias .. => .ok []

/-! ### Recipes -/

/-- `AwaitPolicy`. -/
inductive AwaitPolicy where
  | never
  | always
  | ifAwaitable
deriving DecidableEq

/-- `DependencySource`. -/
structure DependencySource where
  parameterName : String
  providerRef : Option ProviderRef := none
  intrinsic : Option Token := none
deriving DecidableEq

/-- What a recipe calls. -/
inductive Invoker where
  | value (object : Nat)
  | cls (useClass : Class)
  | factory (callable : Nat)
  | uncanonicalizedAlias
deriving DecidableEq

/-- `ConstructionRecipe`. -/
structure ConstructionRecipe where
  invoker : Invoker
  dependencies : List DependencySource
  awaitPolicy : AwaitPolicy
  manage : Bool
deriving DecidableEq

def DependencyPlan.source (dependency : DependencyPlan) : DependencySource where
  parameterName := dependency.parameterName
  providerRef := dependency.providerRef
  intrinsic := dependency.token.filter (· ∈ intrinsicDependencies)

/-- `_compile_recipe`. -/
def compileRecipe (declaration : Declaration) (dependencies : List DependencyPlan) :
    ConstructionRecipe :=
  match declaration with
  | .value _ object manage =>
    ⟨.value object, dependencies.map (·.source), .never, manage⟩
  | .cls _ useClass _ _ manage _ _ =>
    ⟨.cls useClass, dependencies.map (·.source), .never, manage⟩
  | .factory _ callable _ _ manage coroutine =>
    ⟨.factory callable, dependencies.map (·.source), if coroutine then .always else .ifAwaitable,
      manage⟩
  | .alias .. => ⟨.uncanonicalizedAlias, [], .never, false⟩

/-! ### Modules -/

/-- `DeferredModule`: the identity of the descriptor, its module and its key. -/
structure DeferredModule where
  address : Nat
  module : Class
  key : String
deriving DecidableEq

/-- `ModuleImport`. -/
inductive ModuleImport where
  | static (module : Class)
  | deferred (descriptor : DeferredModule)
deriving DecidableEq

/-- A controller: its class, as `ClassProvider(controller, controller)` inspects it. -/
structure Controller where
  cls : Class
  parameters : Option (List Parameter)
  methods : List Method := []
deriving DecidableEq

def Controller.declaration (controller : Controller) : Declaration :=
  .cls (.cls controller.cls) controller.cls controller.parameters .singleton true false
    controller.methods

/-- `ModuleSpec`, with normalized providers. -/
structure ModuleSpec where
  imports : List ModuleImport := []
  providers : List Declaration := []
  controllers : List Controller := []
  exports : List Token := []
  isGlobal : Bool := false
deriving DecidableEq

/-- `ProviderPlan`. -/
structure ProviderPlan where
  key : ProviderRef
  declaration : Declaration
  dependencies : List DependencyPlan
  scope : Scope
  canonical : ProviderRef
  recipe : ConstructionRecipe
  proxy : Bool
  methodInterceptors : List (String × List (ProviderRef ⊕ Nat)) := []
deriving DecidableEq

def planOf (ref : ProviderRef) (declaration : Declaration) : Except BootstrapError ProviderPlan := do
  let dependencies ← compileDependencies declaration
  .ok {
    key := ref
    declaration
    dependencies
    scope := declaration.scope
    canonical := ref
    recipe := compileRecipe declaration dependencies
    proxy := declaration.proxy }

/-- `ModulePlan`. -/
structure ModulePlan where
  moduleId : ModuleId
  spec : ModuleSpec
  imports : List ModuleId
  providers : List ProviderPlan
deriving DecidableEq

/-- The providers of a module and the modules that it imports. -/
def ModulePlan.edge (plan : ModulePlan) : ModuleId × List ModuleId := (plan.moduleId, plan.imports)

/-- `local_refs[module_id].get(token)`. -/
def ModulePlan.localRef (plan : ModulePlan) (token : Token) : Option ProviderRef :=
  (plan.providers.find? (·.key.token = token)).map (·.key)

end ToriPy.Core
