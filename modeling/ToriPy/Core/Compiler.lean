import ToriPy.Core.Visibility

/-!
# The graph compiler

`_Compiler` of `core/compiler.py`: the discovery of the modules by a depth-first search, the plans of
their providers, and the passes of `_finish`: fallback providers, visibility, canonical providers of
aliases, compiled dependencies, method interceptors, the cycle check, the check of the scopes along
all dependency paths, and the provider order.

The recursions take fuel. Where the graph is finite the fuel is its size; the discovery, whose
modules are made by arbitrary factories, gets it as an argument. Running out of it is a result of its
own, `CompileError.recursion`, and so is a key that is missing from a dictionary.
-/

namespace ToriPy.Core

open List
open DepthFirst

/-- What the compiler raises. -/
inductive CompileError where
  | raised (error : BootstrapError)
  | missing
  | recursion

/-- `dict[key]`. -/
def subscript {α : Type} : Option α → Except CompileError α
  | none => .error .missing
  | some a => .ok a

/-- A pass that raises only `BootstrapError`. -/
def pass {α : Type} (x : Except BootstrapError α) : Except CompileError α :=
  x.mapError .raised

/-! ### Discovery -/

/-- What is declared: the metadata of module classes and the factories of deferred modules, both
with their constructor checked and their providers normalized and transformed, the import resolver,
and the fallback collector. -/
structure Program where
  metadata : Class → Except BootstrapError ModuleSpec
  materialize : DeferredModule → Except BootstrapError ModuleSpec
  importResolver : ModuleImport → ModuleImport := id
  fallbackProviders : ModuleId → ModuleSpec → Bool → List Declaration := fun _ _ _ => []

/-- The tables of `_Compiler`: the nodes, and the descriptors by their identity. -/
structure Tables where
  nodes : List (ModuleId × ModuleSpec) := []
  descriptors : List DeferredModule := []

namespace Program

variable (program : Program)

/-- `_ensure_static`. -/
def ensureStatic (tables : Tables) (module : Class) : Except BootstrapError (ModuleId × Tables) :=
  match tables.nodes.lookup ⟨module, none⟩ with
  | some _ => .ok (⟨module, none⟩, tables)
  | none => do
    require (∀ descriptor ∈ tables.descriptors, descriptor.module ≠ module)
      ⟨"static module " ++ module.qualname ++ " conflicts with a dynamic module",
        "module.static_dynamic_conflict", []⟩
    let spec ← program.metadata module
    .ok (⟨module, none⟩, { tables with nodes := tables.nodes ++ [(⟨module, none⟩, spec)] })

/-- The part of `_ensure_dynamic` for a descriptor that is new. -/
def addDynamic (tables : Tables) (descriptor : DeferredModule) :
    Except BootstrapError (ModuleId × Tables) := do
  require ((tables.nodes.lookup ⟨descriptor.module, none⟩).isNone = true)
    ⟨"dynamic module conflicts with static form", "module.static_dynamic_conflict", []⟩
  let spec ← program.materialize descriptor
  .ok (⟨descriptor.module, some descriptor.key⟩, {
    nodes := tables.nodes ++ [(⟨descriptor.module, some descriptor.key⟩, spec)]
    descriptors := tables.descriptors ++ [descriptor] })

/-- `_ensure_dynamic`. -/
def ensureDynamic (tables : Tables) (descriptor : DeferredModule) :
    Except BootstrapError (ModuleId × Tables) :=
  match tables.descriptors.find? fun known =>
      known.module = descriptor.module ∧ known.key = descriptor.key with
  | some known => do
    require (known = descriptor)
      ⟨"different deferred descriptors use the same module identity", "module.dynamic_conflict",
        [("module", .text descriptor.module.qualname), ("key", .text descriptor.key)]⟩
    .ok (⟨descriptor.module, some descriptor.key⟩, tables)
  | none => program.addDynamic tables descriptor

/-- `_ensure_import`. -/
def ensureImport (tables : Tables) (imported : ModuleImport) :
    Except BootstrapError (ModuleId × Tables) :=
  match program.importResolver imported with
  | .static module => program.ensureStatic tables module
  | .deferred descriptor => program.ensureDynamic tables descriptor

/-- The modules as `_visit` finds them. -/
def explorer : Explorer Tables ModuleImport ModuleId BootstrapError where
  links tables moduleId := ((tables.nodes.lookup moduleId).map (·.imports)).getD []
  follow := program.ensureImport

def moduleStop : Stop ModuleId BootstrapError → CompileError
  | .failed error => .raised error
  | .cycle path => .raised ⟨"cyclic module import detected", "module.cycle",
      [("path", .path (path.map (·.label)))]⟩
  | .exhausted => .recursion

/-- The search of `compile`: the identity of the root, and the modules in dependency-first order. -/
def discover (fuel : Nat) (root : ModuleImport) :
    Except CompileError (ModuleId × Progress Tables ModuleId) := do
  let (rootId, tables) ← pass (program.ensureImport {} root)
  let progress ← (visit program.explorer fuel [] { state := tables } rootId).mapError moduleStop
  .ok (rootId, progress)

end Program

/-! ### Plans of modules -/

/-- A controller among the declarations of its module. -/
def addController (declarations : List Declaration) (controller : Controller) :
    Except BootstrapError (List Declaration) :=
  match declarations.find? (·.token = .cls controller.cls) with
  | none => .ok (declarations ++ [controller.declaration])
  | some existing =>
    if existing.scope = .singleton then
      .error ⟨"duplicate provider token " ++ controller.cls.qualname, "provider.duplicate", []⟩
    else
      .error ⟨"controllers must be singleton providers", "controller.invalid_declaration",
        [("controller", .text controller.cls.qualname)]⟩

/-- One round of the loop over the declarations of a module. -/
def addProvider (moduleId : ModuleId) (plans : List ProviderPlan) (declaration : Declaration) :
    Except BootstrapError (List ProviderPlan) := do
  validateProviderToken declaration.token
  require (declaration.token ∉ plans.map (·.key.token))
    ⟨"duplicate provider token " ++ declaration.token.label, "provider.duplicate",
      [("module", .text moduleId.label)]⟩
  let plan ← planOf ⟨moduleId, declaration.token⟩ declaration
  .ok (plans ++ [plan])

def modulePlan (nodes : List (ModuleId × ModuleSpec)) (edge : ModuleId × List ModuleId) :
    Except CompileError ModulePlan := do
  let spec ← subscript (nodes.lookup edge.1)
  let declarations ← pass (spec.controllers.foldlM addController spec.providers)
  let providers ← pass (declarations.foldlM (addProvider edge.1) [])
  .ok { moduleId := edge.1, spec, imports := edge.2, providers }

/-- `_has_visible_provider`. -/
def hasVisibleProvider (plans : List ModulePlan) (plan : ModulePlan) (token : Token) :
    Except BootstrapError Bool :=
  match resolveVisible plans plan token with
  | .ok _ => .ok true
  | .error error => if error.code = "provider.unresolved" then .ok false else .error error

def appendProvider (plans : List ModulePlan) (moduleId : ModuleId) (provider : ProviderPlan) :
    List ModulePlan :=
  plans.map fun plan =>
    if plan.moduleId = moduleId then { plan with providers := plan.providers ++ [provider] } else plan

/-- A fallback that is not visible becomes a provider of its module. -/
def placeFallback (plans : List ModulePlan) (moduleId : ModuleId) (declaration : Declaration) :
    Bool → Except BootstrapError (List ModulePlan)
  | true => .ok plans
  | false => do
    let provider ← planOf ⟨moduleId, declaration.token⟩ declaration
    .ok (appendProvider plans moduleId provider)

def addFallback (moduleId : ModuleId) (plans : List ModulePlan) (declaration : Declaration) :
    Except CompileError (List ModulePlan) := do
  pass (validateProviderToken declaration.token)
  let plan ← subscript (findPlan plans moduleId)
  let visible ← pass (hasVisibleProvider plans plan declaration.token)
  pass (placeFallback plans moduleId declaration visible)

def addFallbacks (program : Program) (rootId : ModuleId) (plans : List ModulePlan)
    (listed : ModulePlan) : Except CompileError (List ModulePlan) :=
  (program.fallbackProviders listed.moduleId listed.spec (listed.moduleId = rootId)).foldlM
    (addFallback listed.moduleId) plans

/-- The plans of `_finish` before visibility. -/
def modulePlans (program : Program) (rootId : ModuleId) (progress : Progress Tables ModuleId) :
    Except CompileError (List ModulePlan) := do
  let plans ← progress.finished.mapM (modulePlan progress.state.nodes)
  plans.foldlM (addFallbacks program rootId) plans

/-! ### Canonical providers -/

abbrev Visibility := List ((ModuleId × Token) × ProviderRef)

/-- `provider_map.get(ref)`. -/
def findProvider (providers : List ProviderPlan) (ref : ProviderRef) : Option ProviderPlan :=
  providers.find? (·.key = ref)

/-- What `_canonical_provider` raises for a cycle. -/
def aliasCycle (path : List ProviderRef) : CompileError :=
  .raised ⟨"provider alias cycle detected", "provider.alias_cycle",
    [("path", .path (path.map (·.label)))]⟩

/-- `_canonical_provider`, with the cache that it leaves. -/
def canonicalProvider (providers : List ProviderPlan) (visibility : Visibility) :
    Nat → List (ProviderRef × ProviderRef) → List ProviderRef → ProviderRef →
      Except CompileError (ProviderRef × List (ProviderRef × ProviderRef))
  | 0, _, _, _ => .error .recursion
  | fuel + 1, cache, stack, ref =>
    match cache.lookup ref with
    | some cached => .ok (cached, cache)
    | none => do
      let plan ← subscript (findProvider providers ref)
      match plan.declaration.target with
      | none => .ok (ref, (ref, ref) :: cache)
      | some token =>
        match visibility.lookup (ref.moduleId, token) with
        | none => .error (.raised ⟨"unresolved alias target " ++ token.label,
            "provider.unresolved", []⟩)
        | some target =>
          if ref ∈ stack ∨ target ∈ stack then .error (aliasCycle (stack ++ [ref, target]))
          else do
            let (canonical, cache) ←
              canonicalProvider providers visibility fuel cache (stack ++ [ref]) target
            .ok (canonical, (ref, canonical) :: cache)

def cacheCanonical (providers : List ProviderPlan) (visibility : Visibility)
    (cache : List (ProviderRef × ProviderRef)) (plan : ProviderPlan) :
    Except CompileError (List (ProviderRef × ProviderRef)) := do
  let (canonical, cache) ←
    canonicalProvider providers visibility (providers.length + 1) cache [] plan.key
  .ok ((plan.key, canonical) :: cache)

/-- `canonical_cache`. -/
def canonicalCache (providers : List ProviderPlan) (visibility : Visibility) :
    Except CompileError (List (ProviderRef × ProviderRef)) :=
  providers.foldlM (cacheCanonical providers visibility) []

/-! ### Dependencies -/

/-- `_visible_ref`. -/
def visibleRef (plans : List ModulePlan) (visibility : Visibility) (moduleId : ModuleId)
    (token : Token) : Except CompileError ProviderRef :=
  match visibility.lookup (moduleId, token) with
  | some ref => .ok ref
  | none => do
    let plan ← subscript (findPlan plans moduleId)
    pass (resolveVisible plans plan token)

def dependencyRef (plans : List ModulePlan) (visibility : Visibility)
    (cache : List (ProviderRef × ProviderRef)) (moduleId : ModuleId) :
    Option Token → Except CompileError (Option ProviderRef)
  | none => .ok none
  | some token =>
    if token ∈ intrinsicDependencies then .ok none
    else do
      let ref ← visibleRef plans visibility moduleId token
      let canonical ← subscript (cache.lookup ref)
      .ok (some canonical)

def linkDependency (plans : List ModulePlan) (visibility : Visibility)
    (cache : List (ProviderRef × ProviderRef)) (moduleId : ModuleId) (dependency : DependencyPlan) :
    Except CompileError DependencyPlan := do
  let providerRef ← dependencyRef plans visibility cache moduleId dependency.token
  .ok { dependency with providerRef }

/-- A plan with its dependencies, its canonical provider and the scope of that. The scope of a
canonical plan is not changed by the loop. -/
def linkProvider (plans : List ModulePlan) (visibility : Visibility)
    (cache : List (ProviderRef × ProviderRef)) (providers : List ProviderPlan) (plan : ProviderPlan) :
    Except CompileError ProviderPlan := do
  let dependencies ← plan.dependencies.mapM
    (linkDependency plans visibility cache plan.key.moduleId)
  let canonical ← subscript (cache.lookup plan.key)
  let canonicalPlan ← subscript (findProvider providers canonical)
  .ok { plan with
    dependencies
    scope := canonicalPlan.scope
    canonical
    recipe := compileRecipe plan.declaration dependencies }

/-! ### Method interceptors -/

def qualifyInterceptor (visibility : Visibility) (cache : List (ProviderRef × ProviderRef))
    (ref : ProviderRef) (name : String) :
    Interceptor → Except CompileError (ProviderRef ⊕ Nat)
  | .object address => .ok (.inr address)
  | .token token =>
    match visibility.lookup (ref.moduleId, token) with
    | none => .error (.raised ⟨"method interceptor provider is not visible from its owner",
        "provider.unresolved", [("provider", .text ref.token.label), ("method", .text name),
          ("interceptor", .text token.label)]⟩)
    | some visible => do
      let canonical ← subscript (cache.lookup visible)
      .ok (.inl canonical)

def compileMethod (visibility : Visibility) (cache : List (ProviderRef × ProviderRef))
    (ref : ProviderRef) (proxy : Bool) (method : Method) :
    Except CompileError (String × List (ProviderRef ⊕ Nat)) := do
  pass (require (proxy = true)
    ⟨"method interceptors require proxy=True on the class provider", "provider.invalid_declaration",
      [("provider", .text ref.token.label), ("method", .text method.name)]⟩)
  pass (require (method.name.startsWith "_" = false ∧ method.coroutine = true)
    ⟨"method interceptors require public async methods", "provider.invalid_declaration",
      [("provider", .text ref.token.label), ("method", .text method.name)]⟩)
  let qualified ← method.interceptors.mapM (qualifyInterceptor visibility cache ref method.name)
  .ok (method.name, qualified)

/-- `_compile_method_interceptors`. -/
def compileMethodInterceptors (visibility : Visibility) (cache : List (ProviderRef × ProviderRef))
    (ref : ProviderRef) : Declaration → Except CompileError (List (String × List (ProviderRef ⊕ Nat)))
  | .cls _ _ _ _ _ proxy methods =>
    (methods.filter (·.interceptors ≠ [])).mapM (compileMethod visibility cache ref proxy)
  | _ => .ok []

def interceptProvider (visibility : Visibility) (cache : List (ProviderRef × ProviderRef))
    (plan : ProviderPlan) : Except CompileError ProviderPlan :=
  if plan.canonical = plan.key then do
    let methodInterceptors ← compileMethodInterceptors visibility cache plan.key plan.declaration
    .ok { plan with methodInterceptors }
  else .ok plan

/-- The recipe of an alias is that of its canonical plan. -/
def shareRecipe (providers : List ProviderPlan) (plan : ProviderPlan) :
    Except CompileError ProviderPlan :=
  if plan.canonical = plan.key then .ok plan
  else do
    let canonicalPlan ← subscript (findProvider providers plan.canonical)
    .ok { plan with
      recipe := canonicalPlan.recipe
      proxy := canonicalPlan.proxy
      methodInterceptors := canonicalPlan.methodInterceptors }

def linkProviders (plans : List ModulePlan) (visibility : Visibility)
    (providers : List ProviderPlan) : Except CompileError (List ProviderPlan) := do
  let cache ← canonicalCache providers visibility
  let linked ← providers.mapM (linkProvider plans visibility cache providers)
  let intercepted ← linked.mapM (interceptProvider visibility cache)
  intercepted.mapM (shareRecipe intercepted)

/-! ### Edges -/

/-- The edges of one provider in `_provider_edges`. -/
def providerEdges (providers : List ProviderPlan) (visibility : Visibility) (plan : ProviderPlan) :
    Except CompileError (ProviderRef × List ProviderRef) :=
  match plan.declaration.target with
  | some token => do
    let target ← subscript (visibility.lookup (plan.key.moduleId, token))
    let targetPlan ← subscript (findProvider providers target)
    .ok (plan.key, [targetPlan.canonical])
  | none => .ok (plan.key, plan.dependencies.filterMap (·.providerRef))

/-- `edges.get(ref, ())`. -/
def edgesOf (edges : List (ProviderRef × List ProviderRef)) (ref : ProviderRef) : List ProviderRef :=
  (edges.lookup ref).getD []

/-- What `_validate_provider_cycles` raises when its search stops. -/
def providerStop (providers : List ProviderPlan) : Stop ProviderRef Empty → CompileError
  | .failed error => nomatch error
  | .cycle path =>
    let cycle := path.drop (path.idxOf (path.getLastD ⟨⟨⟨0, ""⟩, none⟩, .text ""⟩))
    let hasAlias := cycle.any fun ref =>
      ((findProvider providers ref).bind (·.declaration.target)).isSome
    .raised ⟨"provider dependency cycle detected",
      if hasAlias then "provider.alias_cycle" else "provider.cycle",
      [("path", .path (cycle.map (·.label)))]⟩
  | .exhausted => .recursion

/-- `_validate_provider_cycles`. -/
def validateProviderCycles (edges : List (ProviderRef × List ProviderRef))
    (providers : List ProviderPlan) : Except CompileError (Progress Unit ProviderRef) :=
  ((edges.map Prod.fst).foldlM (visit (static (edgesOf edges)) (edges.length + 1) []) ⟨(), []⟩).mapError
    (providerStop providers)

/-- What `_validate_scope_paths` raises. -/
def scopeViolation (providers : List ProviderPlan) (path : List ProviderRef) : CompileError :=
  .raised ⟨"singleton provider reaches request-scoped provider", "provider.scope_violation",
    [("path", .path (path.map (·.label))),
     ("scopes", .path (path.filterMap fun ref =>
        (findProvider providers ref).map (·.scope.value)))]⟩

/-- The inner function of `_validate_scope_paths`. -/
def visitScopes (edges : List (ProviderRef × List ProviderRef)) (providers : List ProviderPlan) :
    Nat → ProviderRef → List ProviderRef → Except CompileError Unit
  | 0, _, _ => .error .recursion
  | fuel + 1, ref, path =>
    (edgesOf edges ref).forM fun dependency => do
      let plan ← subscript (findProvider providers dependency)
      if plan.scope = .request then .error (scopeViolation providers (path ++ [dependency]))
      else visitScopes edges providers fuel dependency (path ++ [dependency])

/-- `_validate_scope_paths`. -/
def validateScopePaths (edges : List (ProviderRef × List ProviderRef))
    (providers : List ProviderPlan) : Except CompileError Unit :=
  (providers.filter (·.scope = .singleton)).forM fun plan =>
    visitScopes edges providers (edges.length + 1) plan.key [plan.key]

/-- The inner function of `_provider_order`: what is visited, and the result. -/
def visitOrder (edges : List (ProviderRef × List ProviderRef)) :
    Nat → List ProviderRef × List ProviderRef → ProviderRef →
      Except CompileError (List ProviderRef × List ProviderRef)
  | 0, _, _ => .error .recursion
  | fuel + 1, (visited, result), ref =>
    if ref ∈ visited then .ok (visited, result)
    else do
      let (visited, result) ←
        (edgesOf edges ref).foldlM (visitOrder edges fuel) (ref :: visited, result)
      .ok (visited, result ++ [ref])

/-- `_provider_order`. -/
def providerOrder (edges : List (ProviderRef × List ProviderRef)) (plans : List ModulePlan) :
    Except CompileError (List ProviderRef) := do
  let (_, result) ← ((plans.flatMap (·.providers)).map (·.key)).foldlM
    (visitOrder edges (edges.length + 1)) ([], [])
  .ok result

/-! ### The compiled graph -/

/-- `CompiledGraph`. -/
structure CompiledGraph where
  root : ModuleId
  modules : List ModulePlan
  providers : List ProviderPlan
  visibility : Visibility
  providerOrder : List ProviderRef

/-- `_finish`, from the plans of the modules on. -/
def finish (rootId : ModuleId) (plans : List ModulePlan) : Except CompileError CompiledGraph := do
  let visibility ← pass (compileVisibility plans)
  let providers ← linkProviders plans visibility (plans.flatMap (·.providers))
  let edges ← providers.mapM (providerEdges providers visibility)
  let _ ← validateProviderCycles edges providers
  validateScopePaths edges providers
  let providerOrder ← providerOrder edges plans
  let modules ← plans.mapM fun plan => do
    let listed ← plan.providers.mapM fun provider => subscript (findProvider providers provider.key)
    .ok { plan with providers := listed }
  .ok { root := rootId, modules, providers, visibility, providerOrder }

/-- `compile_graph`. -/
def compileGraph (program : Program) (fuel : Nat) (root : ModuleImport) :
    Except CompileError CompiledGraph := do
  let (rootId, progress) ← program.discover fuel root
  let plans ← modulePlans program rootId progress
  finish rootId plans

/-! ### The graph of the modules -/

lemma subscript_ok {α : Type} {x : Option α} {a} : subscript x = .ok a ↔ x = some a := by
  cases x <;> simp [subscript]

lemma pass_ok {α : Type} {x : Except BootstrapError α} {a : α} : pass x = .ok a ↔ x = .ok a :=
  mapError_ok

variable {declaration : Declaration}

lemma planOf_key {ref plan} (h : planOf ref declaration = .ok plan) : plan.key = ref := by
  obtain ⟨_, -, h⟩ := bind_ok.mp h
  cases h
  rfl

/-- The providers of a module: they are its own, one for a token. -/
def OwnProviders (moduleId : ModuleId) (providers : List ProviderPlan) : Prop :=
  (∀ provider ∈ providers, provider.key.moduleId = moduleId) ∧
    (providers.map (·.key.token)).Nodup

lemma OwnProviders.append {moduleId providers provider token} (h : OwnProviders moduleId providers)
    (key : provider.key = ⟨moduleId, token⟩) (fresh : token ∉ providers.map (·.key.token)) :
    OwnProviders moduleId (providers ++ [provider]) := by
  refine ⟨?_, ?_⟩
  · intro other mem
    rw [mem_append, mem_singleton] at mem
    rcases mem with mem | rfl
    · exact h.1 other mem
    · rw [key]
  · rw [map_append, map_singleton, key]
    exact nodup_append_comm.mp (nodup_cons.mpr ⟨fresh, h.2⟩)

lemma modulePlan_ok {nodes : List (ModuleId × ModuleSpec)} {edge : ModuleId × List ModuleId}
    {plan : ModulePlan} (h : modulePlan nodes edge = .ok plan) :
    plan.edge = edge ∧ OwnProviders plan.moduleId plan.providers := by
  obtain ⟨_, -, h⟩ := bind_ok.mp h
  obtain ⟨_, -, h⟩ := bind_ok.mp h
  obtain ⟨_, loop, h⟩ := bind_ok.mp h
  cases h
  refine ⟨rfl, ?_⟩
  apply foldlM_keeps _ (pass_ok.mp loop)
  · exact ⟨fun _ mem => absurd mem not_mem_nil, nodup_nil⟩
  intro before declaration after _ round own
  obtain ⟨-, round⟩ := then_ok.mp round
  obtain ⟨fresh, round⟩ := then_ok.mp round
  obtain ⟨_, made, round⟩ := bind_ok.mp round
  cases round
  exact own.append (planOf_key made) (require_ok.mp fresh)

def IsGraph (plans : List ModulePlan) : Prop :=
  DependencyFirst (plans.map (·.edge)) ∧
    ∀ plan ∈ plans, OwnProviders plan.moduleId plan.providers

lemma addFallback_ok {moduleId : ModuleId} {plans plans' : List ModulePlan}
    (h : addFallback moduleId plans declaration = .ok plans')
    (graph : IsGraph plans) : IsGraph plans' := by
  obtain ⟨-, h⟩ := then_ok.mp h
  obtain ⟨plan, found, h⟩ := bind_ok.mp h
  obtain ⟨visible, hvisible, h⟩ := bind_ok.mp h
  have h := pass_ok.mp h
  cases visible with
  | true =>
    cases h
    exact graph
  | false =>
    obtain ⟨provider, made, h⟩ := bind_ok.mp h
    cases h
    have found := subscript_ok.mp found
    have mem := mem_of_find?_eq_some found
    have same := find?_some found
    have fresh : declaration.token ∉ plan.providers.map (·.key.token) := by
      intro listed
      obtain ⟨other, here, token⟩ := mem_map.mp listed
      have hvisible := pass_ok.mp hvisible
      cases own : plan.localRef declaration.token with
      | none => exact (localRef_none own).subset ⟨other, here, token, rfl⟩
      | some =>
        rw [hasVisibleProvider, resolveVisible, own] at hvisible
        cases hvisible
    refine ⟨?_, ?_⟩
    · have edges : (appendProvider plans moduleId provider).map (·.edge) = plans.map (·.edge) := by
        unfold appendProvider
        rw [map_map]
        apply map_congr_left
        intro plan _
        show (if plan.moduleId = moduleId then _ else plan : ModulePlan).edge = plan.edge
        split <;> rfl
      rw [edges]
      exact graph.1
    · intro plan' mem'
      obtain ⟨old, listed, rfl⟩ := mem_map.mp mem'
      split
      · rename_i here
        have key := planOf_key made
        rw [← here] at key
        have only : old = plan := by
          have nodup := graph.1.nodup
          rw [map_map] at nodup
          exact inj_on_of_nodup_map nodup listed mem (here.trans (of_decide_eq_true same).symm)
        subst only
        exact (graph.2 old listed).append key fresh
      · exact graph.2 old listed

/-- What is discovered and planned is an acyclic module graph. -/
theorem exists_moduleGraph (program : Program) (fuel : Nat) (root : ModuleImport) :
    Ensures (fun _ => True) (fun plans => ∃ graph : ModuleGraph, graph.plans = plans)
      (program.discover fuel root >>= fun found => modulePlans program found.1 found.2) := by
  rcases result : program.discover fuel root >>= fun found => modulePlans program found.1 found.2
    with _ | plans
  · exact .error trivial
  apply Ensures.ok
  obtain ⟨⟨_, progress⟩, found, planned⟩ := bind_ok.mp result
  obtain ⟨⟨_, _⟩, -, found⟩ := bind_ok.mp found
  obtain ⟨_, search, found⟩ := bind_ok.mp found
  cases found
  have ordered : DependencyFirst progress.finished := (visit_ok (mapError_ok.mp search)).1.ordered .nil
  obtain ⟨first, loop, planned⟩ := bind_ok.mp planned
  have start : IsGraph first := by
    refine ⟨?_, ?_⟩
    · have edges : progress.finished = first.map (·.edge) := by
        rw [← forall₂_eq_eq_eq, forall₂_map_right_iff]
        exact (mapM_ok.mp loop).imp fun _ _ made => (modulePlan_ok made).1.symm
      exact edges ▸ ordered
    · intro plan mem
      obtain ⟨_, -, made⟩ := mem_of_mapM_ok loop plan mem
      exact (modulePlan_ok made).2
  have graph : IsGraph plans := by
    apply foldlM_keeps _ planned start
    intro before listed after _ round graph
    apply foldlM_keeps _ round graph
    intro before declaration after _ step graph
    exact addFallback_ok step graph
  exact ⟨⟨plans, graph.1, fun plan mem => (graph.2 plan mem).1, fun plan mem => (graph.2 plan mem).2⟩,
    rfl⟩

end ToriPy.Core
