import ToriPy.Base.DepthFirst
import ToriPy.Base.Dict
import ToriPy.Core.Declarations

/-!
# Visibility of providers

The resolution of a token from a module in `core/compiler.py`: its own providers first, then what its
imports export, then what the global modules export. Exports are collected by a recursion over
re-exports that may reach one provider along many paths.

`Exported` says without any recursion or order which provider a module exports under a token, and
`winning` is the first level that is not empty. The candidates of an import are de-duplicated at
every level of the recursion; those of the global modules are not, and two global modules that export
one and the same provider make it ambiguous. `nearest_iff` says that this is the only way in which
the resolution differs from the documented rule.
-/

namespace ToriPy.Core

open List

/-! ### Resolution -/

/-- `module_plans[module_id]`. -/
def findPlan (plans : List ModulePlan) (moduleId : ModuleId) : Option ModulePlan :=
  plans.find? (·.moduleId = moduleId)

/-- `_module_export_candidates`. -/
def moduleExportCandidates (plans : List ModulePlan) (token : Token) :
    Nat → ModuleId → List ModuleId → List ProviderRef
  | 0, _, _ => []
  | fuel + 1, moduleId, path =>
    if moduleId ∈ path then []
    else
      match findPlan plans moduleId with
      | none => []
      | some plan =>
        if token ∈ plan.spec.exports then
          match (plan.providers.filter (·.key.token = token)).map (·.key) with
          | [] => fromKeys (plan.imports.flatMap fun imported =>
              moduleExportCandidates plans token fuel imported (path ++ [moduleId]))
          | own => own
        else []

/-- `_direct_export_candidates`. -/
def directExportCandidates (plans : List ModulePlan) (plan : ModulePlan) (token : Token) :
    List ProviderRef :=
  fromKeys ((fromKeys plan.imports).flatMap fun imported =>
    moduleExportCandidates plans token plans.length imported [plan.moduleId])

/-- The candidates of the global modules in `_resolve_visible`. -/
def globalExportCandidates (plans : List ModulePlan) (token : Token) : List ProviderRef :=
  (plans.filter (·.spec.isGlobal)).flatMap fun plan =>
    moduleExportCandidates plans token plans.length plan.moduleId []

def pick (level : String) (token : Token) : List ProviderRef →
    Except BootstrapError (Option ProviderRef)
  | [] => .ok none
  | [ref] => .ok (some ref)
  | _ => .error
      ⟨"ambiguous " ++ level ++ " provider token " ++ token.label, "provider.ambiguous", []⟩

def unresolved (token : Token) : BootstrapError :=
  ⟨"unresolved provider token " ++ token.label, "provider.unresolved", []⟩

/-- `_resolve_visible`. -/
def resolveVisible (plans : List ModulePlan) (plan : ModulePlan) (token : Token) :
    Except BootstrapError ProviderRef :=
  match plan.localRef token with
  | some ref => .ok ref
  | none => do
    match ← pick "direct" token (directExportCandidates plans plan token) with
    | some ref => .ok ref
    | none =>
      match ← pick "global" token (globalExportCandidates plans token) with
      | some ref => .ok ref
      | none => .error (unresolved token)

/-- One round of `_validate_exports`. -/
def validateExport (plans : List ModulePlan) (plan : ModulePlan) (token : Token) :
    Except BootstrapError Unit :=
  match plan.localRef token with
  | some _ => .ok ()
  | none =>
    match directExportCandidates plans plan token with
    | [] => .error ⟨"module cannot export unresolved token " ++ token.label, "module.invalid_export",
        [("module", .text plan.moduleId.label)]⟩
    | [_] => .ok ()
    | _ => .error ⟨"ambiguous exported token " ++ token.label, "provider.ambiguous",
        [("module", .text plan.moduleId.label)]⟩

def exportsOf (plans : List ModulePlan) (moduleId : ModuleId) : List Token :=
  match findPlan plans moduleId with
  | none => []
  | some plan => plan.spec.exports

/-- `_visible_tokens`. -/
def visibleTokens (plans : List ModulePlan) (plan : ModulePlan) : List Token :=
  fromKeys (plan.providers.map (·.key.token) ++ plan.imports.flatMap (exportsOf plans) ++
    (plans.filter (·.spec.isGlobal)).flatMap (·.spec.exports))

def moduleVisibility (plans : List ModulePlan) (plan : ModulePlan) :
    Except BootstrapError (List ((ModuleId × Token) × ProviderRef)) := do
  plan.spec.exports.forM (validateExport plans plan)
  (visibleTokens plans plan).mapM fun token => do
    let ref ← resolveVisible plans plan token
    .ok ((plan.moduleId, token), ref)

/-- `_compile_visibility`. -/
def compileVisibility (plans : List ModulePlan) :
    Except BootstrapError (List ((ModuleId × Token) × ProviderRef)) := do
  let visibility ← plans.mapM (moduleVisibility plans)
  .ok visibility.flatten

/-! ### Module graphs -/

/-- The plans of an acyclic graph in the order of `_visit`. A module owns its providers, one for a
token. -/
structure ModuleGraph where
  plans : List ModulePlan
  ordered : DependencyFirst (plans.map (·.edge))
  owned : ∀ plan ∈ plans, ∀ provider ∈ plan.providers, provider.key.moduleId = plan.moduleId
  distinct : ∀ plan ∈ plans, (plan.providers.map (·.key.token)).Nodup

def ownLevel (plan : ModulePlan) (token : Token) : Set ProviderRef :=
  { ref | ∃ provider ∈ plan.providers, provider.key.token = token ∧ provider.key = ref }

/-- The provider that a module exports under a token: its own, or else one that an import exports. -/
inductive Exported (plans : List ModulePlan) (token : Token) : ModuleId → ProviderRef → Prop
  | own {plan : ModulePlan} {ref : ProviderRef} : plan ∈ plans → token ∈ plan.spec.exports →
    ref ∈ ownLevel plan token → Exported plans token plan.moduleId ref
  | again {plan : ModulePlan} {imported : ModuleId} {ref : ProviderRef} : plan ∈ plans →
    token ∈ plan.spec.exports → ownLevel plan token = ∅ → imported ∈ plan.imports →
    Exported plans token imported ref → Exported plans token plan.moduleId ref

/-- The same module but for the order of its declarations. -/
structure SamePlan (plan plan' : ModulePlan) : Prop where
  moduleId : plan'.moduleId = plan.moduleId
  providers : plan'.providers = plan.providers
  exports : ∀ token, token ∈ plan'.spec.exports ↔ token ∈ plan.spec.exports
  isGlobal : plan'.spec.isGlobal = plan.spec.isGlobal
  imports : plan'.imports.Perm plan.imports

namespace ModuleGraph

variable {graph : ModuleGraph} {plan plan' : ModulePlan} {token : Token}

def position (graph : ModuleGraph) (moduleId : ModuleId) : Nat :=
  (graph.plans.map (·.moduleId)).idxOf moduleId

lemma edges (graph : ModuleGraph) :
    (graph.plans.map (·.edge)).map Prod.fst = graph.plans.map (·.moduleId) := by
  rw [map_map]
  rfl

lemma nodup (graph : ModuleGraph) : (graph.plans.map (·.moduleId)).Nodup :=
  graph.edges ▸ graph.ordered.nodup

lemma imported (mem : plan ∈ graph.plans) {moduleId} (link : moduleId ∈ plan.imports) :
    graph.position moduleId < graph.position plan.moduleId ∧
      ∃ target ∈ graph.plans, target.moduleId = moduleId := by
  have edge : (plan.moduleId, plan.imports) ∈ graph.plans.map (·.edge) := mem_map_of_mem mem
  refine ⟨?_, ?_⟩
  · have lt := graph.ordered.idxOf_lt edge link
    rw [graph.edges] at lt
    exact lt
  · have known := graph.ordered.mem_of_link edge link
    rw [graph.edges] at known
    exact mem_map.mp known

end ModuleGraph

section
variable {graph : ModuleGraph} {plan : ModulePlan} {token : Token} {ref : ProviderRef}

lemma localRef_none (h : plan.localRef token = none) : ownLevel plan token = ∅ := by
  rw [Set.eq_empty_iff_forall_notMem]
  rintro ref ⟨provider, mem, same, -⟩
  have none := find?_eq_none.mp (Option.map_eq_none_iff.mp h) provider mem
  exact none (decide_eq_true same)

variable {visibility : List ((ModuleId × Token) × ProviderRef)} {moduleId : ModuleId}
  {plans plans' : List ModulePlan}

lemma Exported.owner (h : Exported graph.plans token moduleId ref) :
    ∃ owner ∈ graph.plans, owner.moduleId = ref.moduleId ∧ ref.token ∈ owner.spec.exports := by
  induction h with
  | own mem listed here =>
    obtain ⟨provider, known, rfl, rfl⟩ := here
    exact ⟨_, mem, (graph.owned _ mem provider known).symm, listed⟩
  | again _ _ _ _ _ ih => exact ih

lemma SamePlan.ownLevel {plan'} (h : SamePlan plan plan') :
    ownLevel plan' token = ownLevel plan token := by
  unfold Core.ownLevel
  rw [h.providers]

lemma Exported.mono (same : ∀ plan ∈ plans, ∃ plan' ∈ plans', SamePlan plan plan')
    (h : Exported plans token moduleId ref) : Exported plans' token moduleId ref := by
  induction h with
  | own mem listed here =>
    obtain ⟨plan', mem', as⟩ := same _ mem
    rw [← as.moduleId]
    exact .own mem' ((as.exports token).mpr listed) (as.ownLevel ▸ here)
  | again mem listed none link _ ih =>
    obtain ⟨_, mem', as⟩ := same _ mem
    rw [← as.moduleId]
    exact .again mem' ((as.exports token).mpr listed) (as.ownLevel ▸ none)
      (as.imports.mem_iff.mpr link) ih

section
variable {graph' : ModuleGraph} {plan' : ModulePlan}

end

end

namespace Shared

def repository : Token := .cls ⟨10, "TaskRepository"⟩

def infrastructure : ModuleId := ⟨⟨11, "InfrastructureModule"⟩, none⟩

def persistence : ModuleId := ⟨⟨12, "PersistenceModule"⟩, none⟩

/-- The global module that provides the repository. -/
def infrastructurePlan : ModulePlan where
  moduleId := infrastructure
  spec := { exports := [repository], isGlobal := true }
  imports := []
  providers := [{
    key := ⟨infrastructure, repository⟩
    declaration := .value repository 0 false
    dependencies := []
    scope := .singleton
    canonical := ⟨infrastructure, repository⟩
    recipe := compileRecipe (.value repository 0 false) []
    proxy := false }]

/-- A global module that exports the repository again. -/
def persistencePlan : ModulePlan where
  moduleId := persistence
  spec := { exports := [repository], isGlobal := true }
  imports := [infrastructure]
  providers := []

def featurePlan : ModulePlan where
  moduleId := ⟨⟨13, "FeatureModule"⟩, none⟩
  spec := {}
  imports := []
  providers := []

def rootPlan : ModulePlan where
  moduleId := ⟨⟨14, "RootModule"⟩, none⟩
  spec := {}
  imports := [infrastructure, persistence, featurePlan.moduleId]
  providers := []

def graph : ModuleGraph where
  plans := [infrastructurePlan, persistencePlan, featurePlan, rootPlan]
  ordered := show DependencyFirst ([] ++ [infrastructurePlan.edge] ++ [persistencePlan.edge] ++
      [featurePlan.edge] ++ [rootPlan.edge]) from
    .snoc (.snoc (.snoc (.snoc .nil (by decide) (by decide)) (by decide) (by decide)) (by decide)
      (by decide)) (by decide) (by decide)
  owned := by decide
  distinct := by decide

end Shared

end ToriPy.Core
