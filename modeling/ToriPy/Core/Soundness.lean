import ToriPy.Base.Table
import ToriPy.Core.Container

/-!
# Compiled graphs are safe to run

What `_finish` establishes for the providers that it returns: every alias ends at a canonical
provider, whose recipe and scope it has; the dependencies of a recipe are canonical providers of the
graph; the search for cycles puts every provider after its dependencies; and no singleton reaches a
request-scoped provider. The runtime follows the recipes, so its recursion goes down in the order of
the search and meets none of the errors that it is prepared for.
-/

namespace ToriPy.Core

open List
open DepthFirst Relation

/-! ### Passes over the provider map -/

section
variable {providers providers' : List ProviderPlan} {ref : ProviderRef}

lemma findProvider_key {plan} (h : findProvider providers ref = some plan) : plan.key = ref := by
  have same := find?_some h
  exact of_decide_eq_true same

lemma findProvider_mapM {f : ProviderPlan → Except CompileError ProviderPlan}
    (keys : ∀ {plan plan'}, f plan = .ok plan' → plan'.key = plan.key)
    (h : providers.mapM f = .ok providers') (ref : ProviderRef) :
    Option.Rel (fun plan plan' => f plan = .ok plan') (findProvider providers ref)
      (findProvider providers' ref) :=
  find?_mapM_ok keys h ref

lemma lookup_mapM {γ : Type} {f : ProviderPlan → Except CompileError (ProviderRef × γ)}
    {table : List (ProviderRef × γ)} (keys : ∀ {plan entry}, f plan = .ok entry → entry.1 = plan.key)
    (h : providers.mapM f = .ok table) (ref : ProviderRef) :
    Option.Rel (fun plan value => f plan = .ok (ref, value)) (findProvider providers ref)
      (table.lookup ref) := by
  induction mapM_ok.mp h with
  | nil => exact .none
  | @cons plan entry _ _ made rest ih =>
    obtain ⟨_, value⟩ := entry
    cases keys made
    rw [findProvider, find?_cons, lookup_cons]
    by_cases here : plan.key = ref
    · rw [decide_eq_true here, ← here, beq_self_eq_true]
      exact .some made
    · rw [decide_eq_false here, beq_eq_false_iff_ne.mpr (Ne.symm here)]
      exact ih (mapM_ok.mpr rest)

end

/-! ### Aliases -/

/-- The provider at the end of a chain of aliases. -/
inductive AliasChain (providers : List ProviderPlan) (visibility : Visibility) :
    ProviderRef → ProviderRef → Prop
  | done {ref : ProviderRef} {plan : ProviderPlan} : findProvider providers ref = some plan →
    plan.declaration.target = none → AliasChain providers visibility ref ref
  | next {ref target canonical : ProviderRef} {plan : ProviderPlan} {token : Token} :
    findProvider providers ref = some plan → plan.declaration.target = some token →
    visibility.lookup (ref.moduleId, token) = some target →
    AliasChain providers visibility target canonical → AliasChain providers visibility ref canonical

namespace AliasChain

variable {providers providers' : List ProviderPlan} {visibility : Visibility}
  {ref canonical canonical' : ProviderRef}

lemma target (h : AliasChain providers visibility ref canonical) :
    ∃ plan, findProvider providers canonical = some plan ∧ plan.declaration.target = none := by
  induction h with
  | done found none => exact ⟨_, found, none⟩
  | next _ _ _ _ ih => exact ih

lemma unique (h : AliasChain providers visibility ref canonical)
    (h' : AliasChain providers visibility ref canonical') : canonical = canonical' := by
  induction h with
  | done found none =>
    cases h' with
    | done => rfl
    | next found' some _ _ =>
      cases found.symm.trans found'
      cases none.symm.trans some
  | next found some visible _ ih =>
    cases h' with
    | done found' none =>
      cases found.symm.trans found'
      cases none.symm.trans some
    | next found' some' visible' rest =>
      cases found.symm.trans found'
      cases some.symm.trans some'
      cases visible.symm.trans visible'
      exact ih rest

lemma mono (same : ∀ {ref plan}, findProvider providers ref = some plan →
      ∃ plan', findProvider providers' ref = some plan' ∧ plan'.declaration = plan.declaration)
    (h : AliasChain providers visibility ref canonical) :
    AliasChain providers' visibility ref canonical := by
  induction h with
  | done found none =>
    obtain ⟨plan', found', as⟩ := same found
    exact .done found' (by rw [as]; exact none)
  | next found some visible _ ih =>
    obtain ⟨_, found', as⟩ := same found
    exact .next found' (by rw [as]; exact some) visible ih

end AliasChain

section
variable {providers : List ProviderPlan} {visibility : Visibility}

def Cached (providers : List ProviderPlan) (visibility : Visibility)
    (cache : List (ProviderRef × ProviderRef)) : Prop :=
  ∀ ref canonical, cache.lookup ref = some canonical → AliasChain providers visibility ref canonical

variable {cache : List (ProviderRef × ProviderRef)}

lemma Cached.cons {ref canonical} (h : Cached providers visibility cache)
    (chain : AliasChain providers visibility ref canonical) :
    Cached providers visibility ((ref, canonical) :: cache) := by
  intro ref' canonical' found
  by_cases here : ref' = ref
  · subst here
    rw [lookup_cons_self] at found
    cases found
    exact chain
  · rw [lookup_cons, beq_eq_false_iff_ne.mpr here] at found
    exact h _ _ found

lemma canonicalProvider_ok {fuel cache' stack ref canonical}
    (h : canonicalProvider providers visibility fuel cache stack ref = .ok (canonical, cache'))
    (cached : Cached providers visibility cache) :
    AliasChain providers visibility ref canonical ∧ Cached providers visibility cache' := by
  induction fuel generalizing cache cache' stack ref canonical with
  | zero => cases h
  | succ fuel ih =>
    rw [canonicalProvider] at h
    split at h
    · rename_i found
      cases h
      exact ⟨cached _ _ found, cached⟩
    · obtain ⟨_, found, h⟩ := bind_ok.mp h
      have found := subscript_ok.mp found
      split at h
      · rename_i none
        cases h
        have chain : AliasChain providers visibility ref ref := .done found none
        exact ⟨chain, cached.cons chain⟩
      · rename_i token some
        split at h
        · cases h
        rename_i target visible
        split at h
        · cases h
        obtain ⟨⟨_, _⟩, rest, h⟩ := bind_ok.mp h
        cases h
        obtain ⟨chain, cached'⟩ := ih rest cached
        have chain : AliasChain providers visibility ref _ := .next found some visible chain
        exact ⟨chain, cached'.cons chain⟩

lemma canonicalCache_ok (h : canonicalCache providers visibility = .ok cache) :
    Cached providers visibility cache := by
  apply foldlM_keeps _ h
  · intro ref canonical found
    cases found
  intro cache plan cache' _ round cached
  obtain ⟨⟨_, _⟩, found, round⟩ := bind_ok.mp round
  cases round
  obtain ⟨chain, cached'⟩ := canonicalProvider_ok found cached
  exact cached'.cons chain

end

/-! ### Linked providers -/

def ConstructionRecipe.references (recipe : ConstructionRecipe) : List ProviderRef :=
  recipe.dependencies.filterMap (·.providerRef)

/-- The providers among the dependencies of a plan. -/
def ProviderPlan.references (plan : ProviderPlan) : List ProviderRef :=
  plan.dependencies.filterMap (·.providerRef)

lemma compileRecipe_references {declaration dependencies} (h : declaration.target = none) :
    (compileRecipe declaration dependencies).references = dependencies.filterMap (·.providerRef) ∧
      (compileRecipe declaration dependencies).invoker ≠ .uncanonicalizedAlias := by
  have sources : (dependencies.map (·.source)).filterMap (·.providerRef) =
      dependencies.filterMap (·.providerRef) := by
    rw [filterMap_map]
    rfl
  match declaration with
  | .value .. => exact ⟨sources, nofun⟩
  | .cls .. => exact ⟨sources, nofun⟩
  | .factory .. => exact ⟨sources, nofun⟩
  | .alias .. => cases h

section
variable {plans : List ModulePlan} {visibility : Visibility}
  {cache : List (ProviderRef × ProviderRef)} {providers : List ProviderPlan}

lemma dependencyRef_ok {moduleId token ref}
    (h : dependencyRef plans visibility cache moduleId token = .ok (some ref)) :
    ∃ visible, cache.lookup visible = some ref := by
  cases token with
  | none => cases h
  | some token =>
    rw [dependencyRef] at h
    split at h
    · cases h
    · obtain ⟨visible, -, h⟩ := bind_ok.mp h
      obtain ⟨_, found, h⟩ := bind_ok.mp h
      cases h
      exact ⟨visible, subscript_ok.mp found⟩

/-- What the loop over the dependencies does to a plan. -/
structure LinkedFrom (cache : List (ProviderRef × ProviderRef)) (providers : List ProviderPlan)
    (plan linked : ProviderPlan) : Prop where
  key : linked.key = plan.key
  declaration : linked.declaration = plan.declaration
  canonical : cache.lookup plan.key = some linked.canonical
  scope : ∃ canonicalPlan, findProvider providers linked.canonical = some canonicalPlan ∧
    linked.scope = canonicalPlan.scope
  recipe : linked.recipe = compileRecipe plan.declaration linked.dependencies
  known : ∀ ref ∈ linked.references, ∃ visible, cache.lookup visible = some ref

variable {plan : ProviderPlan}

lemma linkProvider_ok {linked}
    (h : linkProvider plans visibility cache providers plan = .ok linked) :
    LinkedFrom cache providers plan linked := by
  obtain ⟨_, loop, h⟩ := bind_ok.mp h
  obtain ⟨_, found, h⟩ := bind_ok.mp h
  obtain ⟨_, found', h⟩ := bind_ok.mp h
  cases h
  refine ⟨rfl, rfl, subscript_ok.mp found, ⟨_, subscript_ok.mp found', rfl⟩, rfl, ?_⟩
  intro ref mem
  obtain ⟨dependency, listed, provided⟩ := mem_filterMap.mp mem
  obtain ⟨_, -, linked⟩ := mem_of_mapM_ok loop dependency listed
  obtain ⟨providerRef, resolved, linked⟩ := bind_ok.mp linked
  cases linked
  obtain rfl : providerRef = some ref := provided
  exact dependencyRef_ok resolved

lemma interceptProvider_ok {intercepted}
    (h : interceptProvider visibility cache plan = .ok intercepted) :
    ∃ methodInterceptors, intercepted = { plan with methodInterceptors } := by
  unfold interceptProvider at h
  split at h
  · obtain ⟨_, -, h⟩ := bind_ok.mp h
    cases h
    exact ⟨_, rfl⟩
  · cases h
    exact ⟨_, rfl⟩

/-- What the last loop does to a plan. -/
structure SharedFrom (providers : List ProviderPlan) (plan shared : ProviderPlan) : Prop where
  key : shared.key = plan.key
  declaration : shared.declaration = plan.declaration
  dependencies : shared.dependencies = plan.dependencies
  scope : shared.scope = plan.scope
  canonical : shared.canonical = plan.canonical
  own : plan.canonical = plan.key → shared.recipe = plan.recipe
  other : plan.canonical ≠ plan.key → ∃ canonicalPlan,
    findProvider providers plan.canonical = some canonicalPlan ∧ shared.recipe = canonicalPlan.recipe

lemma shareRecipe_ok {shared} (h : shareRecipe providers plan = .ok shared) :
    SharedFrom providers plan shared := by
  unfold shareRecipe at h
  split at h
  · rename_i same
    cases h
    exact ⟨rfl, rfl, rfl, rfl, rfl, fun _ => rfl, fun other => absurd same other⟩
  · rename_i other
    obtain ⟨canonicalPlan, found, h⟩ := bind_ok.mp h
    cases h
    exact ⟨rfl, rfl, rfl, rfl, rfl, fun same => absurd same other,
      fun _ => ⟨canonicalPlan, subscript_ok.mp found, rfl⟩⟩

end

/-- The provider map of a compiled graph. -/
structure Linked (providers : List ProviderPlan) (visibility : Visibility) : Prop where
  chain : ∀ {ref plan}, findProvider providers ref = some plan →
    AliasChain providers visibility ref plan.canonical
  canonical : ∀ {ref plan}, findProvider providers ref = some plan → ∃ canonicalPlan,
    findProvider providers plan.canonical = some canonicalPlan ∧
    canonicalPlan.declaration.target = none ∧ canonicalPlan.canonical = plan.canonical ∧
    plan.recipe = canonicalPlan.recipe ∧ plan.scope = canonicalPlan.scope
  recipe : ∀ {ref plan}, findProvider providers ref = some plan → plan.declaration.target = none →
    plan.recipe.references = plan.references ∧ plan.recipe.invoker ≠ .uncanonicalizedAlias
  known : ∀ {ref plan dependency}, findProvider providers ref = some plan →
    dependency ∈ plan.references → ∃ dependencyPlan,
      findProvider providers dependency = some dependencyPlan

lemma linkProviders_ok {plans : List ModulePlan} {visibility} {providers linked : List ProviderPlan}
    (h : linkProviders plans visibility providers = .ok linked) :
    Linked linked visibility ∧
      ∀ ref, (findProvider providers ref).isSome = (findProvider linked ref).isSome := by
  obtain ⟨cache, filled, h⟩ := bind_ok.mp h
  obtain ⟨_, loop, h⟩ := bind_ok.mp h
  obtain ⟨second, loop', loop''⟩ := bind_ok.mp h
  have cached := canonicalCache_ok filled
  have pass₁ := findProvider_mapM (fun made => (linkProvider_ok made).key) loop
  have pass₂ := findProvider_mapM (fun made => by
    obtain ⟨_, rfl⟩ := interceptProvider_ok made
    rfl) loop'
  have pass₃ := findProvider_mapM (fun made => (shareRecipe_ok made).key) loop''
  -- Each plan under its key, through the three loops.
  have made : ∀ {ref plan}, findProvider linked ref = some plan → ∃ old one two,
      findProvider providers ref = some old ∧ findProvider second ref = some two ∧
        LinkedFrom cache providers old one ∧ (∃ methods, two = { one with methodInterceptors := methods }) ∧
        SharedFrom second two plan := by
    intro ref plan found
    obtain ⟨two, found₂, made₃⟩ := rel_before (pass₃ ref) found
    obtain ⟨one, found₁, made₂⟩ := rel_before (pass₂ ref) found₂
    obtain ⟨old, found₀, made₁⟩ := rel_before (pass₁ ref) found₁
    exact ⟨old, one, two, found₀, found₂, linkProvider_ok made₁, interceptProvider_ok made₂,
      shareRecipe_ok made₃⟩
  have same : ∀ ref, (findProvider providers ref).isSome = (findProvider linked ref).isSome :=
    fun ref => (rel_isSome (pass₁ ref)).trans ((rel_isSome (pass₂ ref)).trans (rel_isSome (pass₃ ref)))
  have forth : ∀ {ref old}, findProvider providers ref = some old → ∃ plan,
      findProvider linked ref = some plan ∧ plan.declaration = old.declaration := by
    intro ref old found
    have known := same ref
    rw [found] at known
    obtain ⟨plan, found'⟩ := Option.isSome_iff_exists.mp known.symm
    obtain ⟨_, _, _, found₀, -, from₁, ⟨_, rfl⟩, from₃⟩ := made found'
    cases found.symm.trans found₀
    exact ⟨plan, found', from₃.declaration.trans from₁.declaration⟩
  -- The chain of a provider, in the map before and after.
  have chains : ∀ {ref plan}, findProvider linked ref = some plan →
      AliasChain providers visibility ref plan.canonical := by
    intro ref plan found
    obtain ⟨_, _, _, found₀, -, from₁, ⟨_, rfl⟩, from₃⟩ := made found
    rw [from₃.canonical]
    have entry := from₁.canonical
    rw [findProvider_key found₀] at entry
    exact cached _ _ entry
  refine ⟨⟨?_, ?_, ?_, ?_⟩, same⟩
  · intro ref plan found
    exact (chains found).mono forth
  · intro ref plan found
    obtain ⟨target, there, none⟩ := (chains found).target
    obtain ⟨three', found₃', -⟩ := forth there
    obtain ⟨_, one', _, found', found₂', from₁', ⟨_, rfl⟩, from₃'⟩ := made found₃'
    cases there.symm.trans found'
    have self : three'.canonical = plan.canonical :=
      (chains found₃').unique (.done there none)
    refine ⟨three', found₃', ?_, self, ?_⟩
    · rw [from₃'.declaration]
      exact from₁'.declaration ▸ none
    obtain ⟨_, one, _, found₀, found₂, from₁, ⟨_, rfl⟩, from₃⟩ := made found
    have end₁ : one.canonical = plan.canonical := from₃.canonical.symm
    have end₂ : one'.canonical = plan.canonical := from₃'.canonical.symm.trans self
    have key' : one'.key = plan.canonical := from₁'.key.trans (findProvider_key there)
    refine ⟨?_, ?_⟩
    · rw [from₃'.own (end₂.trans key'.symm)]
      by_cases own : one.canonical = one.key
      · -- The plan is its own canonical plan.
        have here : plan.canonical = ref :=
          end₁.symm.trans (own.trans (from₁.key.trans (findProvider_key found₀)))
        rw [here] at found₂'
        have same := Option.some.inj (found₂.symm.trans found₂')
        exact (from₃.own own).trans (congrArg ProviderPlan.recipe same)
      · obtain ⟨other, there', same⟩ := from₃.other own
        rw [end₁] at there'
        cases found₂'.symm.trans there'
        exact same
    · obtain ⟨c, hc, scope⟩ := from₁.scope
      obtain ⟨_, hc', scope'⟩ := from₁'.scope
      rw [end₁] at hc
      rw [end₂] at hc'
      cases hc.symm.trans hc'
      exact from₃.scope.trans (scope.trans (scope'.symm.trans from₃'.scope.symm))
  · intro ref plan found none
    obtain ⟨old, one, _, found₀, -, from₁, ⟨_, rfl⟩, from₃⟩ := made found
    have bare : old.declaration.target = Option.none := by
      rw [← from₁.declaration]
      exact from₃.declaration ▸ none
    have own : one.canonical = one.key := by
      have chain := chains found
      rw [from₃.canonical] at chain
      rw [from₁.key, findProvider_key found₀]
      exact chain.unique (.done found₀ bare)
    rw [from₃.own own, from₁.recipe]
    unfold ProviderPlan.references
    rw [from₃.dependencies]
    exact compileRecipe_references bare
  · intro ref plan dependency found mem
    obtain ⟨_, _, _, -, -, from₁, ⟨_, rfl⟩, from₃⟩ := made found
    unfold ProviderPlan.references at mem
    rw [from₃.dependencies] at mem
    obtain ⟨_, entry⟩ := from₁.known dependency mem
    obtain ⟨target, there, -⟩ := (cached _ _ entry).target
    obtain ⟨target', there', -⟩ := forth there
    exact ⟨target', there'⟩

/-! ### Edges -/

section
variable {providers : List ProviderPlan} {visibility : Visibility}
  {edges : List (ProviderRef × List ProviderRef)} {ref dependency : ProviderRef} {plan : ProviderPlan}

lemma providerEdges_key {entry}
    (h : providerEdges providers visibility plan = .ok entry) : entry.1 = plan.key := by
  unfold providerEdges at h
  split at h
  · obtain ⟨_, -, h⟩ := bind_ok.mp h
    obtain ⟨_, -, h⟩ := bind_ok.mp h
    cases h
    rfl
  · cases h
    rfl

lemma edgesOf_eq (linked : Linked providers visibility)
    (h : providers.mapM (providerEdges providers visibility) = .ok edges)
    (found : findProvider providers ref = some plan) :
    edgesOf edges ref =
      match plan.declaration.target with
      | some _ => [plan.canonical]
      | none => plan.references := by
  obtain ⟨_, entry, made⟩ := rel_after (lookup_mapM providerEdges_key h ref) found
  rw [edgesOf, entry]
  unfold providerEdges at made
  cases target : plan.declaration.target with
  | some token =>
    rw [target] at made
    obtain ⟨_, visible, made⟩ := bind_ok.mp made
    obtain ⟨targetPlan, there, made⟩ := bind_ok.mp made
    cases made
    show [targetPlan.canonical] = [plan.canonical]
    have chain := linked.chain found
    generalize plan.canonical = canonical at chain ⊢
    cases chain with
    | done found' none =>
      cases found.symm.trans found'
      cases target.symm.trans none
    | next found' some' visible' rest =>
      cases found.symm.trans found'
      cases target.symm.trans some'
      rw [subscript_ok, visible'] at visible
      cases visible
      rw [(linked.chain (subscript_ok.mp there)).unique rest]
  | none =>
    rw [target] at made
    cases made
    rfl

lemma edgesOf_unknown (h : providers.mapM (providerEdges providers visibility) = .ok edges)
    (unknown : findProvider providers ref = none) : edgesOf edges ref = [] := by
  have known := rel_isSome (lookup_mapM providerEdges_key h ref)
  rw [unknown] at known
  rw [edgesOf, Option.isNone_iff_eq_none.mp (Option.isSome_eq_false_iff.mp known.symm)]
  rfl

lemma edges_of_recipe (linked : Linked providers visibility)
    (h : providers.mapM (providerEdges providers visibility) = .ok edges)
    (found : findProvider providers ref = some plan) (mem : dependency ∈ plan.recipe.references) :
    TransGen (fun ref target => target ∈ edgesOf edges ref) ref dependency := by
  obtain ⟨canonicalPlan, there, none, _, recipe, -⟩ := linked.canonical found
  have last : dependency ∈ edgesOf edges plan.canonical := by
    rw [edgesOf_eq linked h there, none]
    show dependency ∈ canonicalPlan.references
    rw [← (linked.recipe there none).1, ← recipe]
    exact mem
  cases target : plan.declaration.target with
  | none =>
    have own : plan.canonical = ref := (linked.chain found).unique (.done found target)
    rw [own] at last
    exact .single last
  | some token =>
    have first : plan.canonical ∈ edgesOf edges ref := by
      rw [edgesOf_eq linked h found, target]
      exact mem_singleton_self _
    exact .head first (.single last)

lemma known_of_edge (linked : Linked providers visibility)
    (h : providers.mapM (providerEdges providers visibility) = .ok edges)
    (mem : dependency ∈ edgesOf edges ref) :
    ∃ dependencyPlan, findProvider providers dependency = some dependencyPlan := by
  cases found : findProvider providers ref with
  | none =>
    rw [edgesOf_unknown h found] at mem
    cases mem
  | some plan =>
    rw [edgesOf_eq linked h found] at mem
    split at mem
    · obtain rfl := mem_singleton.mp mem
      obtain ⟨canonicalPlan, there, -⟩ := linked.canonical found
      exact ⟨canonicalPlan, there⟩
    · exact linked.known found mem

end

/-! ### The checks -/

section
variable {providers : List ProviderPlan} {edges : List (ProviderRef × List ProviderRef)}

lemma validateProviderCycles_ok {progress}
    (h : validateProviderCycles edges providers = .ok progress) :
    ∃ rank : ProviderRef → Nat, ∀ ref, ∀ dependency ∈ edgesOf edges ref,
      rank dependency < rank ref := by
  obtain ⟨faithful, ordered, -, all⟩ := foldlM_visit_static (mapError_ok.mp h)
    (fun _ mem => absurd mem not_mem_nil) .nil
  refine ⟨progress.nodes.idxOf, ?_⟩
  intro ref dependency mem
  apply faithful.idxOf_lt ordered _ mem
  apply all
  cases entry : edges.lookup ref with
  | none =>
    rw [edgesOf, entry] at mem
    cases mem
  | some value =>
    obtain ⟨_, _, rfl, -⟩ := lookup_eq_some_iff.mp entry
    rw [map_append, map_cons]
    exact mem_append_right _ mem_cons_self

lemma forM_ok {α : Type} {f : α → Except CompileError Unit} {xs : List α} :
    xs.forM f = .ok () ↔ ∀ x ∈ xs, f x = .ok () := by
  induction xs with
  | nil => exact ⟨fun _ _ mem => absurd mem not_mem_nil, fun _ => rfl⟩
  | cons x xs ih =>
    show (f x >>= fun _ => xs.forM f) = .ok () ↔ _
    rw [then_ok, forall_mem_cons, ih]

variable {before after : List ProviderRef × List ProviderRef} {fuel : Nat}

lemma visitScopes_ok {ref target} {path : List ProviderRef}
    (h : visitScopes edges providers fuel ref path = .ok ())
    (reach : TransGen (fun ref target => target ∈ edgesOf edges ref) ref target) :
    ∃ plan, findProvider providers target = some plan ∧ plan.scope ≠ .request := by
  induction reach using TransGen.head_induction_on generalizing fuel path with
  | single mem =>
    cases fuel with
    | zero => cases h
    | succ fuel =>
      obtain ⟨plan, found, h⟩ := bind_ok.mp (forM_ok.mp h _ mem)
      split at h
      · cases h
      · exact ⟨plan, subscript_ok.mp found, ‹_›⟩
  | head mem _ ih =>
    cases fuel with
    | zero => cases h
    | succ fuel =>
      obtain ⟨plan, found, h⟩ := bind_ok.mp (forM_ok.mp h _ mem)
      split at h
      · cases h
      · exact ih h

lemma visitOrder_ok {P : ProviderRef → Prop}
    (closed : ∀ ref, ∀ dependency ∈ edgesOf edges ref, P dependency)
    {visited visited' result result' : List ProviderRef} {ref}
    (h : visitOrder edges fuel (visited, result) ref = .ok (visited', result')) (here : P ref)
    (before : ∀ ref ∈ result, P ref) : ∀ ref ∈ result', P ref := by
  induction fuel generalizing visited visited' result result' ref with
  | zero => cases h
  | succ fuel ih =>
    rw [visitOrder] at h
    split at h
    · cases h
      exact before
    obtain ⟨⟨_, result₁⟩, loop, h⟩ := bind_ok.mp h
    cases h
    have below : ∀ ref ∈ result₁, P ref :=
      foldlM_keeps (P := fun state : List ProviderRef × List ProviderRef => ∀ ref ∈ state.2, P ref)
        (fun mem round kept => ih round (closed ref _ mem) kept) loop before
    intro other mem
    rcases mem_append.mp mem with mem | mem
    · exact below other mem
    · obtain rfl := mem_singleton.mp mem
      exact here

/-- What is visited is listed, up to what was visited before. -/
structure Lists (before after : List ProviderRef × List ProviderRef) : Prop where
  visited : before.1 ⊆ after.1
  result : before.2 ⊆ after.2
  listed : ∀ ref ∈ after.1, ref ∈ before.1 ∨ ref ∈ after.2

lemma Lists.refl (state : List ProviderRef × List ProviderRef) : Lists state state :=
  ⟨List.Subset.refl _, List.Subset.refl _, fun _ => .inl⟩

lemma Lists.trans {mid} (h : Lists before mid) (h' : Lists mid after) : Lists before after := by
  refine ⟨List.Subset.trans h.visited h'.visited, List.Subset.trans h.result h'.result, ?_⟩
  intro ref mem
  rcases h'.listed ref mem with mem | mem
  · rcases h.listed ref mem with mem | mem
    · exact .inl mem
    · exact .inr (h'.result mem)
  · exact .inr mem

lemma visitOrder_lists {ref} (h : visitOrder edges fuel before ref = .ok after) :
    Lists before after ∧ ref ∈ after.1 := by
  induction fuel generalizing before after ref with
  | zero => cases h
  | succ fuel ih =>
    rw [visitOrder] at h
    split at h
    · cases h
      exact ⟨.refl _, ‹_›⟩
    obtain ⟨mid, loop, h⟩ := bind_ok.mp h
    cases h
    have below := foldlM_keeps (P := Lists (ref :: before.1, before.2))
      (fun _ round kept => kept.trans (ih round).1) loop (.refl _)
    refine ⟨⟨?_, ?_, ?_⟩, below.visited mem_cons_self⟩
    · exact List.Subset.trans (subset_cons_self ref before.1) below.visited
    · exact List.Subset.trans below.result (subset_append_left _ _)
    intro other mem
    rcases below.listed other mem with mem | mem
    · rcases mem_cons.mp mem with rfl | mem
      · exact .inr (mem_append_right _ mem_cons_self)
      · exact .inl mem
    · exact .inr (mem_append_left _ mem)

lemma foldlM_visitOrder {refs : List ProviderRef}
    (h : refs.foldlM (visitOrder edges fuel) before = .ok after) :
    Lists before after ∧ ∀ ref ∈ refs, ref ∈ after.1 := by
  induction refs generalizing before with
  | nil =>
    cases h
    exact ⟨.refl _, nofun⟩
  | cons ref refs ih =>
    rw [foldlM_cons] at h
    obtain ⟨_, first, rest⟩ := bind_ok.mp h
    obtain ⟨lists, here⟩ := visitOrder_lists first
    obtain ⟨lists', others⟩ := ih rest
    exact ⟨lists.trans lists', forall_mem_cons.mpr ⟨lists'.visited here, others⟩⟩

end

end ToriPy.Core
