import ToriPy.Core.Soundness

/-!
# Startup of a compiled graph

`ApplicationKernel.start` resolves every singleton at application scope. In a graph that compiles the
resolution goes down in the order of the cycle check, meets no request-scoped provider, no missing
plan and no alias recipe, and returns whenever the constructors do.

`Returns` is said of a task that returns when all its calls do, in a store that is open; it passes
through the pieces that the container is made of.
-/

namespace ToriPy.Core

open List
open DepthFirst Relation

/-! ### Tasks that return -/

variable {ref : ProviderRef} {rank : ProviderRef → Nat} {plans : List ModulePlan}

section
variable {α β γ : Type}

def Open (store : Store β) : Prop := store.closed = false ∧ store.application.closed = false

def Answered (trace : List (Call β × Answer β)) : Prop :=
  ∀ entry ∈ trace, ∃ value, entry.2.result = .ok value

lemma answered_append {before after : List (Call β × Answer β)} :
    Answered (before ++ after) ↔ Answered before ∧ Answered after :=
  forall_mem_append

def Returns (task : Work β α) : Prop :=
  ∀ s trace result s', task.Runs s trace result s' → Answered trace → Open s →
    (∃ a, result = .ok a) ∧ Open s'

namespace Returns

lemma pure (a : α) : Returns (β := β) (Pure.pure a) := by
  intro s trace result s' run _ is_open
  cases run
  exact ⟨⟨a, rfl⟩, is_open⟩

lemma bind {task} {f : α → Work β γ} (h : Returns task) (h' : ∀ a, Returns (f a)) :
    Returns (task >>= f) := by
  intro s trace result s' run answered is_open
  rcases run.bind with ⟨e, first, rfl⟩ | ⟨a, _, _, _, first, rest, rfl⟩
  · obtain ⟨⟨a, impossible⟩, -⟩ := h _ _ _ _ first answered is_open
    cases impossible
  · obtain ⟨answered, answered'⟩ := answered_append.mp answered
    obtain ⟨-, is_open⟩ := h _ _ _ _ first answered is_open
    exact h' a _ _ _ _ rest answered' is_open

lemma read {f : Store β → α} {next : α → Work β γ} (h : ∀ s, Open s → Returns (next (f s))) :
    Returns (Task.read f >>= next) := by
  intro s trace result s' run answered is_open
  rcases run.bind with ⟨e, first, rfl⟩ | ⟨a, _, _, _, first, rest, rfl⟩
  · obtain ⟨-, impossible, -⟩ := first.read
    cases impossible
  · obtain ⟨rfl, same, rfl⟩ := first.read
    cases same
    exact h _ is_open _ _ _ _ rest answered is_open

lemma update (kind : ScopeKind) {f : ScopeState β → ScopeState β}
    (keeps : ∀ state, (f state).closed = state.closed) :
    Returns (Task.modify fun store => store.update kind f) := by
  intro s trace result s' run _ is_open
  obtain ⟨rfl, rfl, rfl⟩ := run.modify
  refine ⟨⟨(), rfl⟩, ?_⟩
  cases kind with
  | application => exact ⟨is_open.1, (keeps _).trans is_open.2⟩
  | request => exact is_open

lemma perform (call : Call β) : Returns (Core.perform call) := by
  intro s trace result s' run answered is_open
  rcases run.bind with ⟨e, first, rfl⟩ | ⟨answer, _, _, _, first, rest, rfl⟩
  · obtain ⟨_, -, impossible, -⟩ := first.call
    cases impossible
  obtain ⟨_, rfl, same, rfl⟩ := first.call
  cases same
  cases rest
  obtain ⟨value, hvalue⟩ := answered (call, answer) mem_cons_self
  exact ⟨⟨value, hvalue⟩, is_open⟩

lemma rescue {task : Work β α} {handler : Failure → Work β α} (h : Returns task) :
    Returns (task.rescue handler) := by
  intro s trace result s' run answered is_open
  rcases run.rescue with ⟨a, first, rfl⟩ | ⟨e, _, _, _, first, -, rfl⟩
  · exact ⟨⟨a, rfl⟩, (h _ _ _ _ first answered is_open).2⟩
  · obtain ⟨⟨a, impossible⟩, -⟩ := h _ _ _ _ first (answered_append.mp answered).1 is_open
    cases impossible

lemma foldlM {f : α → γ → Work β α} {xs : List γ} (h : ∀ a, ∀ x ∈ xs, Returns (f a x)) (a : α) :
    Returns (xs.foldlM f a) := by
  induction xs generalizing a with
  | nil => exact .pure a
  | cons x xs ih =>
    rw [foldlM_cons]
    apply bind (h a x mem_cons_self)
    intro a
    exact ih (fun a x mem => h a x (mem_cons_of_mem _ mem)) a

lemma forM {f : α → Work β Unit} {xs : List α} (h : ∀ x ∈ xs, Returns (f x)) :
    Returns (xs.forM f) := by
  induction xs with
  | nil => exact .pure ()
  | cons x xs ih =>
    apply bind (h x mem_cons_self)
    intro _
    exact ih fun x mem => h x (mem_cons_of_mem _ mem)

end Returns

/-! ### Constructions that return -/

variable {env : Env β} {resolve : ProviderRef → Work β (Resolved β)} {recipe : ConstructionRecipe}

lemma returns_manage (ref : ProviderRef) (managed : Bool) (value : β) :
    Returns (manage env .application ref managed value) := by
  unfold manage
  split
  · apply Returns.read
    intro s is_open
    have is_open : (s.scope .application).closed = false := is_open.2
    rw [is_open, if_neg Bool.false_ne_true]
    split
    · exact .pure _
    apply Returns.bind (.perform _)
    intro entered
    apply Returns.read
    intro s _
    refine .bind (.update .application ?_) fun _ => .pure _
    exact fun _ => rfl
  · exact .pure _

lemma returns_construct {plan}
    (runtime : env.workScopeFactory.isSome = true ∧ env.intrinsicProvider.isSome = true)
    (found : findProvider env.graph.providers ref = some plan)
    (constructs : recipe.invoker ≠ .uncanonicalizedAlias)
    (resolves : ∀ dependency ∈ recipe.references, Returns (resolve dependency)) :
    Returns (construct env resolve ref recipe .application) := by
  obtain ⟨factory, hfactory⟩ := Option.isSome_iff_exists.mp runtime.1
  obtain ⟨provider, hprovider⟩ := Option.isSome_iff_exists.mp runtime.2
  unfold construct
  rw [found]
  apply Returns.read
  intro s _
  apply Returns.rescue
  apply Returns.bind
  · apply Returns.foldlM
    intro arguments dependency mem
    unfold addArgument
    split
    · -- An intrinsic dependency is answered by the kernel.
      rename_i token _
      have answer : ∃ value, intrinsicArgument env ref.moduleId token = .ok value := by
        unfold intrinsicArgument
        rw [hfactory, hprovider]
        split
        · exact ⟨_, rfl⟩
        · exact ⟨_, rfl⟩
      obtain ⟨value, hvalue⟩ := answer
      rw [hvalue]
      exact .bind (.pure value) fun _ => .pure _
    · split
      · exact .pure _
      · rename_i dependencyRef here
        have listed : dependencyRef ∈ recipe.references :=
          mem_filterMap.mpr ⟨dependency, mem, here⟩
        exact .bind (resolves dependencyRef listed) fun _ => .pure _
  · intro arguments
    apply Returns.bind
    · unfold invoke
      split
      · exact absurd ‹_› constructs
      · exact .perform _
    · intro value
      exact .bind (returns_manage ref recipe.manage value) fun _ => .pure _

lemma returns_resolveCached (h : Returns (construct env resolve ref recipe .application)) :
    Returns (resolveCached env resolve ref recipe .application) := by
  apply Returns.read
  intro s _
  split
  · exact .pure _
  · apply Returns.bind h
    intro resolved
    refine .bind (.update .application ?_) fun _ => .pure _
    exact fun _ => rfl

end

/-! ### Resolution at application scope -/

namespace CompiledGraph

variable (graph : CompiledGraph)

/-- The runtime comes from the first provider to the second. -/
def Depends (ref dependency : ProviderRef) : Prop :=
  ∃ plan, findProvider graph.providers ref = some plan ∧ dependency ∈ plan.recipe.references

/-- A provider that can be resolved at application scope. -/
def Unscoped (ref : ProviderRef) : Prop :=
  ∃ plan, findProvider graph.providers ref = some plan ∧ plan.scope ≠ .request

end CompiledGraph

lemma returns_resolveRef {β : Type} {env : Env β}
    (linked : Linked env.graph.providers env.graph.visibility)
    (runtime : env.workScopeFactory.isSome = true ∧ env.intrinsicProvider.isSome = true)
    (down : ∀ ref dependency, env.graph.Depends ref dependency → rank dependency < rank ref) {fuel}
    (enough : rank ref < fuel) (here : env.graph.Unscoped ref)
    (below : ∀ target, TransGen env.graph.Depends ref target → env.graph.Unscoped target) :
    Returns (resolveRef env fuel .application ref) := by
  induction fuel generalizing ref with
  | zero => exact absurd enough (Nat.not_lt_zero _)
  | succ fuel ih =>
    obtain ⟨plan, found, scope⟩ := here
    obtain ⟨canonicalPlan, there, none, -, recipe, -⟩ := linked.canonical found
    have constructs : Returns (construct env (resolveRef env fuel .application) plan.canonical
        plan.recipe .application) := by
      apply returns_construct runtime there
      · rw [recipe]
        exact (linked.recipe there none).2
      intro dependency mem
      have step : env.graph.Depends ref dependency := ⟨plan, found, mem⟩
      apply ih
      · have lower := down ref dependency step
        omega
      · exact below dependency (.single step)
      · intro target reach
        exact below target (.head step reach)
    unfold resolveRef
    apply Returns.read
    intro s is_open
    rw [is_open.1, if_neg Bool.false_ne_true, found]
    dsimp only
    unfold resolvePlan
    split
    · exact returns_resolveCached constructs
    · rename_i request _
      exact absurd request scope
    · rename_i request _
      exact absurd request scope
    · exact constructs

/-! ### Compiled graphs -/

/-- What the runtime relies on. -/
structure Runnable (graph : CompiledGraph) : Prop where
  /-- Dependencies stay inside the compiled providers. -/
  closed : ∀ {ref dependency}, graph.Depends ref dependency →
    ∃ plan, findProvider graph.providers dependency = some plan
  /-- A chain of aliases ends at a provider that is no alias, and shares its recipe and scope. -/
  canonical : ∀ {ref plan}, findProvider graph.providers ref = some plan →
    AliasChain graph.providers graph.visibility ref plan.canonical ∧ ∃ canonicalPlan,
      findProvider graph.providers plan.canonical = some canonicalPlan ∧
      canonicalPlan.declaration.target = none ∧ plan.recipe = canonicalPlan.recipe ∧
      plan.scope = canonicalPlan.scope
  /-- Following dependencies ends. -/
  terminates : WellFounded fun dependency ref => graph.Depends ref dependency
  /-- No singleton reaches a request-scoped provider. -/
  scopes : ∀ {ref plan target}, findProvider graph.providers ref = some plan →
    plan.scope = .singleton → TransGen graph.Depends ref target → graph.Unscoped target
  /-- Startup returns when the constructors do, with a recursion of bounded depth. -/
  starts : ∃ depth, ∀ {β : Type} (env : Env β) (fuel : Nat), env.graph = graph → depth < fuel →
    env.workScopeFactory.isSome = true → env.intrinsicProvider.isSome = true →
    (∀ trace result store, (resolveSingletons env fuel).Runs {} trace result store →
      Answered trace → result = .ok ()) ∧
    ∀ oracle : Call β → Answer β, (∀ call, ∃ value, (oracle call).result = .ok value) →
      ∃ trace store, (resolveSingletons env fuel).Runs {} trace (.ok ()) store

/-- What the passes of `_finish` leave for its result. -/
structure Checked (graph : CompiledGraph) : Prop where
  linked : Linked graph.providers graph.visibility
  ranked : ∃ rank : ProviderRef → Nat, ∀ ref dependency, graph.Depends ref dependency →
    rank dependency < rank ref
  scopes : ∀ {ref plan target}, findProvider graph.providers ref = some plan →
    plan.scope = .singleton → TransGen graph.Depends ref target → graph.Unscoped target
  ordered : ∀ ref ∈ graph.providerOrder, ∃ plan, findProvider graph.providers ref = some plan

lemma finish_ok {rootId graph} (h : finish rootId plans = .ok graph) : Checked graph := by
  obtain ⟨visibility, -, h⟩ := bind_ok.mp h
  obtain ⟨providers, hproviders, h⟩ := bind_ok.mp h
  obtain ⟨edges, hedges, h⟩ := bind_ok.mp h
  obtain ⟨_, cycles, h⟩ := bind_ok.mp h
  obtain ⟨scopes, h⟩ := then_ok.mp h
  obtain ⟨order, horder, h⟩ := bind_ok.mp h
  obtain ⟨modules, -, h⟩ := bind_ok.mp h
  cases h
  obtain ⟨linked, same⟩ := linkProviders_ok hproviders
  have reach : ∀ {ref target}, CompiledGraph.Depends
      ⟨rootId, modules, providers, visibility, order⟩ ref target →
      TransGen (fun ref target => target ∈ edgesOf edges ref) ref target := by
    rintro ref target ⟨plan, found, mem⟩
    exact edges_of_recipe linked hedges found mem
  refine ⟨linked, ?_, ?_, ?_⟩
  · obtain ⟨rank, down⟩ := validateProviderCycles_ok cycles
    refine ⟨rank, ?_⟩
    intro ref dependency step
    have path := reach step
    clear step
    induction path with
    | single mem => exact down _ _ mem
    | tail _ mem ih => exact Nat.lt_trans (down _ _ mem) ih
  · intro ref plan target found singleton path
    have listed : plan ∈ providers.filter (·.scope = .singleton) := by
      rw [mem_filter]
      exact ⟨mem_of_find?_eq_some found, decide_eq_true singleton⟩
    have checked := forM_ok.mp scopes plan listed
    rw [findProvider_key found] at checked
    apply visitScopes_ok checked
    induction path with
    | single step => exact reach step
    | tail _ step ih => exact ih.trans (reach step)
  · obtain ⟨⟨_, _⟩, loop, horder⟩ := bind_ok.mp horder
    cases horder
    have roots : ∀ ref ∈ (plans.flatMap (·.providers)).map (·.key),
        ∃ plan, findProvider providers ref = some plan := by
      intro ref mem
      obtain ⟨provider, listed, rfl⟩ := mem_map.mp mem
      rw [← Option.isSome_iff_exists, ← same, findProvider, find?_isSome]
      exact ⟨provider, listed, decide_eq_true rfl⟩
    have all := foldlM_keeps
      (P := fun state : List ProviderRef × List ProviderRef => ∀ ref ∈ state.2,
        ∃ plan, findProvider providers ref = some plan)
      (fun mem round kept => visitOrder_ok
        (P := fun ref => ∃ plan, findProvider providers ref = some plan)
        (fun _ _ edge => known_of_edge linked hedges edge) round (roots _ mem) kept)
      loop (fun _ mem => absurd mem not_mem_nil)
    exact all

lemma finish_complete {rootId graph} (h : finish rootId plans = .ok graph) {plan}
    (found : findProvider graph.providers ref = some plan) : ref ∈ graph.providerOrder := by
  obtain ⟨_, -, h⟩ := bind_ok.mp h
  obtain ⟨providers, hproviders, h⟩ := bind_ok.mp h
  obtain ⟨_, -, h⟩ := bind_ok.mp h
  obtain ⟨_, -, h⟩ := bind_ok.mp h
  obtain ⟨-, h⟩ := then_ok.mp h
  obtain ⟨_, horder, h⟩ := bind_ok.mp h
  obtain ⟨_, -, h⟩ := bind_ok.mp h
  cases h
  obtain ⟨-, same⟩ := linkProviders_ok hproviders
  have declared : ∃ provider ∈ plans.flatMap (·.providers), provider.key = ref := by
    have known : (findProvider (plans.flatMap (·.providers)) ref).isSome = true := by
      rw [same, found]
      rfl
    obtain ⟨provider, mem, key⟩ := find?_isSome.mp known
    exact ⟨provider, mem, of_decide_eq_true key⟩
  obtain ⟨_, mem, rfl⟩ := declared
  obtain ⟨⟨_, _⟩, loop, horder⟩ := bind_ok.mp horder
  cases horder
  obtain ⟨lists, all⟩ := foldlM_visitOrder loop
  rcases lists.listed _ (all _ (mem_map_of_mem mem)) with impossible | listed
  · cases impossible
  · exact listed

lemma returns_resolveSingletons {β : Type} {env : Env β} {fuel : Nat} (checked : Checked env.graph)
    (runtime : env.workScopeFactory.isSome = true ∧ env.intrinsicProvider.isSome = true)
    (down : ∀ ref dependency, env.graph.Depends ref dependency → rank dependency < rank ref)
    (enough : ∀ ref ∈ env.graph.providerOrder, rank ref < fuel) :
    Returns (resolveSingletons env fuel) := by
  apply Returns.forM
  intro ref mem
  obtain ⟨plan, found⟩ := checked.ordered ref mem
  unfold resolveSingleton
  rw [found]
  dsimp only
  split
  · rename_i singleton
    refine .bind ?_ fun _ => .pure ()
    apply returns_resolveRef checked.linked runtime down (enough ref mem)
    · exact ⟨plan, found, by rw [singleton]; exact nofun⟩
    · intro target path
      exact checked.scopes found singleton path
  · exact .pure ()

/-- A graph that compiles is safe to run. -/
theorem compiled_runnable (program : Program) (fuel : Nat) (root : ModuleImport)
    (graph : CompiledGraph) (h : compileGraph program fuel root = .ok graph) : Runnable graph := by
  obtain ⟨⟨_, _⟩, -, h⟩ := bind_ok.mp h
  obtain ⟨_, -, h⟩ := bind_ok.mp h
  have checked := finish_ok h
  obtain ⟨rank, down⟩ := checked.ranked
  refine ⟨?_, ?_, ?_, checked.scopes, ?_⟩
  · rintro ref dependency ⟨plan, found, mem⟩
    obtain ⟨canonicalPlan, there, none, -, recipe, -⟩ := checked.linked.canonical found
    apply checked.linked.known there
    rw [← (checked.linked.recipe there none).1, ← recipe]
    exact mem
  · intro ref plan found
    obtain ⟨canonicalPlan, there, none, -, recipe, scope⟩ := checked.linked.canonical found
    exact ⟨checked.linked.chain found, canonicalPlan, there, none, recipe, scope⟩
  · apply Subrelation.wf _ (measure rank).wf
    intro dependency ref step
    exact down ref dependency step
  · -- The depth is the highest rank of a provider in the order.
    refine ⟨(graph.providerOrder.map rank).sum, ?_⟩
    intro β env fuel same enough factory provider
    subst same
    have returns : Returns (resolveSingletons env fuel) := by
      apply returns_resolveSingletons checked ⟨factory, provider⟩ down
      intro ref mem
      have bound := single_le_sum (fun _ _ => Nat.zero_le _) _
        (mem_map_of_mem (f := rank) mem)
      exact Nat.lt_of_le_of_lt bound enough
    have clear : Open ({} : Store β) := ⟨rfl, rfl⟩
    refine ⟨?_, ?_⟩
    · intro trace result store run answered
      obtain ⟨⟨⟨⟩, result⟩, -⟩ := returns _ _ _ _ run answered clear
      exact result
    · intro oracle succeeds
      obtain ⟨trace, _, store, run, follows⟩ :=
        Task.exists_run oracle (resolveSingletons env fuel) {}
      obtain ⟨⟨⟨⟩, rfl⟩, -⟩ := returns _ _ _ _ run (by
        intro entry mem
        rw [follows entry mem]
        exact succeeds entry.1) clear
      exact ⟨trace, store, run⟩

/-- A service with a chain of two aliases and a transient below it, and a request-scoped handler. -/
def serviceProgram : Program where
  metadata _ := .ok {
    providers := [
      .value (.text "settings") 0 false,
      .alias (.text "config") (.text "settings"),
      .alias (.text "current") (.text "config"),
      .cls (.cls ⟨21, "Helper"⟩) ⟨21, "Helper"⟩
        (some [{ name := "settings", annotation := { markers := [.text "settings"] } }]) .transient
        true false [],
      .cls (.cls ⟨22, "Service"⟩) ⟨22, "Service"⟩
        (some [{ name := "config", annotation := { markers := [.text "current"] } },
          { name := "helper", annotation := { cls := some ⟨21, "Helper"⟩ } }]) .singleton
        true false [],
      .cls (.cls ⟨23, "Handler"⟩) ⟨23, "Handler"⟩
        (some [{ name := "service", annotation := { cls := some ⟨22, "Service"⟩ } }]) .request
        true false []] }
  materialize _ := .ok {}

/-- The service compiles and can be run. -/
theorem service_runnable : ∃ graph,
    compileGraph serviceProgram 1 (.static ⟨20, "ServiceModule"⟩) = .ok graph ∧
    graph.providerOrder.map (·.token.label) =
      ["settings", "config", "current", "Helper", "Service", "Handler"] ∧
    Runnable graph := by
  have compiled : (compileGraph serviceProgram 1 (.static ⟨20, "ServiceModule"⟩)).toOption.map
      (·.providerOrder.map (·.token.label)) =
        some ["settings", "config", "current", "Helper", "Service", "Handler"] := by
    decide +kernel
  obtain ⟨graph, found, order⟩ := Option.map_eq_some_iff.mp compiled
  have found := ok_of_toOption found
  exact ⟨graph, found, order, compiled_runnable _ _ _ graph found⟩

end ToriPy.Core
