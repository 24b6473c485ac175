import ToriPy.Base.Handover
import ToriPy.Http.Pipeline

/-!
# What the stages of the pipeline do

One lemma for each stage, from the guards to the renderers. Up to the point where it calls a middleware,
an interceptor or the handler, an activation makes plain calls only, and what it has learned by then is
in their answers: `Admitted` says what the answers are before the handler may run, `Ready` what a
callback goes on with, and `Free` how an activation lets go of the cells.

The other half is about errors. An activation raises what one of its calls raises; only `run` handles
errors, and `Answered` is the specification of how it does.
-/

namespace ToriPy.Http

open List
open Core

variable {π : Type}

/-- A call that is none of a middleware, an interceptor or the handler. -/
def plain : Call π → Bool
  | .handle _ _ => false
  | .intercept _ _ => false
  | .handler _ => false
  | _ => true

/-! ### What is known from answers -/

section
variable (known : List (Call π × Answer π))

/-- A component is the object that is bound or the provider's instance. -/
def Instance : Binding π → Value π → Prop
  | .ref ref, value => (.resolve ref, .ok value) ∈ known
  | .object object, value => value = object

def Piped (metadata : ArgumentMetadata π) : List (Value π) → Value π → Value π → Prop
  | [], bound, value => value = bound
  | pipe :: pipes, bound, value =>
    ∃ mid, (.transform pipe bound metadata, .ok mid) ∈ known ∧ Piped metadata pipes mid value

/-- A parameter has a value, and if it is neither the context nor injected the value went through
the pipes. -/
def Supplied (plan : RoutePlan π) (pipes : List (Value π)) (arguments : Dict String (Value π))
    (parameter : ParameterPlan π) : Prop :=
  ∃ bound value, (.bind parameter, .ok bound) ∈ known ∧
    arguments.lookup parameter.name = some value ∧
    if parameter.kind = .context ∨ parameter.kind = .inject then value = bound
    else Piped known (plan.metadata parameter) pipes bound value

/-- What the answers are before the handler may run with its arguments. -/
structure Admitted (executor : PipelineExecutor π) (plan : RoutePlan π)
    (arguments : Dict String (Value π)) : Prop where
  /-- Every guard of the three groups returned true. -/
  guards : ∃ guards, List.Forall₂ (Instance known) (inOrder executor plan (·.guards)) guards ∧
    ∀ guard ∈ guards, ∃ allowed, executor.truthy allowed = true ∧
      (.canActivate guard, .ok allowed) ∈ known
  /-- The arguments of the parameters went through the pipes of the three groups. -/
  pipes : ∃ pipes, List.Forall₂ (Instance known) (inOrder executor plan (·.pipes)) pipes ∧
    ∀ parameter ∈ plan.parameters, Supplied known plan pipes arguments parameter
  /-- There is no other argument. -/
  parameters : ∀ name value, arguments.lookup name = some value →
    name ∈ plan.parameters.map (·.name)

/-- What a callback goes on with, after the middleware and interceptors that were entered. -/
def Ready (executor : PipelineExecutor π) (plan : RoutePlan π) (entered intercepted : List (Value π)) :
    Step π → Prop
  | .middleware rest =>
    List.Forall₂ (Instance known) (inOrder executor plan (·.middleware)) (entered ++ rest) ∧
      intercepted = []
  | .interceptors rest arguments =>
    List.Forall₂ (Instance known) (inOrder executor plan (·.interceptors)) (intercepted ++ rest) ∧
      Admitted known executor plan arguments

end

section
variable {known known' : List (Call π × Answer π)}

variable {pipes : List (Value π)} {value : Value π} {metadata : ArgumentMetadata π}

lemma Instance.mono {binding} (h : Instance known binding value) (more : known ⊆ known') :
    Instance known' binding value := by
  cases binding with
  | ref => exact more h
  | object => exact h

lemma Instance.all_mono {bindings values} (h : List.Forall₂ (Instance known) bindings values)
    (more : known ⊆ known') : List.Forall₂ (Instance known') bindings values :=
  h.imp fun _ _ instance_ => instance_.mono more

lemma Piped.mono {bound} (h : Piped known metadata pipes bound value) (more : known ⊆ known') :
    Piped known' metadata pipes bound value := by
  induction pipes generalizing bound with
  | nil => exact h
  | cons pipe pipes ih =>
    obtain ⟨mid, mem, rest⟩ := h
    exact ⟨mid, more mem, ih rest⟩

lemma Piped.snoc {pipe bound value'} (h : Piped known metadata pipes bound value)
    (mem : (.transform pipe value metadata, .ok value') ∈ known) :
    Piped known metadata (pipes ++ [pipe]) bound value' := by
  induction pipes generalizing bound with
  | nil =>
    cases h
    exact ⟨value', mem, rfl⟩
  | cons first pipes ih =>
    obtain ⟨mid, there, rest⟩ := h
    exact ⟨mid, there, ih rest⟩

lemma Supplied.mono {plan arguments parameter} (h : Supplied known plan pipes arguments parameter)
    (more : known ⊆ known') : Supplied known' plan pipes arguments parameter := by
  obtain ⟨bound, value, mem, found, through⟩ := h
  refine ⟨bound, value, more mem, found, ?_⟩
  split
  · rename_i kind
    rw [if_pos kind] at through
    exact through
  · rename_i kind
    rw [if_neg kind] at through
    exact through.mono more

lemma Admitted.mono {executor plan arguments} (h : Admitted known executor plan arguments)
    (more : known ⊆ known') : Admitted known' executor plan arguments := by
  obtain ⟨guards, instances, allowed⟩ := h.guards
  obtain ⟨pipes, instances', supplied⟩ := h.pipes
  refine ⟨⟨guards, Instance.all_mono instances more, ?_⟩,
    ⟨pipes, Instance.all_mono instances' more, ?_⟩, h.parameters⟩
  · intro guard mem
    obtain ⟨answer, truthy, there⟩ := allowed guard mem
    exact ⟨answer, truthy, more there⟩
  · exact fun parameter mem => (supplied parameter mem).mono more

lemma Ready.mono {executor plan entered intercepted step}
    (h : Ready known executor plan entered intercepted step) (more : known ⊆ known') :
    Ready known' executor plan entered intercepted step := by
  cases step with
  | middleware => exact ⟨Instance.all_mono h.1 more, h.2⟩
  | interceptors => exact ⟨Instance.all_mono h.1 more, h.2.mono more⟩

end

/-! ### Errors -/

def Clean (trace : List (Call π × Answer π)) : Prop :=
  ∀ entry ∈ trace, ∃ value, entry.2 = .ok value

section
variable (executor : PipelineExecutor π)

def Own (error : Failure) : Prop :=
  error = .httpException 403 "Forbidden." ∨
    ∃ value, executor.transport.normalizeResult value = .error error

/-- An error of the last call, or of the pipeline itself. -/
def Failed (trace : List (Call π × Answer π)) (error : Failure) : Prop :=
  Clean trace ∧ Own executor error ∨
    ∃ before call, trace = before ++ [(call, .error error)] ∧ Clean before

def Calm (trace : List (Call π × Answer π)) : Prop :=
  ∀ entry ∈ trace, ∀ error, entry.2 = .error error → executor.fatal error = false

/-- A fatal error is the last thing an activation gets to know, and it raises it. -/
def Final (trace : List (Call π × Answer π)) (result : Answer π) : Prop :=
  Calm executor trace ∨
    ∃ before call error, trace = before ++ [(call, .error error)] ∧ Calm executor before ∧
      result = .error error

def Quiet (trace : List (Call π × Answer π)) (call : Call π) : Prop :=
  plain call = true ∧ Calm executor trace

end

section
variable {executor : PipelineExecutor π} {trace : List (Call π × Answer π)}

lemma Clean.nil : Clean ([] : List (Call π × Answer π)) := fun _ mem => absurd mem not_mem_nil

variable {call : Call π} {error : Failure} {more : List (Call π × Answer π)}

lemma Clean.snoc {value} (h : Clean trace) : Clean (trace ++ [(call, .ok value)]) :=
  forall_mem_append.mpr ⟨h, forall_mem_singleton.mpr ⟨value, rfl⟩⟩

lemma Clean.calm (h : Clean trace) : Calm executor trace := by
  intro entry mem error same
  obtain ⟨_, other⟩ := h entry mem
  cases same.symm.trans other

lemma Clean.failed (h : Clean trace) : Failed executor (trace ++ [(call, .error error)]) error :=
  .inr ⟨trace, call, rfl, h⟩

lemma Calm.append (h : Calm executor trace)
    (h' : Calm executor more) : Calm executor (trace ++ more) :=
  forall_mem_append.mpr ⟨h, h'⟩

lemma Calm.single {answer} (h : ∀ error, answer = .error error → executor.fatal error = false) :
    Calm executor [(call, answer)] :=
  forall_mem_singleton.mpr h

lemma Failed.final (h : Failed executor trace error) : Final executor trace (.error error) := by
  rcases h with ⟨clean, -⟩ | ⟨before, call, rfl, clean⟩
  · exact .inl clean.calm
  · exact .inr ⟨before, call, error, rfl, clean.calm, rfl⟩

lemma Final.calm (h : Final executor trace (.error error))
    (ordinary : executor.fatal error = false) : Calm executor trace := by
  rcases h with calm | ⟨_, _, _, rfl, calm, same⟩
  · exact calm
  cases same
  refine calm.append (Calm.single ?_)
  intro other same
  cases same
  exact ordinary

lemma Final.append {result} (h : Calm executor trace)
    (h' : Final executor more result) : Final executor (trace ++ more) result := by
  rcases h' with calm | ⟨before, call, error, rfl, calm, same⟩
  · exact .inl (h.append calm)
  · exact .inr ⟨trace ++ before, call, error, (append_assoc _ _ _).symm, h.append calm, same⟩

lemma only_perform {P E} (quiet : Quiet executor trace call)
    (values : ∀ value, P (trace ++ [(call, .ok value)]) value)
    (errors : ∀ error, E (trace ++ [(call, .error error)]) error) :
    (perform call).Only (Quiet executor) P E trace := by
  refine ⟨quiet, fun answer => ?_⟩
  cases answer with
  | ok value => exact values value
  | error error => exact errors error

end

/-! ### The stages up to the handler -/

def Grown (trace trace' : List (Call π × Answer π)) : Prop := Clean trace' ∧ trace ⊆ trace'

section
variable {executor : PipelineExecutor π} {plan : RoutePlan π} {trace : List (Call π × Answer π)}

lemma Grown.refl (clean : Clean trace) : Grown trace trace := ⟨clean, List.Subset.refl _⟩

lemma Grown.trans {mid trace'} (h : Grown trace mid) (h' : Grown mid trace') : Grown trace trace' :=
  ⟨h'.1, List.Subset.trans h.2 h'.2⟩

lemma only_call {call} (clean : Clean trace) (isPlain : plain call = true) :
    (perform call).Only (Quiet executor)
      (fun trace' value => Grown trace trace' ∧ (call, .ok value) ∈ trace') (Failed executor) trace := by
  refine only_perform ⟨isPlain, clean.calm⟩ ?_ ?_
  · intro value
    exact ⟨⟨clean.snoc, subset_append_left _ _⟩,
      mem_append_right _ (mem_singleton.mpr rfl)⟩
  · exact fun error => clean.failed

lemma only_resolveBinding (binding : Binding π) (clean : Clean trace) :
    (resolveBinding binding).Only (Quiet executor)
      (fun trace' value => Grown trace trace' ∧ Instance trace' binding value)
      (Failed executor) trace := by
  cases binding with
  | ref => exact only_call clean rfl
  | object => exact ⟨.refl clean, rfl⟩

lemma only_resolvePipeline (bindings : List (Binding π)) (clean : Clean trace) :
    (resolvePipeline bindings).Only (Quiet executor)
      (fun trace' instances => Grown trace trace' ∧
        List.Forall₂ (Instance trace') bindings instances) (Failed executor) trace := by
  -- The invariant: the bindings that are done have the instances.
  apply Task.Only.foldlM fun rest trace' instances => Grown trace trace' ∧
    ∃ done, bindings = done ++ rest ∧ List.Forall₂ (Instance trace') done instances
  · intro binding rest trace₁ instances ⟨grown, done, whole, all⟩
    refine (only_resolveBinding binding grown.1).next ?_
    intro trace₂ value ⟨grown₂, instance_⟩
    refine ⟨grown.trans grown₂, done ++ [binding], ?_, ?_⟩
    · rw [whole, append_assoc, singleton_append]
    · exact rel_append (Instance.all_mono all grown₂.2) (.cons instance_ .nil)
  · rintro trace₁ instances ⟨grown, _, whole, all⟩
    rw [append_nil] at whole
    exact ⟨grown, whole ▸ all⟩
  · exact ⟨.refl clean, [], rfl, .nil⟩

def Allowed (executor : PipelineExecutor π) (known : List (Call π × Answer π))
    (guards : List (Value π)) : Prop :=
  ∀ guard ∈ guards, ∃ allowed, executor.truthy allowed = true ∧
    (.canActivate guard, .ok allowed) ∈ known

lemma Allowed.mono {known known' guards} (h : Allowed executor known guards)
    (more : known ⊆ known') : Allowed executor known' guards := by
  intro guard mem
  obtain ⟨allowed, truthy, there⟩ := h guard mem
  exact ⟨allowed, truthy, more there⟩

lemma only_runGuard (guard : Value π) (clean : Clean trace) :
    (runGuard executor guard).Only (Quiet executor)
      (fun trace' _ => Grown trace trace' ∧ Allowed executor trace' [guard])
      (Failed executor) trace := by
  refine (only_call clean rfl).next ?_
  intro trace₁ allowed ⟨grown, mem⟩
  split
  · rename_i truthy
    exact ⟨grown, forall_mem_singleton.mpr ⟨allowed, truthy, mem⟩⟩
  · exact .inl ⟨grown.1, .inl rfl⟩

lemma only_runGuards (clean : Clean trace) :
    (runGuards executor plan).Only (Quiet executor)
      (fun trace' _ => Grown trace trace' ∧ ∃ guards,
        List.Forall₂ (Instance trace') (inOrder executor plan (·.guards)) guards ∧
        Allowed executor trace' guards) (Failed executor) trace := by
  refine (only_resolvePipeline _ clean).next ?_
  intro trace₁ guards ⟨grown, all⟩
  -- The invariant: the guards that are done returned true.
  apply Task.Only.forM fun rest trace' => Grown trace₁ trace' ∧
    ∃ done, guards = done ++ rest ∧ Allowed executor trace' done
  · intro guard rest trace₂ ⟨grown₂, done, whole, allowed⟩
    refine (only_runGuard guard grown₂.1).imp ?_
    intro trace₃ _ ⟨grown₃, also⟩
    refine ⟨grown₂.trans grown₃, done ++ [guard], ?_, ?_⟩
    · rw [whole, append_assoc, singleton_append]
    · exact forall_mem_append.mpr ⟨allowed.mono grown₃.2, also⟩
  · rintro trace₂ ⟨grown₂, _, whole, allowed⟩
    rw [append_nil] at whole
    exact ⟨grown.trans grown₂, guards, Instance.all_mono all grown₂.2, whole ▸ allowed⟩
  · exact ⟨.refl grown.1, [], rfl, fun _ mem => absurd mem not_mem_nil⟩

def Held (known : List (Call π × Answer π)) (arguments : Dict String (Value π))
    (parameter : ParameterPlan π) : Prop :=
  ∃ bound, (.bind parameter, .ok bound) ∈ known ∧ arguments.lookup parameter.name = some bound

variable {arguments : Dict String (Value π)} {parameter : ParameterPlan π}
  {arguments' : Dict String (Value π)}

lemma Held.mono {known known'} (h : Held known arguments parameter)
    (more : known ⊆ known') : Held known' arguments parameter := by
  obtain ⟨bound, mem, found⟩ := h
  exact ⟨bound, more mem, found⟩

lemma name_ne {done rest other} (whole : plan.parameters = done ++ parameter :: rest)
    (mem : other ∈ done ++ rest) : other.name ≠ parameter.name := by
  have names := plan.names
  rw [whole, map_append, map_cons, nodup_middle, nodup_cons, ← map_append] at names
  intro same
  exact names.1 (mem_map.mpr ⟨other, mem, same⟩)

lemma only_rejectBody (clean : Clean trace) :
    (rejectBody plan).Only (Quiet executor) (fun trace' _ => Grown trace trace')
      (Failed executor) trace := by
  unfold rejectBody
  split
  · exact (only_call clean rfl).next fun _ _ h => h.1
  · exact .refl clean

lemma only_bindArguments (clean : Clean trace) :
    (bindArguments plan).Only (Quiet executor)
      (fun trace' arguments => Grown trace trace' ∧
        (∀ parameter ∈ plan.parameters, Held trace' arguments parameter) ∧
        ∀ name value, arguments.lookup name = some value → name ∈ plan.parameters.map (·.name))
      (Failed executor) trace := by
  refine (only_rejectBody clean).next ?_
  intro trace₁ _ grown
  -- The invariant: the parameters that are done have their values, and there are no others.
  apply Task.Only.foldlM fun rest trace' arguments => Grown trace trace' ∧
    ∃ done, plan.parameters = done ++ rest ∧ (∀ parameter ∈ done, Held trace' arguments parameter) ∧
      ∀ name value, arguments.lookup name = some value → name ∈ done.map (·.name)
  · intro parameter rest trace₂ arguments ⟨grown₂, done, whole, held, names⟩
    refine (only_call grown₂.1 rfl).next ?_
    intro trace₃ value ⟨grown₃, mem⟩
    refine ⟨grown₂.trans grown₃, done ++ [parameter], ?_, ?_, ?_⟩
    · rw [whole, append_assoc, singleton_append]
    · refine forall_mem_append.mpr ⟨?_, forall_mem_singleton.mpr ?_⟩
      · intro other there
        obtain ⟨bound, asked, found⟩ := held other there
        refine ⟨bound, grown₃.2 asked, ?_⟩
        rw [AList.lookup_insert_ne (name_ne whole (mem_append_left _ there))]
        exact found
      · exact ⟨value, mem, AList.lookup_insert _⟩
    · intro name other found
      rw [map_append, mem_append]
      rcases Dict.insert_cases found with ⟨same, -⟩ | ⟨-, found⟩
      · exact .inr (mem_singleton.mpr same)
      · exact .inl (names name other found)
  · rintro trace₂ arguments ⟨grown₂, _, whole, held, names⟩
    rw [append_nil] at whole
    subst whole
    exact ⟨grown₂, held, names⟩
  · refine ⟨grown, [], rfl, fun _ mem => absurd mem not_mem_nil, ?_⟩
    intro name value found
    cases found

def Underway (plan : RoutePlan π) (known : List (Call π × Answer π)) (pipes : List (Value π))
    (before arguments : Dict String (Value π)) (parameter : ParameterPlan π) : Prop :=
  (∃ bound value, (.bind parameter, .ok bound) ∈ known ∧
    arguments.lookup parameter.name = some value ∧
    Piped known (plan.metadata parameter) pipes bound value) ∧
  ∀ name, name ≠ parameter.name → arguments.lookup name = before.lookup name

lemma only_runPipe {before pipes} (pipe : Value π) (clean : Clean trace)
    (underway : Underway plan trace pipes before arguments parameter) :
    (runPipe plan parameter arguments pipe).Only (Quiet executor)
      (fun trace' arguments' => Grown trace trace' ∧
        Underway plan trace' (pipes ++ [pipe]) before arguments' parameter)
      (Failed executor) trace := by
  obtain ⟨⟨bound, _, asked, found, through⟩, others⟩ := underway
  unfold runPipe
  rw [found]
  refine (only_call clean rfl).next ?_
  intro trace₁ value' ⟨grown, mem⟩
  refine ⟨grown, ⟨bound, value', grown.2 asked, AList.lookup_insert _, ?_⟩, ?_⟩
  · exact (through.mono grown.2).snoc mem
  · intro name different
    rw [AList.lookup_insert_ne different]
    exact others name different

lemma only_pipeArgument (pipes : List (Value π)) (clean : Clean trace)
    (held : Held trace arguments parameter) :
    (pipeArgument plan pipes arguments parameter).Only (Quiet executor)
      (fun trace' arguments' => Grown trace trace' ∧
        Supplied trace' plan pipes arguments' parameter ∧
        ∀ name, name ≠ parameter.name → arguments'.lookup name = arguments.lookup name)
      (Failed executor) trace := by
  obtain ⟨bound, asked, found⟩ := held
  unfold pipeArgument
  split
  · rename_i kind
    refine ⟨.refl clean, ⟨bound, bound, asked, found, ?_⟩, fun _ _ => rfl⟩
    rw [if_pos kind]
  · rename_i kind
    -- The invariant: the value went through the pipes that are done.
    apply Task.Only.foldlM fun rest trace' arguments' => Grown trace trace' ∧
      ∃ done, pipes = done ++ rest ∧ Underway plan trace' done arguments arguments' parameter
    · intro pipe rest trace₁ arguments₁ ⟨grown, done, whole, underway⟩
      refine (only_runPipe pipe grown.1 underway).imp ?_
      intro trace₂ arguments₂ ⟨grown₂, underway₂⟩
      refine ⟨grown.trans grown₂, done ++ [pipe], ?_, underway₂⟩
      rw [whole, append_assoc, singleton_append]
    · rintro trace₁ arguments₁ ⟨grown, _, whole, ⟨bound, value, mem, there, through⟩, others⟩
      rw [append_nil] at whole
      subst whole
      refine ⟨grown, ⟨bound, value, mem, there, ?_⟩, others⟩
      rw [if_neg kind]
      exact through
    · exact ⟨.refl clean, [], rfl, ⟨bound, bound, asked, found, rfl⟩, fun _ _ => rfl⟩

lemma Supplied.frame {known pipes} (h : Supplied known plan pipes arguments parameter)
    (same : arguments'.lookup parameter.name = arguments.lookup parameter.name) :
    Supplied known plan pipes arguments' parameter := by
  obtain ⟨bound, value, mem, found, through⟩ := h
  exact ⟨bound, value, mem, same.trans found, through⟩

lemma Held.frame {known} (h : Held known arguments parameter)
    (same : arguments'.lookup parameter.name = arguments.lookup parameter.name) :
    Held known arguments' parameter := by
  obtain ⟨bound, mem, found⟩ := h
  exact ⟨bound, mem, same.trans found⟩

lemma only_runPipes (clean : Clean trace)
    (held : ∀ parameter ∈ plan.parameters, Held trace arguments parameter)
    (names : ∀ name value, arguments.lookup name = some value →
      name ∈ plan.parameters.map (·.name)) :
    (runPipes executor plan arguments).Only (Quiet executor)
      (fun trace' arguments' => Grown trace trace' ∧
        (∃ pipes, List.Forall₂ (Instance trace') (inOrder executor plan (·.pipes)) pipes ∧
          ∀ parameter ∈ plan.parameters, Supplied trace' plan pipes arguments' parameter) ∧
        ∀ name value, arguments'.lookup name = some value → name ∈ plan.parameters.map (·.name))
      (Failed executor) trace := by
  refine (only_resolvePipeline _ clean).next ?_
  intro trace₁ pipes ⟨grown, all⟩
  -- The invariant: the parameters that are done are supplied, and the others are held.
  apply Task.Only.foldlM fun rest trace' arguments' => Grown trace₁ trace' ∧
    ∃ done, plan.parameters = done ++ rest ∧
      (∀ parameter ∈ done, Supplied trace' plan pipes arguments' parameter) ∧
      (∀ parameter ∈ rest, Held trace' arguments' parameter) ∧
      ∀ name value, arguments'.lookup name = some value → name ∈ plan.parameters.map (·.name)
  · intro parameter rest trace₂ arguments₂ ⟨grown₂, done, whole, supplied, still, names₂⟩
    refine (only_pipeArgument pipes grown₂.1 (still parameter mem_cons_self)).imp ?_
    intro trace₃ arguments₃ ⟨grown₃, also, others⟩
    refine ⟨grown₂.trans grown₃, done ++ [parameter], ?_, ?_, ?_, ?_⟩
    · rw [whole, append_assoc, singleton_append]
    · refine forall_mem_append.mpr ⟨?_, forall_mem_singleton.mpr also⟩
      intro other mem
      apply ((supplied other mem).mono grown₃.2).frame
      exact others _ (name_ne whole (mem_append_left _ mem))
    · intro other mem
      apply ((still other (mem_cons_of_mem _ mem)).mono grown₃.2).frame
      exact others _ (name_ne whole (mem_append_right _ mem))
    · intro name value found
      by_cases same : name = parameter.name
      · rw [same, whole]
        exact mem_map.mpr ⟨parameter, mem_append_right _ mem_cons_self, rfl⟩
      · rw [others name same] at found
        exact names₂ name value found
  · rintro trace₂ arguments₂ ⟨grown₂, _, whole, supplied, -, names₂⟩
    rw [append_nil] at whole
    refine ⟨grown.trans grown₂, ⟨pipes, Instance.all_mono all grown₂.2, ?_⟩, names₂⟩
    intro parameter mem
    exact supplied parameter (whole ▸ mem)
  · refine ⟨.refl grown.1, [], rfl, fun _ mem => absurd mem not_mem_nil, ?_, names⟩
    exact fun parameter mem => (held parameter mem).mono grown.2

end

/-! ### Letting go of the cells -/

section
variable (executor : PipelineExecutor π) (plan : RoutePlan π) (began : List (Next π))
  (P : List (Call π × Answer π) → Value π → Prop) (E : List (Call π × Answer π) → Failure → Prop)

/-- An activation has called the next middleware or interceptor, with a new callback, or the handler,
and leaves the cells alone from here on. -/
inductive Dispatched (trace : List (Call π × Answer π)) :
    Step π → List (Next π) → Work π (Value π) → Prop
  | middleware {middleware : Value π} {rest : List (Value π)} {next : Answer π → Work π (Value π)} :
    (∀ answer, (next answer).Only (Quiet executor) P E
      (trace ++ [(.handle middleware began.length, answer)])) →
    Dispatched trace (.middleware (middleware :: rest)) (began ++ [⟨false, .middleware rest⟩])
      (.await (.handle middleware began.length) next)
  | interceptor {interceptor : Value π} {rest : List (Value π)}
      {arguments : Dict String (Value π)} {next : Answer π → Work π (Value π)} :
    (∀ answer, (next answer).Only (Quiet executor) P E
      (trace ++ [(.intercept interceptor began.length, answer)])) →
    Dispatched trace (.interceptors (interceptor :: rest) arguments)
      (began ++ [⟨false, .interceptors rest arguments⟩])
      (.await (.intercept interceptor began.length) next)
  | handler {arguments : Dict String (Value π)} {next : Answer π → Work π (Value π)} :
    (∀ answer, (next answer).Only (Quiet executor) P E
      (trace ++ [(.handler arguments, answer)])) →
    Dispatched trace (.interceptors [] arguments) began (.await (.handler arguments) next)

/-- How an activation lets go of the cells that it found, with the answers that were known before:
it leaves them alone, or it has dispatched a step. -/
def Free (base : List (Call π × Answer π)) (entered intercepted : List (Value π))
    (trace : List (Call π × Answer π)) (cells : List (Next π)) (task : Work π (Value π)) : Prop :=
  cells = began ∧ task.Only (Quiet executor) P E trace ∨
    Calm executor trace ∧ ∃ step, Ready (base ++ trace) executor plan entered intercepted step ∧
      Dispatched executor began P E trace step cells task

end

section
variable {executor : PipelineExecutor π} {plan : RoutePlan π} {began : List (Next π)}
  {base trace : List (Call π × Answer π)} {entered intercepted : List (Value π)}

/-- What `dispatch` ends with is a clean trace or an error. -/
abbrev Passing (executor : PipelineExecutor π) (plan : RoutePlan π) (began : List (Next π))
    (base : List (Call π × Answer π)) (entered intercepted : List (Value π)) :=
  Free executor plan began (fun trace (_ : Value π) => Clean trace) (Failed executor) base entered
    intercepted

/-- A stage that calls none of them, and what follows it. -/
lemma until_after {α : Type} {P} {task : Work π α} {f}
    (h : task.Only (Quiet executor) P (Failed executor) trace)
    (goes : ∀ trace a, P trace a → (f a).Until began (Quiet executor)
      (Passing executor plan began base entered intercepted) trace began) :
    (task >>= f).Until began (Quiet executor) (Passing executor plan began base entered intercepted)
      trace began :=
  Task.Until.of_only_bind (h.mono goes fun _ _ failed => .inl ⟨rfl, failed⟩)

lemma only_normalize {call} (clean : Clean trace) (answer : Answer π) :
    (Task.ofExcept answer >>= fun result =>
      (Task.ofExcept (executor.transport.normalizeResult result) : Work π (Value π))).Only
      (Quiet executor) (fun trace _ => Clean trace) (Failed executor) (trace ++ [(call, answer)]) := by
  cases answer with
  | error => exact clean.failed
  | ok value =>
    show (Task.ofExcept (executor.transport.normalizeResult value)).Only _ _ _ _
    cases normal : executor.transport.normalizeResult value with
    | ok => exact clean.snoc
    | error => exact .inl ⟨clean.snoc, .inr ⟨value, normal⟩⟩

lemma until_handlerResult {arguments} (clean : Clean trace)
    (ready : Ready (base ++ trace) executor plan entered intercepted (.interceptors [] arguments)) :
    (handlerResult arguments).Until began (Quiet executor)
      (Passing executor plan began base entered intercepted) trace began := by
  refine .inl (.inr ⟨clean.calm, _, ready, .handler ?_⟩)
  intro answer
  cases answer with
  | ok => exact clean.snoc
  | error => exact clean.failed

lemma until_dispatchInterceptors {arguments rest} (clean : Clean trace)
    (ready : Ready (base ++ trace) executor plan entered intercepted (.interceptors rest arguments)) :
    (dispatchInterceptors executor arguments rest).Until began (Quiet executor)
      (Passing executor plan began base entered intercepted) trace began := by
  cases rest with
  | nil => exact until_handlerResult clean ready
  | cons interceptor =>
    refine .inl (.inr ⟨clean.calm, _, ready, .interceptor ?_⟩)
    exact only_normalize clean

lemma until_terminal (clean : Clean trace) :
    (terminal executor plan).Until began (Quiet executor)
      (Passing executor plan began base entered []) trace began := by
  refine until_after (only_runGuards clean) ?_
  intro trace₁ _ ⟨grown₁, guards, guardInstances, allowed⟩
  refine until_after (only_bindArguments grown₁.1) ?_
  intro trace₂ arguments ⟨grown₂, held, names⟩
  refine until_after (only_runPipes grown₂.1 held names) ?_
  intro trace₃ arguments₃ ⟨grown₃, ⟨pipes, pipeInstances, supplied⟩, names₃⟩
  refine until_after (only_resolvePipeline _ grown₃.1) ?_
  intro trace₄ interceptors ⟨grown₄, interceptorInstances⟩
  have since : trace₁ ⊆ trace₄ := ((grown₂.trans grown₃).trans grown₄).2
  have admitted : Admitted trace₄ executor plan arguments₃ := by
    refine ⟨⟨guards, Instance.all_mono guardInstances since, allowed.mono since⟩,
      ⟨pipes, Instance.all_mono pipeInstances grown₄.2, ?_⟩, names₃⟩
    exact fun parameter mem => (supplied parameter mem).mono grown₄.2
  apply until_dispatchInterceptors grown₄.1
  have known : trace₄ ⊆ base ++ trace₄ := subset_append_right _ _
  exact ⟨Instance.all_mono interceptorInstances known, admitted.mono known⟩

lemma until_dispatch {step} (clean : Clean trace)
    (ready : Ready (base ++ trace) executor plan entered intercepted step) :
    (dispatch executor plan step).Until began (Quiet executor)
      (Passing executor plan began base entered intercepted) trace began := by
  cases step with
  | interceptors => exact until_dispatchInterceptors clean ready
  | middleware rest =>
    cases rest with
    | nil =>
      obtain ⟨-, rfl⟩ := ready
      exact until_terminal clean
    | cons middleware =>
      refine .inl (.inr ⟨clean.calm, _, ready, .middleware ?_⟩)
      exact only_normalize clean

lemma until_runMiddleware (clean : Clean trace) :
    (runMiddleware executor plan).Until began (Quiet executor)
      (Passing executor plan began base [] []) trace began := by
  refine until_after (only_resolvePipeline _ clean) ?_
  intro trace₁ middleware ⟨grown, all⟩
  have ready : Ready (base ++ trace₁) executor plan [] [] (.middleware middleware) :=
    ⟨Instance.all_mono all (subset_append_right _ _), rfl⟩
  exact until_dispatch grown.1 ready

lemma until_runHandler (clean : Clean trace) (guards : inOrder executor plan (·.guards) = [])
    (pipes : inOrder executor plan (·.pipes) = [])
    (interceptors : inOrder executor plan (·.interceptors) = []) :
    (runHandler plan).Until began (Quiet executor) (Passing executor plan began base [] []) trace began := by
  refine until_after (only_bindArguments clean) ?_
  intro trace₁ arguments ⟨grown, held, names⟩
  apply until_handlerResult grown.1
  refine ⟨?_, ⟨[], ?_, fun _ mem => absurd mem not_mem_nil⟩, ⟨[], ?_, ?_⟩, names⟩
  · rw [interceptors]
    exact .nil
  · rw [guards]
    exact .nil
  · rw [pipes]
    exact .nil
  intro parameter mem
  obtain ⟨bound, asked, found⟩ := held parameter mem
  refine ⟨bound, bound, mem_append_right _ asked, found, ?_⟩
  split
  · rfl
  · rfl

section
variable {P Q : List (Call π × Answer π) → Value π → Prop}
  {E F : List (Call π × Answer π) → Failure → Prop} {cells : List (Next π)}
  {task : Work π (Value π)} {step : Step π} {g : Work π (Value π) → Work π (Value π)}

lemma Dispatched.map {P' F'} (h : Dispatched executor began P E trace step cells task)
    (await : ∀ call next, g (.await call next) = .await call fun answer => g (next answer))
    (quiet : ∀ task trace, task.Only (Quiet executor) P E trace →
      (g task).Only (Quiet executor) P' F' trace) :
    Dispatched executor began P' F' trace step cells (g task) := by
  cases h with
  | middleware goes =>
    rw [await]
    exact .middleware fun answer => quiet _ _ (goes answer)
  | interceptor goes =>
    rw [await]
    exact .interceptor fun answer => quiet _ _ (goes answer)
  | handler goes =>
    rw [await]
    exact .handler fun answer => quiet _ _ (goes answer)

lemma Free.map (h : Free executor plan began P E base entered intercepted trace cells task)
    (await : ∀ call next, g (.await call next) = .await call fun answer => g (next answer))
    (quiet : ∀ task trace, task.Only (Quiet executor) P E trace →
      (g task).Only (Quiet executor) Q F trace) :
    Free executor plan began Q F base entered intercepted trace cells (g task) := by
  rcases h with ⟨same, only⟩ | ⟨calm, step, ready, dispatched⟩
  · exact .inl ⟨same, quiet _ _ only⟩
  · exact .inr ⟨calm, step, ready, dispatched.map await quiet⟩

lemma Free.mono (values : ∀ trace value, P trace value → Q trace value)
    (errors : ∀ trace error, E trace error → F trace error)
    (h : Free executor plan began P E base entered intercepted trace cells task) :
    Free executor plan began Q F base entered intercepted trace cells task :=
  h.map (g := id) (fun _ _ => rfl) fun _ _ only => only.mono values errors

lemma Free.then {f : Value π → Work π (Value π)}
    (values : ∀ trace value, P trace value → (f value).Only (Quiet executor) Q F trace)
    (errors : ∀ trace error, E trace error → F trace error)
    (h : Free executor plan began P E base entered intercepted trace cells task) :
    Task.Until.Then began (Quiet executor) (Free executor plan began Q F base entered intercepted) f trace
      cells task := by
  have quiet : ∀ (task : Work π (Value π)) trace, task.Only (Quiet executor) P E trace →
      (task >>= f).Only (Quiet executor) Q F trace := by
    intro task trace only
    apply Task.Only.bind
    exact only.mono values errors
  have goes := h.map (g := (· >>= f)) (fun _ _ => rfl) quiet
  cases task with
  | ret result =>
    rcases h with ⟨rfl, only⟩ | ⟨-, _, -, dispatched⟩
    · cases result with
      | ok => exact Task.Until.of_only (quiet _ _ only) fun task h => .inl ⟨rfl, h⟩
      | error => exact goes
    · cases dispatched
  | _ => exact goes

lemma Free.then_attempt {f : Answer π → Work π (Value π)}
    (values : ∀ trace value, P trace value → (f (.ok value)).Only (Quiet executor) Q F trace)
    (errors : ∀ trace error, E trace error → (f (.error error)).Only (Quiet executor) Q F trace)
    (h : Free executor plan began P E base entered intercepted trace cells task) :
    Task.Until.ThenAttempt began (Quiet executor)
      (Free executor plan began Q F base entered intercepted) f trace cells task := by
  have quiet : ∀ (task : Work π (Value π)) trace, task.Only (Quiet executor) P E trace →
      (task.attempt >>= f).Only (Quiet executor) Q F trace := by
    intro task trace only
    apply Task.Only.attempt_then
    exact only.mono values errors
  have goes := h.map (g := (·.attempt >>= f)) (fun _ _ => rfl) quiet
  cases task with
  | ret result =>
    rcases h with ⟨rfl, only⟩ | ⟨-, _, -, dispatched⟩
    · cases result <;> exact Task.Until.of_only (quiet _ _ only) fun task h => .inl ⟨rfl, h⟩
    · cases dispatched
  | _ => exact goes

end

lemma inOrder_nil {group}
    (idle : ∀ bindings ∈ [executor.globalPipeline, plan.controllerPipeline, plan.routePipeline],
      group bindings = []) : inOrder executor plan group = [] := by
  unfold inOrder
  rw [idle _ (by simp), idle _ (by simp), idle _ (by simp)]
  rfl

lemma executes_false {bindings : PipelineBindings π} (h : bindings.executes = false) :
    bindings.guards = [] ∧ bindings.pipes = [] ∧ bindings.interceptors = [] := by
  simp only [PipelineBindings.executes, Bool.or_eq_false_iff, Bool.not_eq_false',
    List.isEmpty_iff] at h
  exact ⟨h.1.1.2, h.1.2, h.2⟩

/-- A plan says whether any of the groups has a component. -/
def Consistent (executor : PipelineExecutor π) (plan : RoutePlan π) : Prop :=
  plan.hasExecutionPipeline =
    [executor.globalPipeline, plan.controllerPipeline, plan.routePipeline].any
      PipelineBindings.executes

lemma until_runStages (consistent : Consistent executor plan) (clean : Clean trace) :
    (runStages executor plan).Until began (Quiet executor)
      (Passing executor plan began base [] []) trace began := by
  unfold runStages
  split
  · exact until_runMiddleware clean
  rename_i idle
  rw [consistent, Bool.not_eq_true, any_eq_false] at idle
  have none := fun bindings mem => executes_false (Bool.not_eq_true _ ▸ idle bindings mem)
  apply until_runHandler clean
  · exact inOrder_nil fun bindings mem => (none bindings mem).1
  · exact inOrder_nil fun bindings mem => (none bindings mem).2.1
  · exact inOrder_nil fun bindings mem => (none bindings mem).2.2

lemma until_runPipeline (consistent : Consistent executor plan) (validates : Bool)
    (clean : Clean trace) :
    (runPipeline executor plan validates).Until began (Quiet executor)
      (Passing executor plan began base [] []) trace began := by
  apply Task.Until.bind
  apply (until_runStages consistent clean).mono
  intro trace₁ cells task free
  refine Free.then ?_ (fun _ _ h => h) free
  intro trace₂ value clean₂
  split
  · exact (only_call clean₂ rfl).next fun _ _ h => h.1.1
  · exact clean₂

end

end ToriPy.Http
