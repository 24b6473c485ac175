import ToriPy.Http.Stages

/-!
# How errors become responses

The specification of the error handling of `run`. `Asked` is what one exception filter does with an
error, `Consulted` what comes of asking a list of filters one after the other, with the default
renderer behind them, and `Rendered` the response to an error. `Answered` puts this together with the
rest of `run`: its result is the encoded result of the pipeline, a fatal error, or the response to an
error that is not fatal.

The lemmas after it say that `run` answers in this way, whatever the components do, and that it lets
go of the cells as `Free` says.
-/

namespace ToriPy.Http

open Core

variable {π : Type}

section
variable (executor : PipelineExecutor π)

/-- A filter, its calls, and its result. -/
inductive Asked (error : Failure) : Binding π → List (Call π × Answer π) → Answer π → Prop
  | object {filter : Value π} {answer : Answer π} :
    Asked error (.object filter) [(.catch filter error, answer)]
      (Except.bind answer (filterResult executor))
  | resolved {ref : ProviderRef} {filter : Value π} {answer : Answer π} :
    Asked error (.ref ref) [(.resolve ref, .ok filter), (.catch filter error, answer)]
      (Except.bind answer (filterResult executor))
  | unresolved {ref : ProviderRef} {failure : Failure} :
    Asked error (.ref ref) [(.resolve ref, .error failure)] (.error failure)

/-- The first filter with a valid result decides, and behind the last one the default renderer. A
filter that fails is passed over, unless its error is fatal. -/
inductive Consulted (error : Failure) :
    List (Binding π) → List (Call π × Answer π) → Answer π → Prop
  | rendered : Consulted error [] [] (executor.transport.renderException error)
  | caught {binding : Binding π} {bindings : List (Binding π)} {trace : List (Call π × Answer π)}
      {result : Value π} : Asked executor error binding trace (.ok result) →
    Consulted error (binding :: bindings) trace (.ok result)
  | failed {binding : Binding π} {bindings : List (Binding π)}
      {trace rest : List (Call π × Answer π)} {failure : Failure} {result : Answer π} :
    Asked executor error binding trace (.error failure) → executor.fatal failure = false →
    Consulted error bindings rest result → Consulted error (binding :: bindings) (trace ++ rest) result
  | raised {binding : Binding π} {bindings : List (Binding π)} {trace : List (Call π × Answer π)}
      {failure : Failure} : Asked executor error binding trace (.error failure) →
    executor.fatal failure = true → Consulted error (binding :: bindings) trace (.error failure)

/-- What is said about an error before it is rendered: a result that was encoded, or an error. -/
inductive Encoded (error : Failure) (bindings : List (Binding π)) :
    List (Call π × Answer π) → Answer π → Prop
  | encoded {trace : List (Call π × Answer π)} {result : Value π} {answer : Answer π} :
    Consulted executor error bindings trace (.ok result) →
    Encoded error bindings (trace ++ [(.encodeResult result, answer)]) answer
  | unhandled {trace : List (Call π × Answer π)} {failure : Failure} :
    Consulted executor error bindings trace (.error failure) →
    Encoded error bindings trace (.error failure)

/-- The response to an error: that of the filters or the default renderer, or else that of the
emergency renderer. -/
inductive Rendered (error : Failure) (bindings : List (Binding π)) :
    List (Call π × Answer π) → Answer π → Prop
  | response {trace : List (Call π × Answer π)} {response : Value π} :
    Encoded executor error bindings trace (.ok response) →
    Rendered error bindings trace (.ok response)
  | emergency {trace : List (Call π × Answer π)} {failure : Failure} :
    Encoded executor error bindings trace (.error failure) → executor.fatal failure = false →
    Rendered error bindings trace executor.transport.renderEmergency
  | raised {trace : List (Call π × Answer π)} {failure : Failure} :
    Encoded executor error bindings trace (.error failure) → executor.fatal failure = true →
    Rendered error bindings trace (.error failure)

/-- The result of `run`. -/
inductive Answered (plan : RoutePlan π) : List (Call π × Answer π) → Answer π → Prop
  | returned {work : List (Call π × Answer π)} {result response : Value π} :
    Clean work → Answered plan (work ++ [(.encodeResult result, .ok response)]) (.ok response)
  | raised {work : List (Call π × Answer π)} {error : Failure} :
    Failed executor work error → executor.fatal error = true → Answered plan work (.error error)
  | rendered {work handling : List (Call π × Answer π)} {error : Failure} {result : Answer π} :
    Failed executor work error → executor.fatal error = false →
    Rendered executor error (filters executor plan) handling result →
    Answered plan (work ++ handling) result

end

/-! ### Fatal errors -/

section
variable {executor : PipelineExecutor π} {plan : RoutePlan π} {trace : List (Call π × Answer π)}
  {error : Failure} {bindings : List (Binding π)} {result : Answer π}

lemma Final.last {call answer} (h : ∀ error, answer = .error error → result = .error error) :
    Final executor [(call, answer)] result := by
  cases answer with
  | ok => exact .inl (Calm.single nofun)
  | error failure =>
    exact .inr ⟨[], call, failure, rfl, fun _ mem => absurd mem List.not_mem_nil, h failure rfl⟩

lemma Asked.final {binding} (h : Asked executor error binding trace result) :
    Final executor trace result := by
  cases h with
  | object =>
    apply Final.last
    rintro _ rfl
    rfl
  | @resolved ref filter answer =>
    have last : Final executor [(.catch filter error, answer)] (Except.bind answer (filterResult executor)) := by
      apply Final.last
      rintro _ rfl
      rfl
    have first : Calm executor [(.resolve ref, .ok filter)] := Calm.single nofun
    exact Final.append first last
  | unresolved => exact Final.last fun _ same => same

lemma Consulted.final (h : Consulted executor error bindings trace result) :
    Final executor trace result := by
  induction h with
  | rendered => exact .inl fun _ mem => absurd mem List.not_mem_nil
  | caught asked | raised asked => exact asked.final
  | failed asked ordinary _ ih => exact ih.append (asked.final.calm ordinary)

lemma Encoded.final (h : Encoded executor error bindings trace result) :
    Final executor trace result := by
  cases h with
  | encoded consulted =>
    refine Final.append ?_ (Final.last fun _ same => same)
    rcases consulted.final with calm | ⟨_, _, _, _, _, impossible⟩
    · exact calm
    · cases impossible
  | unhandled consulted => exact consulted.final

lemma Rendered.final (h : Rendered executor error bindings trace result) :
    Final executor trace result := by
  cases h with
  | response encoded | raised encoded => exact encoded.final
  | emergency encoded ordinary => exact .inl (encoded.final.calm ordinary)

lemma Answered.final (h : Answered executor plan trace result) : Final executor trace result := by
  cases h with
  | returned clean => exact .inl clean.snoc.calm
  | raised failed => exact failed.final
  | rendered failed ordinary rendered =>
    exact Final.append (failed.final.calm ordinary) rendered.final

lemma Answered.fatal {response} (emergency : executor.transport.renderEmergency = .ok response)
    (h : Answered executor plan trace (.error error)) : executor.fatal error = true := by
  cases h with
  | raised _ fatal => exact fatal
  | rendered _ _ rendered =>
    generalize same : Except.error error = result at rendered
    cases rendered with
    | response => cases same
    | emergency =>
      rw [emergency] at same
      cases same
    | raised _ fatal =>
      cases same
      exact fatal

end

/-! ### The renderers -/

section
variable {executor : PipelineExecutor π} {plan : RoutePlan π} {trace : List (Call π × Answer π)}
  {error : Failure}

/-- A trace that goes on as a relation says, up to a result. -/
def GoesOn (R : List (Call π × Answer π) → Answer π → Prop) (trace : List (Call π × Answer π))
    (result : Answer π) (trace' : List (Call π × Answer π)) : Prop :=
  ∃ more, trace' = trace ++ more ∧ R more result

/-- A task goes on from a trace as a relation says. -/
def Follows (executor : PipelineExecutor π) (R : List (Call π × Answer π) → Answer π → Prop)
    (task : Work π (Value π)) (trace : List (Call π × Answer π)) : Prop :=
  task.Only (Quiet executor) (fun trace' value => GoesOn R trace (.ok value) trace')
    (fun trace' error => GoesOn R trace (.error error) trace') trace

lemma Follows.after {R R' task first} (h : Follows executor R task (trace ++ first))
    (weaker : ∀ more result, R more result → R' (first ++ more) result) :
    task.Only (Quiet executor) (fun trace' value => GoesOn R' trace (.ok value) trace')
      (fun trace' error => GoesOn R' trace (.error error) trace') (trace ++ first) := by
  refine Task.Only.mono h ?_ ?_
  · rintro _ value ⟨more, rfl, holds⟩
    exact ⟨first ++ more, List.append_assoc _ _ _, weaker _ _ holds⟩
  · rintro _ error ⟨more, rfl, holds⟩
    exact ⟨first ++ more, List.append_assoc _ _ _, weaker _ _ holds⟩

lemma only_ofExcept {R : List (Call π × Answer π) → Answer π → Prop} {result : Answer π}
    (h : R [] result) : Follows executor R (Task.ofExcept result) trace := by
  cases result with
  | ok | error => exact ⟨[], (List.append_nil _).symm, h⟩

lemma follows_catch {filter} (calm : Calm executor trace) :
    Follows executor (fun more result => ∃ answer, more = [(.catch filter error, answer)] ∧
        result = Except.bind answer (filterResult executor))
      (do
        let result ← perform (.catch filter error)
        Task.ofExcept (filterResult executor result)) trace := by
  apply Task.Only.bind
  refine only_perform ⟨rfl, calm⟩ ?_ ?_
  · intro value
    have goes : Follows executor (fun more result => more = [] ∧ result = filterResult executor value)
        (Task.ofExcept (filterResult executor value)) (trace ++ [(.catch filter error, .ok value)]) :=
      only_ofExcept ⟨rfl, rfl⟩
    apply goes.after
    rintro _ _ ⟨rfl, rfl⟩
    exact ⟨.ok value, rfl, rfl⟩
  · intro failure
    exact ⟨_, rfl, .error failure, rfl, rfl⟩

lemma follows_runFilter (binding : Binding π) (calm : Calm executor trace) :
    Follows executor (Asked executor error binding) (runFilter executor error binding) trace := by
  cases binding with
  | object =>
    refine Task.Only.mono (follows_catch calm) ?_ ?_
    · rintro _ value ⟨more, rfl, answer, rfl, same⟩
      exact ⟨_, rfl, same ▸ .object⟩
    · rintro _ failure ⟨_, rfl, answer, rfl, same⟩
      exact ⟨_, rfl, same ▸ .object⟩
  | ref ref =>
    apply Task.Only.bind
    refine only_perform ⟨rfl, calm⟩ ?_ ?_
    · intro filter
      have first : Calm executor [(.resolve ref, .ok filter)] := Calm.single nofun
      apply (follows_catch (calm.append first)).after
      rintro _ _ ⟨_, rfl, rfl⟩
      exact .resolved
    · intro failure
      exact ⟨_, rfl, .unresolved⟩

lemma follows_runFilters (bindings : List (Binding π)) (calm : Calm executor trace) :
    Follows executor (Consulted executor error bindings) (runFilters executor error bindings)
      trace := by
  induction bindings generalizing trace with
  | nil => exact only_ofExcept .rendered
  | cons binding bindings ih =>
    apply Task.Only.attempt_then
    refine Task.Only.mono (follows_runFilter binding calm) ?_ ?_
    · rintro _ value ⟨more, rfl, asked⟩
      exact ⟨more, rfl, .caught asked⟩
    rintro _ failure ⟨more, rfl, asked⟩
    dsimp only
    split
    · rename_i fatal
      exact ⟨more, rfl, .raised asked fatal⟩
    rename_i ordinary
    rw [Bool.not_eq_true] at ordinary
    apply (ih (calm.append (asked.final.calm ordinary))).after
    intro rest result consulted
    exact .failed asked ordinary consulted

lemma follows_encode (ordinary : executor.fatal error = false) (calm : Calm executor trace) :
    Follows executor (Encoded executor error (filters executor plan))
      (do
        let result ← handleException executor plan error
        perform (.encodeResult result)) trace := by
  have handled : Follows executor (Consulted executor error (filters executor plan))
      (handleException executor plan error) trace := by
    unfold handleException
    rw [PipelineExecutor.fatal, Bool.or_eq_false_iff] at ordinary
    rw [ordinary.1]
    exact follows_runFilters _ calm
  apply Task.Only.bind
  refine Task.Only.mono handled ?_ ?_
  · rintro _ result ⟨more, rfl, consulted⟩
    have still : Calm executor more := by
      rcases consulted.final with calm | ⟨_, _, _, _, _, impossible⟩
      · exact calm
      · cases impossible
    refine only_perform ⟨rfl, calm.append still⟩ ?_ ?_
    · intro response
      exact ⟨_, List.append_assoc _ _ _, .encoded consulted⟩
    · intro failure
      exact ⟨_, List.append_assoc _ _ _, .encoded consulted⟩
  · rintro _ failure ⟨more, rfl, consulted⟩
    exact ⟨more, rfl, .unhandled consulted⟩

lemma follows_renderException (ordinary : executor.fatal error = false)
    (calm : Calm executor trace) :
    Follows executor (Rendered executor error (filters executor plan))
      (renderException executor plan error) trace := by
  apply Task.Only.attempt_then
  refine Task.Only.mono (follows_encode ordinary calm) ?_ ?_
  · rintro _ response ⟨more, rfl, encoded⟩
    exact ⟨more, rfl, .response encoded⟩
  rintro _ failure ⟨more, rfl, encoded⟩
  dsimp only
  split
  · rename_i fatal
    exact ⟨more, rfl, .raised encoded fatal⟩
  rename_i still
  rw [Bool.not_eq_true] at still
  have last : Follows executor (fun rest result => rest = [] ∧
      result = executor.transport.renderEmergency)
      (Task.ofExcept executor.transport.renderEmergency) (trace ++ more) :=
    only_ofExcept ⟨rfl, rfl⟩
  apply last.after
  rintro _ _ ⟨rfl, rfl⟩
  rw [List.append_nil]
  exact .emergency encoded still

/-- What `run` ends with. -/
abbrev Replied (executor : PipelineExecutor π) (plan : RoutePlan π) (task : Work π (Value π))
    (trace : List (Call π × Answer π)) : Prop :=
  task.Only (Quiet executor) (fun trace value => Answered executor plan trace (.ok value))
    (fun trace error => Answered executor plan trace (.error error)) trace

lemma replied_recover (failed : Failed executor trace error) :
    Replied executor plan (recover executor plan error) trace := by
  unfold recover
  split
  · rename_i fatal
    exact .raised failed fatal
  rename_i ordinary
  rw [Bool.not_eq_true] at ordinary
  refine Task.Only.mono (follows_renderException ordinary (failed.final.calm ordinary)) ?_ ?_
  · rintro _ value ⟨more, rfl, rendered⟩
    exact .rendered failed ordinary rendered
  · rintro _ failure ⟨_, rfl, rendered⟩
    exact .rendered failed ordinary rendered

lemma replied_encode {result} (clean : Clean trace) :
    Replied executor plan (do
      match ← (perform (.encodeResult result)).attempt with
      | .ok response => pure response
      | .error error => recover executor plan error) trace := by
  apply Task.Only.attempt_then
  refine only_perform ⟨rfl, clean.calm⟩ ?_ ?_
  · intro response
    exact .returned clean
  · intro failure
    exact replied_recover clean.failed

lemma until_run (consistent : Consistent executor plan) (validates : Bool) :
    (run executor plan validates).Until [] (Quiet executor)
      (Free executor plan [] (fun trace value => Answered executor plan trace (.ok value))
        (fun trace error => Answered executor plan trace (.error error)) [] [] []) [] [] := by
  apply Task.Until.attempt_then
  apply (until_runPipeline consistent validates Clean.nil).mono
  intro trace cells task free
  refine Free.then_attempt ?_ ?_ free
  · intro trace result clean
    exact replied_encode clean
  · intro trace error failed
    exact replied_recover failed

end

end ToriPy.Http
