import ToriPy.Http.Rendering

/-!
# The gate of a request

What holds at every moment of every request, whatever its components do with their callbacks. The
cells of the callbacks are handed from one activation to the next: at most one cell has not been
called, and while there is none at most one activation may make a new one. `Phase` says who may, and
what is known by then, so that every call of a middleware, an interceptor or the handler is one that
`Gate` lets through.
-/

namespace ToriPy.Http

open List
open Core

variable {π : Type} {call : Call π} {activation : Activation π} {began cells : List (Next π)}

/-! ### The log -/

section
variable (log : List (Entry π))

def answered : List (Call π × Answer π) :=
  log.filterMap fun
    | .answered call answer => some (call, answer)
    | _ => none

def entered : List (Value π) :=
  log.filterMap fun
    | .made (.handle middleware _) => some middleware
    | _ => none

def intercepted : List (Value π) :=
  log.filterMap fun
    | .made (.intercept interceptor _) => some interceptor
    | _ => none

/-- The arguments that the handler was called with. -/
def handled : List (Dict String (Value π)) :=
  log.filterMap fun
    | .made (.handler arguments) => some arguments
    | _ => none

end

/-- What may follow a log. The next middleware is entered, in the order global, controller, route, and
so is the next interceptor. The handler is called once, with what is admitted. -/
def Gate (executor : PipelineExecutor π) (plan : RoutePlan π) (log : List (Entry π)) :
    Entry π → Prop
  | .made (.handle middleware _) => ∃ rest,
    List.Forall₂ (Instance (answered log)) (inOrder executor plan (·.middleware))
      (entered log ++ middleware :: rest)
  | .made (.intercept interceptor _) => ∃ rest,
    List.Forall₂ (Instance (answered log)) (inOrder executor plan (·.interceptors))
      (intercepted log ++ interceptor :: rest)
  | .made (.handler arguments) => handled log = [] ∧ Admitted (answered log) executor plan arguments
  | _ => True

/-- An entry that lets everybody else where they are. -/
def Entry.idle : Entry π → Prop
  | .made call => plain call = true
  | .answered _ _ => True

section
variable {executor : PipelineExecutor π} {plan : RoutePlan π} {log : List (Entry π)} {entry : Entry π}

lemma gate_idle (idle : entry.idle) : Gate executor plan log entry := by
  cases entry with
  | answered => trivial
  | made call =>
    cases call with
    | handle | intercept | handler => cases idle
    | _ => trivial

lemma seen_idle (idle : entry.idle) : entered (log ++ [entry]) = entered log ∧
    intercepted (log ++ [entry]) = intercepted log ∧ handled (log ++ [entry]) = handled log := by
  have none : entered [entry] = [] ∧ intercepted [entry] = [] ∧ handled [entry] = [] := by
    cases entry with
    | answered => exact ⟨rfl, rfl, rfl⟩
    | made call =>
      cases call with
      | handle | intercept | handler => cases idle
      | _ => exact ⟨rfl, rfl, rfl⟩
  unfold entered intercepted handled at none ⊢
  simp only [filterMap_append, none, append_nil, and_self]

lemma answered_append (log more : List (Entry π)) : answered log ⊆ answered (log ++ more) := by
  rw [answered, answered, filterMap_append]
  exact subset_append_left _ _

lemma mem_answered {answer} : (call, answer) ∈ answered (log ++ [.answered call answer]) := by
  rw [answered, filterMap_append]
  exact mem_append_right _ (mem_singleton.mpr rfl)

end

/-! ### Activations -/

section
variable (executor : PipelineExecutor π) (plan : RoutePlan π)

/-- What an activation ends with: `run` answers the request, and a callback raises what is fatal. -/
def Ends (index : Nat) (trace : List (Call π × Answer π)) (result : Answer π) : Prop :=
  if index = 0 then Answered executor plan trace result else Final executor trace result

/-- From a trace on an activation makes plain calls only. -/
abbrev Calming (index : Nat) (task : Work π (Value π)) (trace : List (Call π × Answer π)) : Prop :=
  task.Only (Quiet executor) (fun trace value => Ends executor plan index trace (.ok value))
    (fun trace error => Ends executor plan index trace (.error error)) trace

/-- An activation that has let go of the cells. The call it waits for may be any. -/
def Resting (index : Nat) (activation : Activation π) : Prop :=
  match activation.task with
  | .await call next => Calm executor activation.trace ∧
    ∀ answer, Calming executor plan index (next answer) (activation.trace ++ [(call, answer)])
  | .ret result => Ends executor plan index activation.trace result
  | _ => False

/-- How the activation at work lets go of the cells. -/
abbrev Releases (index : Nat) (began : List (Next π)) (base : List (Call π × Answer π))
    (log : List (Entry π)) :=
  Free executor plan began (fun trace value => Ends executor plan index trace (.ok value))
    (fun trace error => Ends executor plan index trace (.error error)) base (entered log)
    (intercepted log)

/-- An activation is at work, with a call that it waits for. All others have let go of the cells, and
all callbacks have been called. -/
structure AtWork (request : Request π) (index : Nat) (trace base : List (Call π × Answer π))
    (call : Call π) (next : Answer π → Work π (Value π)) : Prop where
  called : ∀ cell ∈ request.cells, cell.called = true
  there : request.activations[index]? = some ⟨trace, .await call next⟩
  others : ∀ other activation, other ≠ index → request.activations[other]? = some activation →
    Resting executor plan other activation
  unhandled : handled request.log = []
  known : base ++ trace ⊆ answered request.log
  calm : Calm executor trace
  works : ∀ answer, (next answer).Until request.cells (Quiet executor)
    (Releases executor plan index request.cells base request.log) (trace ++ [(call, answer)])
    request.cells

/-- The phases of a request: no new callback is made any more, one is there to be called, or an
activation may make one. -/
inductive Phase (request : Request π) : Prop
  | spent : (∀ cell ∈ request.cells, cell.called = true) →
    (∀ index activation, request.activations[index]? = some activation →
      Resting executor plan index activation) → Phase request
  | ready {front : List (Next π)} {step : Step π} : request.cells = front ++ [⟨false, step⟩] →
    (∀ cell ∈ front, cell.called = true) →
    (∀ index activation, request.activations[index]? = some activation →
      Resting executor plan index activation) →
    handled request.log = [] →
    Ready (answered request.log) executor plan (entered request.log) (intercepted request.log) step →
    Phase request
  | busy {index : Nat} {trace base : List (Call π × Answer π)} {call : Call π}
      {next : Answer π → Work π (Value π)} :
    AtWork executor plan request index trace base call next → Phase request

end

section
variable {executor : PipelineExecutor π} {plan : RoutePlan π} {index : Nat}

variable {trace : List (Call π × Answer π)}

lemma resting_of_ret {result : Answer π} (h : Calming executor plan index (.ret result) trace) :
    Resting executor plan index ⟨trace, .ret result⟩ := by
  cases result with
  | ok | error => exact h

lemma resting_of_await {next : Answer π → Work π (Value π)}
    (h : Calming executor plan index (.await call next) trace) :
    Resting executor plan index ⟨trace, .await call next⟩ :=
  ⟨h.1.2, h.2⟩

lemma Dispatched.resting {step task} (calm : Calm executor trace)
    (h : Dispatched executor began (fun trace value => Ends executor plan index trace (.ok value))
      (fun trace error => Ends executor plan index trace (.error error)) trace step cells task) :
    Resting executor plan index ⟨trace, task⟩ := by
  cases h with
  | middleware goes | interceptor goes | handler goes => exact ⟨calm, goes⟩

lemma resting_set {activations : List (Activation π)}
    (others : ∀ other activation, other ≠ index → activations[other]? = some activation →
      Resting executor plan other activation)
    (rests : Resting executor plan index activation) :
    ∀ other found, (activations.set index activation)[other]? = some found →
      Resting executor plan other found := by
  intro other found there
  rw [getElem?_set] at there
  split at there
  · rename_i same
    subst same
    split at there
    · cases there
      exact rests
    · cases there
  · rename_i different
    exact others other found (Ne.symm different) there

end

/-! ### Steps -/

/-- The log of a request is let through, and the request is in one of the phases. -/
structure Sound (executor : PipelineExecutor π) (plan : RoutePlan π) (request : Request π) :
    Prop where
  gate : Justified (Gate executor plan) request.log
  phase : Phase executor plan request
  started : 0 < request.activations.length

section
variable {executor : PipelineExecutor π} {plan : RoutePlan π} {request : Request π} {index : Nat}
  {trace : List (Call π × Answer π)} {task : Work π (Value π)} {base : List (Call π × Answer π)}
  {cell : Next π}

lemma resume_calming (request : Request π) (calming : Calming executor plan index task trace) :
    ∃ task', Resting executor plan index ⟨trace, task'⟩ ∧
      (∀ entry ∈ pending task', entry.idle) ∧
      request.resume index trace task =
        { cells := request.cells
          activations := request.activations.set index ⟨trace, task'⟩
          log := request.log ++ pending task' } := by
  obtain ⟨same, still⟩ := Task.Only.advance calming request.cells
  have stops := task.advance_stops request.cells
  have rests : Resting executor plan index ⟨trace, (task.advance request.cells).1⟩ ∧
      ∀ entry ∈ pending (task.advance request.cells).1, entry.idle := by
    generalize (task.advance request.cells).1 = task' at still stops
    rcases stops with ⟨_, rfl⟩ | ⟨_, _, rfl⟩
    · exact ⟨resting_of_ret still, fun _ mem => absurd mem not_mem_nil⟩
    · exact ⟨resting_of_await still, forall_mem_singleton.mpr still.1.1⟩
  refine ⟨(task.advance request.cells).1, rests.1, rests.2, ?_⟩
  simp only [Request.resume, same]

lemma sound_dispatched {step : Step π} {next : Answer π → Work π (Value π)}
    {activations : List (Activation π)} {log : List (Entry π)}
    (gate : Justified (Gate executor plan) log) (called : ∀ cell ∈ began, cell.called = true)
    (rests : ∀ other found, activations[other]? = some found → Resting executor plan other found)
    (unhandled : handled log = [])
    (ready : Ready (answered log) executor plan (entered log) (intercepted log) step)
    (started : 0 < activations.length)
    (dispatched : Dispatched executor began
      (fun trace value => Ends executor plan index trace (.ok value))
      (fun trace error => Ends executor plan index trace (.error error)) trace step cells
      (.await call next)) : Sound executor plan ⟨cells, activations, log ++ [.made call]⟩ := by
  have more := answered_append log [.made call]
  cases dispatched with
  | @middleware middleware rest =>
    obtain ⟨instances, none⟩ := ready
    refine ⟨gate.snoc ⟨rest, instances⟩, .ready rfl called rests ?_ ?_, started⟩
    · rw [handled, filterMap_append]
      exact (append_nil _).trans unhandled
    refine ⟨?_, ?_⟩
    · rw [entered, filterMap_append, append_assoc]
      exact Instance.all_mono instances more
    · rw [intercepted, filterMap_append]
      exact (append_nil _).trans none
  | @interceptor interceptor rest =>
    obtain ⟨instances, admitted⟩ := ready
    refine ⟨gate.snoc ⟨rest, instances⟩, .ready rfl called rests ?_ ?_, started⟩
    · rw [handled, filterMap_append]
      exact (append_nil _).trans unhandled
    · refine ⟨?_, admitted.mono more⟩
      rw [intercepted, filterMap_append, append_assoc]
      exact Instance.all_mono instances more
  | handler =>
    obtain ⟨-, admitted⟩ := ready
    exact ⟨gate.snoc ⟨unhandled, admitted⟩, .spent called rests, started⟩

lemma sound_resume {began} (gate : Justified (Gate executor plan) request.log)
    (called : ∀ cell ∈ began, cell.called = true) (there : index < request.activations.length)
    (others : ∀ other activation, other ≠ index → request.activations[other]? = some activation →
      Resting executor plan other activation) (unhandled : handled request.log = [])
    (known : base ++ trace ⊆ answered request.log)
    (works : task.Until began (Quiet executor) (Releases executor plan index began base request.log)
      trace request.cells) : Sound executor plan (request.resume index trace task) := by
  have works := works.advance
  have stops := task.advance_stops request.cells
  unfold Request.resume
  generalize task.advance request.cells = ahead at works stops
  obtain ⟨task', cells⟩ := ahead
  have started : 0 < (request.activations.set index ⟨trace, task'⟩).length := by
    rw [length_set]
    exact Nat.zero_lt_of_lt there
  rcases stops with ⟨_, same⟩ | ⟨call, next, same⟩
  · cases same
    rcases works with ⟨rfl, calming⟩ | ⟨-, step, -, dispatched⟩
    · refine ⟨?_, .spent called (resting_set others (resting_of_ret calming)), started⟩
      show Justified _ (request.log ++ [])
      rw [append_nil]
      exact gate
    · cases dispatched
  · cases same
    rcases works with free | ⟨⟨isPlain, calm⟩, rfl, goes⟩
    · rcases free with ⟨rfl, calming⟩ | ⟨calm, _, ready, dispatched⟩
      · have idle : (Entry.made call).idle := calming.1.1
        refine ⟨gate.snoc (gate_idle idle), ?_, started⟩
        exact .spent called (resting_set others (resting_of_await calming))
      · have ready := ready.mono known
        have rests := resting_set others (dispatched.resting calm)
        exact sound_dispatched gate called rests unhandled ready started dispatched
    · have idle : (Entry.made call).idle := isPlain
      refine ⟨gate.snoc (gate_idle idle), ?_, started⟩
      have known := List.Subset.trans known (answered_append _ [.made call])
      refine .busy ⟨called, getElem?_set_self there, ?_, ?_, known, calm, ?_⟩
      · intro other activation different found
        rw [getElem?_set_ne (Ne.symm different)] at found
        exact others other activation different found
      · exact (seen_idle idle).2.2.trans unhandled
      · show ∀ answer, (next answer).Until cells (Quiet executor) (Releases executor plan index cells
          base (request.log ++ [.made call])) (trace ++ [(call, answer)]) cells
        rw [Releases, (seen_idle idle).1, (seen_idle idle).2.1]
        exact goes

lemma Phase.log {entry} (h : Phase executor plan request) (idle : entry.idle) :
    Phase executor plan { request with log := request.log ++ [entry] } := by
  have more := answered_append request.log [entry]
  cases h with
  | spent called rests => exact .spent called rests
  | ready cells called rests unhandled ready =>
    refine .ready cells called rests ((seen_idle idle).2.2.trans unhandled) ?_
    show Ready (answered (request.log ++ [entry])) executor plan (entered (request.log ++ [entry]))
      (intercepted (request.log ++ [entry])) _
    rw [(seen_idle idle).1, (seen_idle idle).2.1]
    exact ready.mono more
  | @busy index trace base call next work =>
    refine .busy ⟨work.called, work.there, work.others, (seen_idle idle).2.2.trans work.unhandled,
      List.Subset.trans work.known more, work.calm, ?_⟩
    show ∀ answer, (next answer).Until request.cells (Quiet executor) (Releases executor plan index
      request.cells base (request.log ++ [entry])) (trace ++ [(call, answer)]) request.cells
    rw [Releases, (seen_idle idle).1, (seen_idle idle).2.1]
    exact work.works

lemma log_all {entries} (gate : Justified (Gate executor plan) request.log)
    (phase : Phase executor plan request) (idle : ∀ entry ∈ entries, entry.idle) :
    Justified (Gate executor plan) (request.log ++ entries) ∧
      Phase executor plan { request with log := request.log ++ entries } := by
  induction entries generalizing request with
  | nil =>
    rw [append_nil]
    exact ⟨gate, phase⟩
  | cons entry entries ih =>
    have here := idle entry mem_cons_self
    have rest := ih (gate.snoc (gate_idle here)) (phase.log here) fun entry mem =>
      idle entry (mem_cons_of_mem _ mem)
    rw [append_assoc] at rest
    exact rest

lemma Phase.work_or_rest (h : Phase executor plan request) (index : Nat) :
    (∃ trace base call next, AtWork executor plan request index trace base call next) ∨
      (∀ activation, request.activations[index]? = some activation →
        Resting executor plan index activation) ∧
      ∀ activations, (∀ other, other ≠ index → activations[other]? = request.activations[other]?) →
        (∀ activation, activations[index]? = some activation →
          Resting executor plan index activation) →
        Phase executor plan { request with activations } := by
  have kept : ∀ {activations : List (Activation π)},
      (∀ other activation, other ≠ index → request.activations[other]? = some activation →
        Resting executor plan other activation) →
      (∀ other, other ≠ index → activations[other]? = request.activations[other]?) →
      (∀ activation, activations[index]? = some activation →
        Resting executor plan index activation) →
      ∀ other activation, activations[other]? = some activation →
        Resting executor plan other activation := by
    intro activations others same rests other activation found
    by_cases here : other = index
    · subst here
      exact rests activation found
    · rw [same other here] at found
      exact others other activation here found
  cases h with
  | spent called rests =>
    refine .inr ⟨rests index, fun activations same rests' => .spent called ?_⟩
    exact kept (fun other activation _ => rests other activation) same rests'
  | ready cells called rests unhandled ready =>
    refine .inr ⟨rests index, fun activations same rests' => .ready cells called ?_ unhandled ready⟩
    exact kept (fun other activation _ => rests other activation) same rests'
  | @busy holder trace base call next work =>
    by_cases here : holder = index
    · subst here
      exact .inl ⟨trace, base, call, next, work⟩
    refine .inr ⟨fun activation => work.others index activation (Ne.symm here), ?_⟩
    intro activations same rests
    refine .busy ⟨work.called, (same holder here).trans work.there, ?_, work.unhandled, work.known,
      work.calm, work.works⟩
    intro other activation different found
    by_cases this : other = index
    · subst this
      exact rests activation found
    · rw [same other this] at found
      exact work.others other activation different found

lemma Sound.answer {next : Answer π → Work π (Value π)} {answer : Answer π}
    (h : Sound executor plan request)
    (there : request.activations[index]? = some ⟨trace, .await call next⟩) :
    Sound executor plan (Request.resume
      { request with log := request.log ++ [.answered call answer] } index
      (trace ++ [(call, answer)]) (next answer)) := by
  have length : index < request.activations.length := (List.getElem?_eq_some_iff.mp there).1
  rcases h.phase.work_or_rest index with ⟨_, base, _, _, work⟩ | ⟨rests, put⟩
  · cases Option.some.inj (work.there.symm.trans there)
    have idle : (Entry.answered call answer).idle := trivial
    have known : base ++ (trace ++ [(call, answer)]) ⊆
        answered (request.log ++ [.answered call answer]) := by
      rw [← append_assoc]
      refine append_subset.mpr ⟨?_, cons_subset.mpr ⟨mem_answered, nil_subset _⟩⟩
      exact List.Subset.trans work.known (answered_append _ _)
    refine sound_resume ?_ work.called length work.others ?_ known ?_
    · exact h.gate.snoc (gate_idle idle)
    · exact (seen_idle idle).2.2.trans work.unhandled
    · rw [Releases, (seen_idle idle).1, (seen_idle idle).2.1]
      exact work.works answer
  · obtain ⟨-, goes⟩ := rests _ there
    obtain ⟨task', rests', idle, same⟩ := resume_calming
      { request with log := request.log ++ [.answered call answer] } (goes answer)
    rw [same]
    have answered : (Entry.answered call answer).idle := trivial
    have replaced := put (request.activations.set index ⟨trace ++ [(call, answer)], task'⟩)
      (fun other different => getElem?_set_ne (Ne.symm different))
      (fun activation found => by
        rw [getElem?_set_self length] at found
        cases found
        exact rests')
    obtain ⟨gate, phase⟩ := log_all (h.gate.snoc (gate_idle answered)) (replaced.log answered) idle
    refine ⟨gate, phase, ?_⟩
    · show 0 < (request.activations.set index _).length
      rw [length_set]
      exact h.started

lemma until_nextOnce {cells log next} (new : index ≠ 0) (there : cells[next]? = some cell)
    (uncalled : cell.called = false)
    (ready : Ready base executor plan (entered log) (intercepted log) cell.step) :
    (nextOnce executor plan next).Until (cells.set next { cell with called := true })
      (Quiet executor)
      (Releases executor plan index (cells.set next { cell with called := true }) base log) []
      cells := by
  have dispatched : (dispatch executor plan cell.step).Until
      (cells.set next { cell with called := true }) (Quiet executor)
      (Releases executor plan index (cells.set next { cell with called := true }) base log) []
      (cells.set next { cell with called := true }) := by
    have ready : Ready (base ++ []) executor plan (entered log) (intercepted log) cell.step := by
      rw [append_nil]
      exact ready
    apply (until_dispatch Clean.nil ready).mono
    intro trace s task free
    refine free.mono ?_ ?_
    · intro trace value clean
      rw [Ends, if_neg new]
      exact .inl clean.calm
    · intro trace error failed
      rw [Ends, if_neg new]
      exact failed.final
  show (callNext executor plan next cells[next]?).Until _ _ _ _ _
  rw [there, callNext, uncalled]
  exact dispatched

lemma getElem?_added {α : Type} {xs : List α} {x : α} {other : Nat} (different : other ≠ xs.length) :
    (xs ++ [x])[other]? = xs[other]? := by
  rcases Nat.lt_or_gt_of_ne different with below | above
  · exact getElem?_append_left below
  · rw [getElem?_eq_none (Nat.le_of_lt above), getElem?_eq_none]
    rw [length_append]
    exact above

lemma Phase.uncalled {next} (h : Phase executor plan request)
    (there : request.cells[next]? = some cell) (uncalled : cell.called = false) :
    (∀ other ∈ request.cells.set next { cell with called := true }, other.called = true) ∧
      (∀ index activation, request.activations[index]? = some activation →
        Resting executor plan index activation) ∧
      handled request.log = [] ∧
      Ready (answered request.log) executor plan (entered request.log) (intercepted request.log)
        cell.step := by
  have mem : cell ∈ request.cells := mem_of_getElem? there
  cases h with
  | spent called =>
    cases uncalled.symm.trans (called cell mem)
  | busy work =>
    cases uncalled.symm.trans (work.called cell mem)
  | @ready front step cells called rests unhandled ready =>
    rw [cells] at there
    rcases Nat.lt_trichotomy next front.length with below | rfl | above
    · rw [getElem?_append_left below] at there
      cases uncalled.symm.trans (called cell (mem_of_getElem? there))
    · rw [getElem?_concat_length] at there
      cases there
      refine ⟨?_, rests, unhandled, ready⟩
      rw [cells, set_append_right _ _ (Nat.le_refl _), Nat.sub_self]
      exact forall_mem_append.mpr ⟨called, forall_mem_singleton.mpr rfl⟩
    · rw [getElem?_eq_none] at there
      · cases there
      · rw [length_append]
        exact above

lemma Sound.next {next : Nat} (h : Sound executor plan request)
    (there : request.cells[next]? = some cell) :
    Sound executor plan (request.activate (nextOnce executor plan next)) := by
  have new : request.activations.length ≠ 0 := Nat.ne_of_gt h.started
  have length : request.activations.length <
      (request.activations ++ [(⟨[], nextOnce executor plan next⟩ : Activation π)]).length := by
    rw [length_append]
    exact Nat.lt_succ_self _
  cases called : cell.called with
  | true =>
    have raises : ((nextOnce executor plan next).advance request.cells) =
        (.ret (.error (.pipelineState "pipeline next callback was called twice")), request.cells) := by
      show (callNext executor plan next request.cells[next]?).advance request.cells = _
      rw [there, callNext, called]
      rfl
    simp only [Request.activate, Request.resume, raises, pending, append_nil]
    rcases h.phase.work_or_rest request.activations.length with ⟨_, _, _, _, work⟩ | ⟨-, put⟩
    · have impossible := work.there
      rw [getElem?_eq_none (Nat.le_refl _)] at impossible
      cases impossible
    · refine ⟨h.gate, put _ ?_ ?_, ?_⟩
      · intro other different
        rw [getElem?_set_ne (Ne.symm different)]
        exact getElem?_added different
      · intro activation found
        rw [getElem?_set_self length] at found
        cases found
        show Ends executor plan _ [] _
        rw [Ends, if_neg new]
        exact .inl fun _ mem => absurd mem not_mem_nil
      · rw [length_set]
        exact Nat.zero_lt_of_lt length
  | false =>
    obtain ⟨all, rests, unhandled, ready⟩ := h.phase.uncalled there called
    have known : answered request.log ++ [] ⊆ answered request.log := by
      rw [append_nil]
      exact List.Subset.refl _
    refine sound_resume h.gate all length ?_ unhandled known (until_nextOnce new there called ready)
    intro other activation different found
    rw [getElem?_added different] at found
    exact rests other activation found

lemma Sound.step {request' event} (h : Sound executor plan request)
    (st : request.step executor plan event = some request') : Sound executor plan request' := by
  cases event with
  | answer index answer =>
    simp only [Request.step] at st
    split at st
    · rename_i trace call next there
      cases st
      exact h.answer there
    · cases st
  | next cell =>
    simp only [Request.step] at st
    split at st
    · rename_i found there
      cases st
      exact h.next there
    · cases st

lemma sound_arrive (consistent : Consistent executor plan) (validates : Bool) :
    Sound executor plan (Request.arrive executor plan validates) := by
  have nothing : ([] ++ [] : List (Call π × Answer π)) ⊆ answered [] := nil_subset _
  have none : ∀ cell ∈ ([] : List (Next π)), cell.called = true :=
    fun _ mem => absurd mem not_mem_nil
  refine sound_resume .nil none Nat.one_pos ?_ rfl nothing (until_run consistent validates)
  intro other activation different found
  rw [getElem?_added different] at found
  cases found

/-! ### What a request does -/

lemma qualify_consistent {executor executor' : PipelineExecutor π} {plans plans'}
    (qualified : executor.qualify plans = .ok (executor', plans')) {plan}
    (mem : plan ∈ plans') : Consistent executor' plan := by
  obtain ⟨_, -, h⟩ := bind_ok.mp qualified
  obtain ⟨_, each, h⟩ := bind_ok.mp h
  cases h
  obtain ⟨_, -, h⟩ := mem_of_mapM_ok each _ mem
  obtain ⟨_, -, h⟩ := bind_ok.mp h
  obtain ⟨_, -, h⟩ := bind_ok.mp h
  cases h
  rfl

end

/-- What holds of a request at any moment. -/
structure Gated (executor : PipelineExecutor π) (plan : RoutePlan π) (request : Request π) :
    Prop where
  /-- Every middleware, interceptor and handler call is let through. -/
  gate : Justified (Gate executor plan) request.log
  /-- The handler is called at most once. -/
  once : (handled request.log).length ≤ 1
  /-- `run` answers the request. -/
  replied : ∀ trace result, request.activations[0]? = some ⟨trace, .ret result⟩ →
    Answered executor plan trace result
  /-- An error that is not fatal is not raised. -/
  response : ∀ trace error, request.activations[0]? = some ⟨trace, .ret (.error error)⟩ →
    executor.fatal error = true
  /-- A fatal error is raised as soon as it is there. -/
  propagates : ∀ activation ∈ request.activations, ∀ call error,
    (call, .error error) ∈ activation.trace → executor.fatal error = true →
    activation.task = .ret (.error error)

section
variable {executor : PipelineExecutor π} {plan : RoutePlan π} {request : Request π}

lemma handled_once {log} (gate : Justified (Gate executor plan) log) :
    (handled log).length ≤ 1 := by
  induction log using List.reverseRecOn with
  | nil => exact Nat.zero_le 1
  | append_singleton log entry ih =>
    have before : Justified (Gate executor plan) log := by
      intro pre e post same
      apply gate pre e (post ++ [entry])
      rw [same, append_assoc, cons_append]
    have last : Gate executor plan log entry := gate log entry [] rfl
    rw [handled, filterMap_append, length_append]
    cases entry with
    | answered => exact ih before
    | made call =>
      cases call with
      | handler =>
        obtain ⟨none, -⟩ := last
        show (handled log).length + 1 ≤ 1
        rw [none]
        exact Nat.le_refl 1
      | _ => exact ih before

lemma Phase.resting_or_calm (h : Phase executor plan request) {index}
    (there : request.activations[index]? = some activation) :
    Resting executor plan index activation ∨
      Calm executor activation.trace ∧ ∃ call next, activation.task = .await call next := by
  rcases h.work_or_rest index with ⟨_, _, call, next, work⟩ | ⟨rests, -⟩
  · cases Option.some.inj (work.there.symm.trans there)
    exact .inr ⟨work.calm, call, next, rfl⟩
  · exact .inl (rests activation there)

variable {trace : List (Call π × Answer π)} {result : Answer π} {error : Failure}

lemma Calm.not_fatal (h : Calm executor trace) (mem : (call, .error error) ∈ trace)
    (fatal : executor.fatal error = true) : False := by
  cases fatal.symm.trans (h _ mem error rfl)

lemma Final.raised (h : Final executor trace result) (mem : (call, .error error) ∈ trace)
    (fatal : executor.fatal error = true) : result = .error error := by
  rcases h with calm | ⟨_, _, _, rfl, calm, rfl⟩
  · exact (calm.not_fatal mem fatal).elim
  · rcases mem_append.mp mem with mem | mem
    · exact (calm.not_fatal mem fatal).elim
    · cases mem_singleton.mp mem
      rfl

lemma Ends.final {index} (h : Ends executor plan index trace result) :
    Final executor trace result := by
  unfold Ends at h
  split at h
  · exact h.final
  · exact h

lemma Sound.replied (h : Sound executor plan request)
    (there : request.activations[0]? = some ⟨trace, .ret result⟩) :
    Answered executor plan trace result := by
  rcases h.phase.resting_or_calm there with rests | ⟨-, _, _, impossible⟩
  · exact rests
  · cases impossible

lemma Sound.propagates (h : Sound executor plan request) (there : activation ∈ request.activations)
    (mem : (call, .error error) ∈ activation.trace) (fatal : executor.fatal error = true) :
    activation.task = .ret (.error error) := by
  obtain ⟨_, there⟩ := mem_iff_getElem?.mp there
  rcases h.phase.resting_or_calm there with rests | ⟨calm, -⟩
  · unfold Resting at rests
    split at rests
    · exact (rests.1.not_fatal mem fatal).elim
    · rename_i result same
      rw [same, rests.final.raised mem fatal]
    · exact rests.elim
  · exact (calm.not_fatal mem fatal).elim

end

/-- Whatever its components do, a request passes the gate, and errors end in a response. -/
theorem pipeline_gated (executor executor' : PipelineExecutor π) (plans plans' : List (RoutePlan π))
    (qualified : executor.qualify plans = .ok (executor', plans')) (plan : RoutePlan π)
    (mem : plan ∈ plans') (validates : Bool) (response : Value π)
    (emergency : executor'.transport.renderEmergency = .ok response) (request : Request π)
    (reach : Reachable (Request.step executor' plan) (Request.arrive executor' plan validates)
      request) : Gated executor' plan request := by
  have sound : Sound executor' plan request := by
    apply reach.invariant (I := Sound executor' plan)
    · exact sound_arrive (qualify_consistent qualified mem) validates
    · intro request event request' sound _ st
      exact sound.step st
  refine ⟨sound.gate, handled_once sound.gate, ?_, ?_, ?_⟩
  · intro trace result there
    exact sound.replied there
  · intro trace error there
    exact (sound.replied there).fatal emergency
  · intro activation there call error raised fatal
    exact sound.propagates there raised fatal

/-! ### A route with one component of each kind -/

/-- An executor with a global middleware and guard, whose objects are numbers and whose false one
is `0`. -/
def itemExecutor : PipelineExecutor Nat where
  graph := ⟨⟨⟨60, "ItemModule"⟩, none⟩, [], [], [], []⟩
  globalTokens := { middleware := [.object (.object 1)], guards := [.object (.object 2)] }
  globalPipeline := { middleware := [.object (.object 1)], guards := [.object (.object 2)] }
  transport :=
    { isAbortException := fun _ => false
      normalizeResult := fun value => .ok value.fromValue
      nativeResponseResult := fun _ => .ok none
      renderException := fun _ => .ok (.object 500)
      renderEmergency := .ok (.object 500) }
  repr := Token.label
  truthy value := value ≠ .object 0

/-- A route with a pipe and an interceptor and a parameter of its path. -/
def itemPlan : RoutePlan Nat where
  moduleId := ⟨⟨60, "ItemModule"⟩, none⟩
  routeId := "items"
  parameters := [⟨"id", .object 3, .path, some "id"⟩]
  controllerPipeline := { pipes := [.object (.object 4)] }
  routePipeline := { interceptors := [.object (.object 5)] }
  hasExecutionPipeline := true
  names := by decide

/-- The middleware calls its callback, from where the guard, the binding, the pipe and the interceptor
are called; the interceptor calls its own, and the middleware its callback once more. -/
def itemEvents : List (Event Nat) :=
  [.next 0, .answer 1 (.ok (.object 6)), .answer 1 (.ok (.object 7)), .answer 1 (.ok (.object 8)),
    .next 1, .next 0, .answer 2 (.ok (.object 9)), .answer 1 (.ok (.object 10)),
    .answer 0 (.ok (.object 11)), .answer 0 (.ok (.object 200))]

theorem item_handled :
    ∃ request, exec (Request.step itemExecutor itemPlan)
        (Request.arrive itemExecutor itemPlan false) itemEvents = some request ∧
      (handled request.log).map (·.lookup "id") = [some (.object 8)] ∧
      entered request.log = [.object 1] ∧ intercepted request.log = [.object 5] ∧
      Gated itemExecutor itemPlan request := by
  have run : (exec (Request.step itemExecutor itemPlan)
      (Request.arrive itemExecutor itemPlan false) itemEvents).map (fun request =>
        ((handled request.log).map (·.lookup "id"), entered request.log, intercepted request.log)) =
      some ([some (.object 8)], [.object 1], [.object 5]) := by
    decide +kernel
  obtain ⟨request, run, same⟩ := Option.map_eq_some_iff.mp run
  refine ⟨request, run, congrArg (·.1) same, congrArg (·.2.1) same, congrArg (·.2.2) same, ?_⟩
  exact pipeline_gated itemExecutor itemExecutor [itemPlan] [itemPlan] rfl itemPlan
    (mem_singleton.mpr rfl) false (.object 500) rfl request (Reach.of_exec .refl run)

end ToriPy.Http
