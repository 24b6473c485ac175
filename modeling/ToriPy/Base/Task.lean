import Mathlib

/-!
# Tasks

A coroutine as a tree. A task reads and writes a shared state at once and stops at an `await`, where
it makes a call and goes on with whatever the answer is. The answers are not fixed by the task: a
statement about all runs of a task is a statement about every behaviour of what it calls.

`Runs` is the meaning of a task that has the state to itself: the trace of its calls with their
answers, its result, and the state that it leaves. The lemmas take the runs of a sequence, of a
handler and of a loop apart. `advance` is for tasks that share the state: it runs a task up to its
next call. `Guards` is the rule for them: a task that keeps an invariant with each write, whatever
the others made of the state while it waited, keeps it for all. `Continues` and `Pauses` are about a
task that is somewhere on its way: what it may still come to, and what holds where it waits.
-/

namespace ToriPy

open List

/-- A task over states `σ` with calls `κ`, answers `γ` and errors `ε`. -/
inductive Task (σ κ γ ε α : Type) : Type where
  | ret (result : Except ε α)
  | get (next : σ → Task σ κ γ ε α)
  | set (state : σ) (next : Task σ κ γ ε α)
  | await (call : κ) (next : γ → Task σ κ γ ε α)

namespace Task

variable {σ κ γ ε α β : Type} {f : α → Task σ κ γ ε β} {handler : ε → Task σ κ γ ε α}
  {next : Unit → Task σ κ γ ε β} {xs : List β}

/-- A sequence. -/
protected def bind : Task σ κ γ ε α → (α → Task σ κ γ ε β) → Task σ κ γ ε β
  | .ret (.ok a), f => f a
  | .ret (.error e), _ => .ret (.error e)
  | .get next, f => .get fun state => (next state).bind f
  | .set state next, f => .set state (next.bind f)
  | .await call next, f => .await call fun answer => (next answer).bind f

instance : Monad (Task σ κ γ ε) where
  pure a := .ret (.ok a)
  bind := Task.bind

/-- `raise`. -/
def raise (e : ε) : Task σ κ γ ε α := .ret (.error e)

/-- What a result allows is taken from it. -/
def ofExcept (result : Except ε α) : Task σ κ γ ε α := .ret result

/-- `try: … except BaseException as error: …`. -/
def rescue : Task σ κ γ ε α → (ε → Task σ κ γ ε α) → Task σ κ γ ε α
  | .ret (.ok a), _ => .ret (.ok a)
  | .ret (.error e), handler => handler e
  | .get next, handler => .get fun state => (next state).rescue handler
  | .set state next, handler => .set state (next.rescue handler)
  | .await call next, handler => .await call fun answer => (next answer).rescue handler

/-- The result of a task, as a value. -/
def attempt (task : Task σ κ γ ε α) : Task σ κ γ ε (Except ε α) :=
  (task.bind fun a => .ret (.ok (.ok a))).rescue fun e => .ret (.ok (.error e))

/-- A read. -/
def read (f : σ → α) : Task σ κ γ ε α := .get fun state => .ret (.ok (f state))

/-- A write. -/
def modify (f : σ → σ) : Task σ κ γ ε Unit := .get fun state => .set (f state) (.ret (.ok ()))

/-- A call whose answer is looked at. -/
def call (call : κ) : Task σ κ γ ε γ := .await call fun answer => .ret (.ok answer)

/-! ### Runs -/

/-- A run of a task alone: the calls with their answers, the result and the state it leaves. -/
inductive Runs : Task σ κ γ ε α → σ → List (κ × γ) → Except ε α → σ → Prop
  | ret {result : Except ε α} {s : σ} : Runs (.ret result) s [] result s
  | get {next : σ → Task σ κ γ ε α} {s s' : σ} {trace : List (κ × γ)} {result : Except ε α} :
    Runs (next s) s trace result s' → Runs (.get next) s trace result s'
  | set {next : Task σ κ γ ε α} {s s' state : σ} {trace : List (κ × γ)} {result : Except ε α} :
    Runs next state trace result s' → Runs (.set state next) s trace result s'
  | await {call : κ} {answer : γ} {next : γ → Task σ κ γ ε α} {s s' : σ} {trace : List (κ × γ)}
      {result : Except ε α} : Runs (next answer) s trace result s' →
    Runs (.await call next) s ((call, answer) :: trace) result s'

/-- Whatever the answers are, a task has a run with them. -/
lemma exists_run (oracle : κ → γ) (task : Task σ κ γ ε α) (s : σ) :
    ∃ trace result s', Runs task s trace result s' ∧ ∀ entry ∈ trace, entry.2 = oracle entry.1 := by
  induction task generalizing s with
  | ret result => exact ⟨[], result, s, .ret, fun _ mem => absurd mem not_mem_nil⟩
  | get next ih =>
    obtain ⟨trace, result, s', run, follows⟩ := ih s s
    exact ⟨trace, result, s', .get run, follows⟩
  | set state next ih =>
    obtain ⟨trace, result, s', run, follows⟩ := ih state
    exact ⟨trace, result, s', .set run, follows⟩
  | await call next ih =>
    obtain ⟨trace, result, s', run, follows⟩ := ih (oracle call) s
    exact ⟨(call, oracle call) :: trace, result, s', .await run,
      forall_mem_cons.mpr ⟨rfl, follows⟩⟩

/-- The run of a task with given answers, if they are as many as it makes calls. -/
def execute : Task σ κ γ ε α → List γ → σ → Option (List (κ × γ) × Except ε α × σ)
  | .ret result, [], s => some ([], result, s)
  | .ret _, _ :: _, _ => none
  | .get next, answers, s => (next s).execute answers s
  | .set state next, answers, _ => next.execute answers state
  | .await _ _, [], _ => none
  | .await call next, answer :: answers, s =>
    ((next answer).execute answers s).map fun run => ((call, answer) :: run.1, run.2)

lemma runs_of_execute {task : Task σ κ γ ε α} {answers s s' trace result}
    (h : task.execute answers s = some (trace, result, s')) : Runs task s trace result s' := by
  induction task generalizing answers s trace with
  | ret =>
    cases answers with
    | nil =>
      cases h
      exact .ret
    | cons => cases h
  | get next ih => exact .get (ih _ h)
  | set state next ih => exact .set (ih h)
  | await call next ih =>
    cases answers with
    | nil => cases h
    | cons =>
      obtain ⟨⟨_, _, _⟩, run, same⟩ := Option.map_eq_some_iff.mp h
      cases same
      exact .await (ih _ run)

section
variable {task : Task σ κ γ ε α} {s s' : σ} {trace : List (κ × γ)}

/-- A sequence stops with its first part or goes on with the second. -/
lemma Runs.bind {result} (h : Runs (task >>= f) s trace result s') :
    (∃ e, Runs task s trace (.error e) s' ∧ result = .error e) ∨
      ∃ a mid before after, Runs task s before (.ok a) mid ∧ Runs (f a) mid after result s' ∧
        trace = before ++ after := by
  induction task generalizing s trace with
  | ret first =>
    cases first with
    | ok a => exact .inr ⟨a, s, [], trace, .ret, h, rfl⟩
    | error e =>
      cases h
      exact .inl ⟨e, .ret, rfl⟩
  | get next ih =>
    cases h with
    | get h =>
      rcases ih _ h with ⟨e, run, rfl⟩ | ⟨a, mid, before, after, run, rest, rfl⟩
      · exact .inl ⟨e, .get run, rfl⟩
      · exact .inr ⟨a, mid, before, after, .get run, rest, rfl⟩
  | set state next ih =>
    cases h with
    | set h =>
      rcases ih h with ⟨e, run, rfl⟩ | ⟨a, mid, before, after, run, rest, rfl⟩
      · exact .inl ⟨e, .set run, rfl⟩
      · exact .inr ⟨a, mid, before, after, .set run, rest, rfl⟩
  | await call next ih =>
    cases h with
    | await h =>
      rcases ih _ h with ⟨e, run, rfl⟩ | ⟨a, mid, _, after, run, rest, rfl⟩
      · exact .inl ⟨e, .await run, rfl⟩
      · exact .inr ⟨a, mid, _, after, .await run, rest, rfl⟩

/-- A handler runs after an error. -/
lemma Runs.rescue {result} (h : Runs (task.rescue handler) s trace result s') :
    (∃ a, Runs task s trace (.ok a) s' ∧ result = .ok a) ∨
      ∃ e mid before after, Runs task s before (.error e) mid ∧
        Runs (handler e) mid after result s' ∧ trace = before ++ after := by
  induction task generalizing s trace with
  | ret first =>
    cases first with
    | ok a =>
      cases h
      exact .inl ⟨a, .ret, rfl⟩
    | error e => exact .inr ⟨e, s, [], trace, .ret, h, rfl⟩
  | get next ih =>
    cases h with
    | get h =>
      rcases ih _ h with ⟨a, run, rfl⟩ | ⟨e, mid, before, after, run, rest, rfl⟩
      · exact .inl ⟨a, .get run, rfl⟩
      · exact .inr ⟨e, mid, before, after, .get run, rest, rfl⟩
  | set state next ih =>
    cases h with
    | set h =>
      rcases ih h with ⟨a, run, rfl⟩ | ⟨e, mid, before, after, run, rest, rfl⟩
      · exact .inl ⟨a, .set run, rfl⟩
      · exact .inr ⟨e, mid, before, after, .set run, rest, rfl⟩
  | await call next ih =>
    cases h with
    | await h =>
      rcases ih _ h with ⟨a, run, rfl⟩ | ⟨e, mid, _, after, run, rest, rfl⟩
      · exact .inl ⟨a, .await run, rfl⟩
      · exact .inr ⟨e, mid, _, after, .await run, rest, rfl⟩

/-- An attempt runs as the task does and returns its result. -/
lemma Runs.attempt {result} (h : Runs task.attempt s trace result s') :
    ∃ r, result = .ok r ∧ Runs task s trace r s' := by
  rcases Runs.rescue h with ⟨a, run, rfl⟩ | ⟨e, mid, before, after, run, rest, rfl⟩
  · rcases Runs.bind run with ⟨e, -, impossible⟩ | ⟨a, mid, before, after, run, rest, rfl⟩
    · cases impossible
    · cases rest
      rw [append_nil]
      exact ⟨.ok a, rfl, run⟩
  · cases rest
    rw [append_nil]
    rcases Runs.bind run with ⟨e, run, same⟩ | ⟨a, _, _, _, -, rest, rfl⟩
    · cases same
      exact ⟨.error e, rfl, run⟩
    · cases rest

lemma Runs.read {f : σ → α} {result : Except ε α} (h : Runs (Task.read f) s trace result s') :
    trace = [] ∧ result = .ok (f s) ∧ s' = s := by
  cases h with
  | get h =>
    cases h
    exact ⟨rfl, rfl, rfl⟩

lemma Runs.modify {f : σ → σ} {result : Except ε Unit}
    (h : Runs (Task.modify f) s trace result s') : trace = [] ∧ result = .ok () ∧ s' = f s := by
  cases h with
  | get h =>
    cases h with
    | set h =>
      cases h
      exact ⟨rfl, rfl, rfl⟩

lemma Runs.call {c : κ} {result : Except ε γ} (h : Runs (Task.call c) s trace result s') :
    ∃ answer, trace = [(c, answer)] ∧ result = .ok answer ∧ s' = s := by
  cases h with
  | await h =>
    cases h
    exact ⟨_, rfl, rfl, rfl⟩

section
variable {result : Except ε β}

lemma Runs.read_then {f : σ → α} {next : α → Task σ κ γ ε β}
    (h : Runs (Task.read f >>= next) s trace result s') : Runs (next (f s)) s trace result s' := by
  cases h with
  | get h => exact h

lemma Runs.modify_then {f}
    (h : Runs (Task.modify f >>= next) s trace result s') : Runs (next ()) (f s) trace result s' := by
  cases h with
  | get h =>
    cases h with
    | set h => exact h

lemma Runs.call_then {c next} (h : Runs (Task.call c >>= next) s trace result s') :
    ∃ answer rest, trace = (c, answer) :: rest ∧ Runs (next answer) s rest result s' := by
  cases h with
  | await h => exact ⟨_, _, rfl, h⟩

lemma Runs.pure {a : α} {result : Except ε α} (h : Runs (Pure.pure a) s trace result s') :
    trace = [] ∧ result = .ok a ∧ s' = s := by
  cases h
  exact ⟨rfl, rfl, rfl⟩

end

end

/-! ### Relations along runs -/

/-- A relation that holds along an empty trace and is put together along traces. -/
structure Path (R : σ → List (κ × γ) → σ → Prop) : Prop where
  refl : ∀ s, R s [] s
  trans : ∀ {s mid s' before after}, R s before mid → R mid after s' → R s (before ++ after) s'

/-- Every run goes from a state to a related one. -/
def Along (R : σ → List (κ × γ) → σ → Prop) (task : Task σ κ γ ε α) : Prop :=
  ∀ s trace result s', task.Runs s trace result s' → R s trace s'

namespace Along

variable {R : σ → List (κ × γ) → σ → Prop} {task : Task σ κ γ ε α}

lemma ret (path : Path R) (result : Except ε α) : Along R (.ret result) := by
  intro s trace result s' run
  cases run
  exact path.refl s

lemma bind (path : Path R) (h : Along R task) (h' : ∀ a, Along R (f a)) : Along R (task >>= f) := by
  intro s trace result s' run
  rcases run.bind with ⟨e, first, rfl⟩ | ⟨a, _, _, _, first, rest, rfl⟩
  · exact h _ _ _ _ first
  · exact path.trans (h _ _ _ _ first) (h' a _ _ _ _ rest)

lemma rescue (path : Path R) (h : Along R task)
    (h' : ∀ e, Along R (handler e)) : Along R (task.rescue handler) := by
  intro s trace result s' run
  rcases run.rescue with ⟨a, first, rfl⟩ | ⟨e, _, _, _, first, rest, rfl⟩
  · exact h _ _ _ _ first
  · exact path.trans (h _ _ _ _ first) (h' e _ _ _ _ rest)

lemma attempt (h : Along R task) : Along R task.attempt := by
  intro s trace result s' run
  obtain ⟨r, -, first⟩ := run.attempt
  exact h _ _ _ _ first

lemma read (path : Path R) (f : σ → α) : Along R (Task.read (κ := κ) (γ := γ) (ε := ε) f) := by
  intro s trace result s' run
  obtain ⟨rfl, -, rfl⟩ := run.read
  exact path.refl _

lemma modify {f : σ → σ} (h : ∀ s, R s [] (f s)) :
    Along R (Task.modify (κ := κ) (γ := γ) (ε := ε) f) := by
  intro s trace result s' run
  obtain ⟨rfl, -, rfl⟩ := run.modify
  exact h s

lemma call {c : κ} (h : ∀ s answer, R s [(c, answer)] s) :
    Along R (Task.call (σ := σ) (ε := ε) c) := by
  intro s trace result s' run
  obtain ⟨_, rfl, -, rfl⟩ := run.call
  exact h _ _

lemma foldlM (path : Path R) {f : α → β → Task σ κ γ ε α} (h : ∀ a, ∀ x ∈ xs, Along R (f a x))
    (a : α) : Along R (xs.foldlM f a) := by
  induction xs generalizing a with
  | nil => exact ret path _
  | cons x xs ih =>
    rw [foldlM_cons]
    apply bind path (h a x mem_cons_self)
    intro a
    exact ih (fun a x mem => h a x (mem_cons_of_mem _ mem)) a

end Along

/-- The error of a result. -/
def errorOf : Except ε α → Option ε
  | .ok _ => none
  | .error e => some e

/-- A relation that holds along an empty trace and is put together along traces, up to an error. -/
structure Chain (R : σ → List (κ × γ) → Option ε → σ → Prop) : Prop where
  refl : ∀ s, R s [] none s
  trans : ∀ {s mid s' before after e}, R s before none mid → R mid after e s' →
    R s (before ++ after) e s'

/-- Every run goes from a state to a related one, and ends with a related error or with none. -/
def Ends (R : σ → List (κ × γ) → Option ε → σ → Prop) (task : Task σ κ γ ε α) : Prop :=
  ∀ s trace result s', task.Runs s trace result s' → R s trace (errorOf result) s'

namespace Ends

variable {R : σ → List (κ × γ) → Option ε → σ → Prop} {task : Task σ κ γ ε α}

lemma pure (chain : Chain R) (a : α) : Ends R (Pure.pure a : Task σ κ γ ε α) := by
  intro s trace result s' run
  cases run
  exact chain.refl s

lemma bind (chain : Chain R) (h : Ends R task) (h' : ∀ a, Ends R (f a)) : Ends R (task >>= f) := by
  intro s trace result s' run
  rcases run.bind with ⟨e, first, rfl⟩ | ⟨a, _, _, _, first, rest, rfl⟩
  · exact h _ _ _ _ first
  · exact chain.trans (h _ _ _ _ first) (h' a _ _ _ _ rest)

lemma foldlM (chain : Chain R) {f} (h : ∀ a, ∀ x ∈ xs, Ends R (f a x))
    (a : α) : Ends R (xs.foldlM f a) := by
  induction xs generalizing a with
  | nil => exact pure chain a
  | cons x xs ih =>
    rw [foldlM_cons]
    apply bind chain (h a x mem_cons_self)
    intro a
    exact ih (fun a x mem => h a x (mem_cons_of_mem _ mem)) a

lemma forM (chain : Chain R) {f : α → Task σ κ γ ε Unit} {xs : List α}
    (h : ∀ x ∈ xs, Ends R (f x)) : Ends R (xs.forM f) := by
  induction xs with
  | nil => exact pure chain ()
  | cons x xs ih =>
    apply bind chain (h x mem_cons_self)
    intro _
    exact ih fun x mem => h x (mem_cons_of_mem _ mem)

end Ends

/-! ### Tasks that share the state -/

/-- A task up to its next call. -/
def advance : Task σ κ γ ε α → σ → Task σ κ γ ε α × σ
  | .ret result, s => (.ret result, s)
  | .get next, s => (next s).advance s
  | .set state next, _ => next.advance state
  | .await call next, s => (.await call next, s)

lemma advance_stops (task : Task σ κ γ ε α) (s : σ) :
    (∃ result, (task.advance s).1 = .ret result) ∨ ∃ c next, (task.advance s).1 = .await c next := by
  induction task generalizing s with
  | ret result => exact .inl ⟨result, rfl⟩
  | get next ih => exact ih s s
  | set state next ih => exact ih state
  | await c next => exact .inr ⟨c, next, rfl⟩

lemma Runs.of_advance {task : Task σ κ γ ε α} {s s' trace result}
    (h : Runs (task.advance s).1 (task.advance s).2 trace result s') :
    Runs task s trace result s' := by
  induction task generalizing s with
  | ret | await => exact h
  | get next ih => exact .get (ih _ h)
  | set state next ih => exact .set (ih h)

/-- A task goes on where another one got to after a trace, in the state that it left. -/
def Continues (original : Task σ κ γ ε α) (began : σ) (trace : List (κ × γ)) (task : Task σ κ γ ε α)
    (s : σ) : Prop :=
  ∀ rest result s', Runs task s rest result s' → Runs original began (trace ++ rest) result s'

section
variable {original task : Task σ κ γ ε α} {began s : σ} {trace : List (κ × γ)}

lemma Continues.refl (task : Task σ κ γ ε α) (s : σ) : Continues task s [] task s :=
  fun _ _ _ run => run

lemma Continues.advance (h : Continues original began trace task s) :
    Continues original began trace (task.advance s).1 (task.advance s).2 :=
  fun rest result s' run => h rest result s' run.of_advance

lemma Continues.answer {call next} (h : Continues original began trace (.await call next) s)
    (answer : γ) : Continues original began (trace ++ [(call, answer)]) (next answer) s := by
  intro rest result s' run
  rw [append_assoc]
  exact h _ _ _ (.await run)

/-- A task that waits has a run with its call in it. -/
lemma Continues.exists_run {call next} (h : Continues original began trace (.await call next) s)
    (oracle : κ → γ) :
    ∃ rest result s', Runs original began (trace ++ (call, oracle call) :: rest) result s' ∧
      ∀ entry ∈ rest, entry.2 = oracle entry.1 := by
  obtain ⟨rest, result, s', run, follows⟩ := Task.exists_run oracle (next (oracle call)) s
  exact ⟨rest, result, s', h _ _ _ (.await run), follows⟩

lemma Continues.runs {result}
    (h : Continues original began trace (.ret result) s) : Runs original began trace result s := by
  have run := h [] result s .ret
  rw [append_nil] at run
  exact run

end

/-- From a state on the writes of a task keep an invariant, and its calls are allowed, whatever keeps
the invariant while it waits. -/
def Guards (inv : σ → Prop) (ok : σ → κ → Prop) : Task σ κ γ ε α → σ → Prop
  | .ret _, _ => True
  | .get next, s => (next s).Guards inv ok s
  | .set state next, _ => inv state ∧ next.Guards inv ok state
  | .await call next, s => ok s call ∧ ∀ s', inv s' → ∀ answer, (next answer).Guards inv ok s'

namespace Guards

variable {inv : σ → Prop} {ok : σ → κ → Prop} {task : Task σ κ γ ε α} {s : σ}

lemma advance (h : task.Guards inv ok s) (here : inv s) :
    inv (task.advance s).2 ∧ (task.advance s).1.Guards inv ok (task.advance s).2 := by
  induction task generalizing s with
  | ret => exact ⟨here, trivial⟩
  | get next ih => exact ih _ h here
  | set state next ih => exact ih h.2 h.1
  | await => exact ⟨here, h⟩

lemma bind (h : task.Guards inv ok s) (here : inv s)
    (h' : ∀ a s', inv s' → (f a).Guards inv ok s') : (task >>= f).Guards inv ok s := by
  induction task generalizing s with
  | ret result =>
    cases result with
    | ok a => exact h' a s here
    | error => trivial
  | get next ih => exact ih _ h here
  | set state next ih => exact ⟨h.1, ih h.2 h.1⟩
  | await call next ih => exact ⟨h.1, fun s' there answer => ih answer (h.2 s' there answer) there⟩

lemma modify_then {f} (here : inv (f s))
    (h : (next ()).Guards inv ok (f s)) : (Task.modify f >>= next).Guards inv ok s :=
  ⟨here, h⟩

lemma read_then {β' : Type} {f : σ → β'} {next : β' → Task σ κ γ ε α}
    (h : (next (f s)).Guards inv ok s) : (Task.read f >>= next).Guards inv ok s :=
  h

lemma rescue (h : task.Guards inv ok s) (here : inv s)
    (h' : ∀ e s', inv s' → (handler e).Guards inv ok s') : (task.rescue handler).Guards inv ok s := by
  induction task generalizing s with
  | ret result =>
    cases result with
    | ok => trivial
    | error e => exact h' e s here
  | get next ih => exact ih _ h here
  | set state next ih => exact ⟨h.1, ih h.2 h.1⟩
  | await call next ih => exact ⟨h.1, fun s' there answer => ih answer (h.2 s' there answer) there⟩

lemma foldlM {f : α → β → Task σ κ γ ε α}
    (h : ∀ a, ∀ x ∈ xs, ∀ s', inv s' → (f a x).Guards inv ok s') (a : α) (here : inv s) :
    (xs.foldlM f a).Guards inv ok s := by
  induction xs generalizing a s with
  | nil => trivial
  | cons x xs ih =>
    rw [foldlM_cons]
    apply bind (h a x mem_cons_self s here) here
    intro a s' there
    exact ih (fun a x mem => h a x (mem_cons_of_mem _ mem)) a there

lemma forM {f : α → Task σ κ γ ε Unit} {xs : List α}
    (h : ∀ x ∈ xs, ∀ s', inv s' → (f x).Guards inv ok s') (here : inv s) :
    (xs.forM f).Guards inv ok s := by
  induction xs generalizing s with
  | nil => trivial
  | cons x xs ih =>
    apply bind (h x mem_cons_self s here) here
    intro _ s' there
    exact ih (fun x mem => h x (mem_cons_of_mem _ mem)) there

lemma runs {trace result s'} (h : task.Guards inv ok s) (here : inv s)
    (run : Runs task s trace result s') : inv s' := by
  induction run with
  | ret => exact here
  | get _ ih => exact ih h here
  | set _ ih => exact ih h.2 h.1
  | await _ ih => exact ih (h.2 _ here _) here

end Guards

/-- What holds of the state and the call whenever a task that has the state to itself waits. -/
def Pauses (P : σ → κ → Prop) : Task σ κ γ ε α → σ → Prop
  | .ret _, _ => True
  | .get next, s => (next s).Pauses P s
  | .set state next, _ => next.Pauses P state
  | .await call next, s => P s call ∧ ∀ answer, (next answer).Pauses P s

namespace Pauses

variable {P : σ → κ → Prop} {task : Task σ κ γ ε α} {s : σ}

lemma advance (h : task.Pauses P s) : (task.advance s).1.Pauses P (task.advance s).2 := by
  induction task generalizing s with
  | ret => trivial
  | get next ih => exact ih _ h
  | set state next ih => exact ih h
  | await => exact h

lemma of_guards {inv ok} (h : task.Guards inv ok s) (here : inv s)
    (pause : ∀ s c, inv s → ok s c → P s c) : task.Pauses P s := by
  induction task generalizing s with
  | ret => trivial
  | get next ih => exact ih _ h here
  | set state next ih => exact ih h.2 h.1
  | await call next ih => exact ⟨pause s call here h.1, fun answer => ih answer (h.2 s here answer) here⟩

lemma bind (h : task.Pauses P s)
    (h' : ∀ trace a s', Runs task s trace (.ok a) s' → (f a).Pauses P s') :
    (task >>= f).Pauses P s := by
  induction task generalizing s with
  | ret result =>
    cases result with
    | ok a => exact h' [] a s .ret
    | error => trivial
  | get next ih => exact ih _ h fun trace a s' run => h' trace a s' (.get run)
  | set state next ih => exact ih h fun trace a s' run => h' trace a s' (.set run)
  | await call next ih =>
    exact ⟨h.1, fun answer => ih answer (h.2 answer) fun trace a s' run => h' _ a s' (.await run)⟩

lemma rescue (h : task.Pauses P s)
    (h' : ∀ trace e s', Runs task s trace (.error e) s' → (handler e).Pauses P s') :
    (task.rescue handler).Pauses P s := by
  induction task generalizing s with
  | ret result =>
    cases result with
    | ok => trivial
    | error e => exact h' [] e s .ret
  | get next ih => exact ih _ h fun trace e s' run => h' trace e s' (.get run)
  | set state next ih => exact ih h fun trace e s' run => h' trace e s' (.set run)
  | await call next ih =>
    exact ⟨h.1, fun answer => ih answer (h.2 answer) fun trace e s' run => h' _ e s' (.await run)⟩

end Pauses

end Task

end ToriPy
