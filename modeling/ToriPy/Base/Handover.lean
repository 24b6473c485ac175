import ToriPy.Base.Task

/-!
# Tasks that take turns

Many tasks share a state, but at any time at most one of them works on it. `Only` is for the others:
a task that writes nothing, makes only calls of a certain kind and ends as its two postconditions
say, whatever it finds the state to be. `Until` is for the one at work: it has the state to itself
up to the point where it lets go of it, and what holds at that point is known from the calls it has
made and their answers.

Both are read backwards along the code, as weakest preconditions are: there is one rule for each way
to put tasks together.
-/

namespace ToriPy.Task

variable {σ κ γ ε α β : Type} {f : α → Task σ κ γ ε β}

/-- After a trace a task writes nothing and makes only calls that meet `ok` with the trace up to
them. It ends with a value and a trace that meet `P`, or with an error and a trace that meet `E`. -/
def Only (ok : List (κ × γ) → κ → Prop) (P : List (κ × γ) → α → Prop)
    (E : List (κ × γ) → ε → Prop) : Task σ κ γ ε α → List (κ × γ) → Prop
  | .ret (.ok a), trace => P trace a
  | .ret (.error e), trace => E trace e
  | .get next, trace => ∀ s, (next s).Only ok P E trace
  | .set _ _, _ => False
  | .await call next, trace =>
    ok trace call ∧ ∀ answer, (next answer).Only ok P E (trace ++ [(call, answer)])

namespace Only

variable {ok : List (κ × γ) → κ → Prop} {P : List (κ × γ) → α → Prop} {Q : List (κ × γ) → β → Prop}
  {E F : List (κ × γ) → ε → Prop} {task : Task σ κ γ ε α} {trace : List (κ × γ)}

lemma bind (h : task.Only ok (fun trace a => (f a).Only ok Q E trace) E trace) :
    (task >>= f).Only ok Q E trace := by
  induction task generalizing trace with
  | ret result =>
    cases result with
    | ok | error => exact h
  | get next ih => exact fun s => ih s (h s)
  | set => exact h.elim
  | await call next ih => exact ⟨h.1, fun answer => ih answer (h.2 answer)⟩

/-- A sequence that looks at the result of its first part, as a handler does. -/
lemma attempt_then {f} (h : task.Only ok (fun trace a => (f (.ok a)).Only ok Q E trace)
      (fun trace e => (f (.error e)).Only ok Q E trace) trace) :
    (task.attempt >>= f).Only ok Q E trace := by
  induction task generalizing trace with
  | ret result =>
    cases result with
    | ok | error => exact h
  | get next ih => exact fun s => ih s (h s)
  | set => exact h.elim
  | await call next ih => exact ⟨h.1, fun answer => ih answer (h.2 answer)⟩

lemma mono {P'} (h : task.Only ok P E trace) (values : ∀ trace a, P trace a → P' trace a)
    (errors : ∀ trace e, E trace e → F trace e) : task.Only ok P' F trace := by
  induction task generalizing trace with
  | ret result =>
    cases result with
    | ok a => exact values trace a h
    | error e => exact errors trace e h
  | get next ih => exact fun s => ih s (h s)
  | set => exact h.elim
  | await call next ih => exact ⟨h.1, fun answer => ih answer (h.2 answer)⟩

/-- A part, and what follows it. -/
lemma next (h : task.Only ok P E trace) (values : ∀ trace a, P trace a → (f a).Only ok Q E trace) :
    (task >>= f).Only ok Q E trace :=
  bind (h.mono values fun _ _ raised => raised)

lemma imp {P'} (h : task.Only ok P E trace)
    (values : ∀ trace a, P trace a → P' trace a) : task.Only ok P' E trace :=
  h.mono values fun _ _ raised => raised

/-- A loop, with an invariant over what is left of the list. -/
lemma foldlM {f : α → β → Task σ κ γ ε α} (I : List β → List (κ × γ) → α → Prop)
    (step : ∀ x xs trace a, I (x :: xs) trace a → (f a x).Only ok (I xs) E trace)
    (finish : ∀ trace a, I [] trace a → P trace a) {xs : List β} {a} (here : I xs trace a) :
    (xs.foldlM f a).Only ok P E trace := by
  induction xs generalizing trace a with
  | nil => exact finish trace a here
  | cons x xs ih =>
    rw [List.foldlM_cons]
    exact (step x xs trace a here).next fun trace a there => ih there

lemma forM {f : β → Task σ κ γ ε Unit} {P : List (κ × γ) → Unit → Prop}
    (I : List β → List (κ × γ) → Prop)
    (step : ∀ x xs trace, I (x :: xs) trace → (f x).Only ok (fun trace _ => I xs trace) E trace)
    (finish : ∀ trace, I [] trace → P trace ()) {xs : List β} (here : I xs trace) :
    (xs.forM f).Only ok P E trace := by
  induction xs generalizing trace with
  | nil => exact finish trace here
  | cons x xs ih => exact (step x xs trace here).next fun trace _ there => ih there

/-- The state stays as it is. -/
lemma advance (h : task.Only ok P E trace) (s : σ) :
    (task.advance s).2 = s ∧ (task.advance s).1.Only ok P E trace := by
  induction task generalizing trace with
  | ret | await => exact ⟨rfl, h⟩
  | get next ih => exact ih s (h s)
  | set => exact h.elim

end Only

/-- After a trace a task has the state to itself. It leaves it as it was when it began and makes only
calls that meet `busy` with the trace up to them, until `free` holds of the trace, the state and what
is left of the task. -/
def Until (began : σ) (busy : List (κ × γ) → κ → Prop)
    (free : List (κ × γ) → σ → Task σ κ γ ε α → Prop) : Task σ κ γ ε α → List (κ × γ) → σ → Prop
  | .ret result, trace, s => free trace s (.ret result)
  | .get next, trace, s => (next s).Until began busy free trace s
  | .set state next, trace, _ => next.Until began busy free trace state
  | .await call next, trace, s => free trace s (.await call next) ∨
    busy trace call ∧ s = began ∧ ∀ answer, (next answer).Until began busy free (trace ++ [(call, answer)]) s

namespace Until

variable {busy : List (κ × γ) → κ → Prop} {free : List (κ × γ) → σ → Task σ κ γ ε α → Prop}
  {free' : List (κ × γ) → σ → Task σ κ γ ε β → Prop} {task : Task σ κ γ ε α}
  {trace : List (κ × γ)} {began s : σ}

/-- What the first part of a sequence has to let go with. -/
def Then (began : σ) (busy : List (κ × γ) → κ → Prop)
    (free' : List (κ × γ) → σ → Task σ κ γ ε β → Prop) (f : α → Task σ κ γ ε β) :
    List (κ × γ) → σ → Task σ κ γ ε α → Prop
  | trace, s, .ret (.ok a) => (f a).Until began busy free' trace s
  | trace, s, task => free' trace s (task >>= f)

lemma bind (h : task.Until began busy (Then began busy free' f) trace s) :
    (task >>= f).Until began busy free' trace s := by
  induction task generalizing trace s with
  | ret result =>
    cases result with
    | ok | error => exact h
  | get next ih => exact ih s h
  | set state next ih => exact ih h
  | await call next ih =>
    rcases h with done | ⟨busy, same, goes⟩
    · exact .inl done
    · exact .inr ⟨busy, same, fun answer => ih answer (goes answer)⟩

/-- What the part of a sequence whose result is looked at has to let go with. -/
def ThenAttempt (began : σ) (busy : List (κ × γ) → κ → Prop)
    (free' : List (κ × γ) → σ → Task σ κ γ ε β → Prop) (f : Except ε α → Task σ κ γ ε β) :
    List (κ × γ) → σ → Task σ κ γ ε α → Prop
  | trace, s, .ret result => (f result).Until began busy free' trace s
  | trace, s, task => free' trace s (task.attempt >>= f)

lemma attempt_then {f} (h : task.Until began busy (ThenAttempt began busy free' f) trace s) :
    (task.attempt >>= f).Until began busy free' trace s := by
  induction task generalizing trace s with
  | ret result =>
    cases result with
    | ok | error => exact h
  | get next ih => exact ih s h
  | set state next ih => exact ih h
  | await call next ih =>
    rcases h with done | ⟨busy, same, goes⟩
    · exact .inl done
    · exact .inr ⟨busy, same, fun answer => ih answer (goes answer)⟩

/-- A part that leaves the state alone keeps it for what follows. -/
lemma of_only_bind (h : task.Only busy (fun trace a => (f a).Until began busy free' trace began)
      (fun trace e => free' trace began (.ret (.error e))) trace) :
    (task >>= f).Until began busy free' trace began := by
  induction task generalizing trace with
  | ret result =>
    cases result with
    | ok | error => exact h
  | get next ih => exact ih began (h began)
  | set => exact h.elim
  | await call next ih => exact .inr ⟨h.1, rfl, fun answer => ih answer (h.2 answer)⟩

/-- A task that leaves the state alone has let go of it. -/
lemma of_only {ok P E} (h : task.Only ok P E trace)
    (done : ∀ task : Task σ κ γ ε α, task.Only ok P E trace → free trace s task) :
    task.Until began busy free trace s := by
  induction task with
  | ret => exact done _ h
  | get next ih => exact ih s (h s)
  | set => exact h.elim
  | await => exact .inl (done _ h)

lemma advance (h : task.Until began busy free trace s) :
    (task.advance s).1.Until began busy free trace (task.advance s).2 := by
  induction task generalizing s with
  | ret | await => exact h
  | get next ih => exact ih s h
  | set state next ih => exact ih h

lemma mono (h : task.Until began busy free trace s) {free₂}
    (weaker : ∀ trace s task, free trace s task → free₂ trace s task) :
    task.Until began busy free₂ trace s := by
  induction task generalizing trace s with
  | ret => exact weaker _ _ _ h
  | get next ih => exact ih s h
  | set state next ih => exact ih h
  | await call next ih =>
    rcases h with done | ⟨busy, same, goes⟩
    · exact .inl (weaker _ _ _ done)
    · exact .inr ⟨busy, same, fun answer => ih answer (goes answer)⟩

end Until

end ToriPy.Task
