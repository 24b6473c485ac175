import ToriPy.Base.Except

/-!
# Methods that raise

A method that may change its object before it raises is an `EStateM ε σ α`. Its result has the state
also when it is an error, as a Python object keeps what was assigned before an exception left the
method.

`Keeps I x` says that `x` preserves `I` whether it returns or raises. The rules below follow the
statements of a `do` block and its loops, so that an invariant has to be checked for the elementary
assignments only.
-/

namespace ToriPy

variable {ε σ α β : Type} {f : α → EStateM ε σ β} {x : EStateM ε σ α}

/-- The state that a method leaves, whether it returns or raises. -/
def finalState : EStateM.Result ε σ α → σ
  | .ok _ s => s
  | .error _ s => s

/-- Return or raise as a computation without state says. -/
def check (x : Except ε α) : EStateM ε σ α := fun s =>
  match x with
  | .ok a => .ok a s
  | .error e => .error e s

lemma seq_apply (x : EStateM ε σ α) (f : α → EStateM ε σ β) (s : σ) :
    (x >>= f) s = match x s with
      | .ok a s' => f a s'
      | .error e s' => .error e s' := rfl

lemma seq_get (f : σ → EStateM ε σ α) (s : σ) : (get >>= f) s = f s s := rfl

lemma forM_cons_eq (f : α → EStateM ε σ PUnit) (x : α) (xs : List α) :
    (x :: xs).forM f = f x >>= fun _ => xs.forM f := rfl

/-- A sequence returns when both of its parts do. -/
lemma seq_ok {b s s''} : (x >>= f) s = .ok b s'' ↔ ∃ a s', x s = .ok a s' ∧ f a s' = .ok b s'' := by
  rw [seq_apply]
  cases x s <;> simp

/-- `x` preserves `I`. -/
def Keeps (I : σ → Prop) (x : EStateM ε σ α) : Prop := ∀ s, I s → I (finalState (x s))

namespace Keeps

variable {I : σ → Prop}

lemma of_eq {s result} (hx : Keeps I x) (h : I s)
    (done : x s = result) : I (finalState result) := by
  rw [← done]
  exact hx s h

lemma pure (a : α) : Keeps I (Pure.pure a : EStateM ε σ α) := fun _ h => h

lemma throw (e : ε) : Keeps I (MonadExcept.throw e : EStateM ε σ α) := fun _ h => h

lemma check (x : Except ε α) : Keeps I (check x : EStateM ε σ α) := by
  intro s h
  cases x <;> exact h

lemma bind (hx : Keeps I x) (hf : ∀ a, Keeps I (f a)) : Keeps I (x >>= f) := by
  intro s h
  have kept := hx s h
  rw [seq_apply]
  cases hs : x s with
  | ok a s' =>
    rw [hs] at kept
    exact hf a s' kept
  | error =>
    rw [hs] at kept
    exact kept

/-- Behind a check its result is known. -/
lemma bind_check {x} (hf : ∀ a, x = .ok a → Keeps I (f a)) : Keeps I (ToriPy.check x >>= f) := by
  intro s h
  cases x with
  | ok a => exact hf a rfl s h
  | error => exact h

/-- A method that looks at its state first. -/
lemma bind_get {f : σ → EStateM ε σ α} (hf : ∀ s₀, I s₀ → I (finalState (f s₀ s₀))) :
    Keeps I (get >>= f) := hf

lemma forM {xs : List β} {f : β → EStateM ε σ PUnit} (hf : ∀ x ∈ xs, Keeps I (f x)) :
    Keeps I (xs.forM f) := by
  induction xs with
  | nil => exact .pure _
  | cons x xs ih =>
    exact .bind (hf x List.mem_cons_self) fun _ => ih fun y hy => hf y (List.mem_cons_of_mem _ hy)

lemma mapM {xs : List β} {f : β → EStateM ε σ α} (hf : ∀ x ∈ xs, Keeps I (f x)) :
    Keeps I (xs.mapM f) := by
  induction xs with
  | nil => exact .pure _
  | cons x xs ih =>
    rw [List.mapM_cons]
    refine .bind (hf x List.mem_cons_self) fun _ => ?_
    exact .bind (ih fun y hy => hf y (List.mem_cons_of_mem _ hy)) fun _ => .pure _

end Keeps

end ToriPy
