import Mathlib

/-!
# Transition systems

A stateful component is a step function `step : σ → α → Option σ`, where `none` says that the action
is not possible in the state. `Reach step ok s₀` are the states reached from `s₀` by steps that all
meet `ok`; with `ok` always true these are all reachable states. `Reach.invariant` is the induction
every safety result goes through: a property of the start that one step preserves holds wherever a
run leads.

`Justified Q t` says that each entry of a growing trace meets `Q` against the entries before it; it
is how statements of the form "nothing of this kind ever happens after that" are put.
-/

namespace ToriPy

universe u v

variable {σ : Type u} {α : Type v}

/-- The states reached from `s₀` by steps that all meet `ok`. -/
inductive Reach (step : σ → α → Option σ) (ok : σ → α → Prop) (s₀ : σ) : σ → Prop where
  | refl : Reach step ok s₀ s₀
  | tail {s s' : σ} {a : α} :
    Reach step ok s₀ s →
    ok s a →
    step s a = some s' →
    Reach step ok s₀ s'

/-- The states reached from `s₀` by any steps. -/
abbrev Reachable (step : σ → α → Option σ) (s₀ : σ) : σ → Prop :=
  Reach step (fun _ _ => True) s₀

/-- Running a list of actions, if each of them is possible in turn. -/
def exec (step : σ → α → Option σ) : σ → List α → Option σ
  | s, [] => some s
  | s, a :: as => (step s a).bind fun s' => exec step s' as

/-- Running a list of actions that all meet the decidable condition `ok`. -/
def execBy (step : σ → α → Option σ) (ok : σ → α → Bool) : σ → List α → Option σ :=
  exec fun s a => if ok s a then step s a else none

section
variable {step : σ → α → Option σ} {ok : σ → α → Prop} {s₀ s s' : σ} {a : α}

/-- A property of the start that every admitted step preserves holds in every state reached. -/
lemma Reach.invariant {I : σ → Prop} (r : Reach step ok s₀ s) (init : I s₀)
    (pres : ∀ {s a s'}, I s → ok s a → step s a = some s' → I s') : I s := by
  induction r with
  | refl => exact init
  | tail _ hok st ih => exact pres ih hok st

/-- Two runs in a row are a run. -/
lemma Reach.trans {s₁ s₂} (r₁ : Reach step ok s₀ s₁) (r₂ : Reach step ok s₁ s₂) :
    Reach step ok s₀ s₂ := by
  induction r₂ with
  | refl => exact r₁
  | tail _ hok st ih => exact .tail ih hok st

/-- What a list of actions leads to is reached. -/
lemma Reach.of_exec {as s₁ s₂} (r : Reachable step s₀ s₁)
    (h : exec step s₁ as = some s₂) : Reachable step s₀ s₂ := by
  induction as generalizing s₁ with
  | nil =>
    cases h
    exact r
  | cons a as ih =>
    obtain ⟨_, st, rest⟩ := Option.bind_eq_some_iff.mp h
    exact ih (.tail r trivial st) rest

/-- What a list of actions that meet `ok` leads to is reached by steps that meet it. -/
lemma Reach.of_execBy {okb} (sound : ∀ s a, okb s a = true → ok s a) {as s₁ s₂}
    (r : Reach step ok s₀ s₁) (h : execBy step okb s₁ as = some s₂) : Reach step ok s₀ s₂ := by
  induction as generalizing s₁ with
  | nil =>
    cases h
    exact r
  | cons a as ih =>
    obtain ⟨_, st, rest⟩ := Option.bind_eq_some_iff.mp h
    dsimp only at st
    split at st
    · rename_i hok
      exact ih (.tail r (sound _ _ hok) st) rest
    · cases st

end

section
variable {ε : Type u} {Q : List ε → ε → Prop} {t : List ε} {e : ε}

/-- Every entry of the trace meets `Q` with the entries before it. -/
def Justified (Q : List ε → ε → Prop) (t : List ε) : Prop :=
  ∀ pre e post, t = pre ++ e :: post → Q pre e

/-- The empty trace is justified. -/
lemma Justified.nil : Justified Q [] := by
  intro pre e post h
  simp at h

/-- A trace grows by an entry that meets `Q` with it. -/
lemma Justified.snoc (ht : Justified Q t) (he : Q t e) : Justified Q (t ++ [e]) := by
  intro pre e' post h
  rcases List.eq_nil_or_concat post with rfl | ⟨post', last, rfl⟩
  · obtain ⟨ht', he'⟩ := List.append_inj' h rfl
    rw [← ht', ← List.singleton_inj.mp he']
    exact he
  · have h' : t ++ [e] = (pre ++ e' :: post') ++ [last] := by simpa using h
    obtain ⟨rfl, -⟩ := List.append_inj' h' rfl
    exact ht pre e' post' rfl

end

end ToriPy
