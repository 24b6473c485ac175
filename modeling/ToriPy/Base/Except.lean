import Mathlib

/-!
# Raising and returning

Fallible code is modelled in `Except ε`. `require` is the check-and-raise statement of the source;
the rules below peel a `do` block apart one statement at a time, so that proofs never unfold the
monad.
-/

namespace ToriPy

open List

variable {ε α β : Type}

/-- Raise `e` unless `c` holds. -/
def require (c : Prop) [Decidable c] (e : ε) : Except ε Unit :=
  if c then .ok () else .error e

/-- A passed check returns. -/
@[simp] lemma require_ok {c : Prop} [Decidable c] {e : ε} {u : Unit} : require c e = .ok u ↔ c := by
  unfold require
  split <;> simp_all

@[simp] lemma ok_bind (a : α) (f : α → Except ε β) : (Except.ok a >>= f) = f a := rfl

@[simp] lemma error_bind (e : ε) (f : α → Except ε β) : (Except.error e >>= f) = .error e := rfl

variable {x : Except ε α} {xs : List α} {f : α → Except ε β} {ys : List β}

/-- A sequence returns when both of its parts do. -/
@[simp] lemma bind_ok {b} : (x >>= f) = .ok b ↔ ∃ a, x = .ok a ∧ f a = .ok b := by
  cases x <;> simp [bind, Except.bind]

lemma bind_some {x : Option α} {f : α → Option β} {b} :
    (x >>= f) = some b ↔ ∃ a, x = some a ∧ f a = some b :=
  Option.bind_eq_some_iff

/-- A check and what follows it return when the check passes and the rest returns. -/
lemma then_ok {x} {f : Unit → Except ε β} {b} : (x >>= f) = .ok b ↔ x = .ok () ∧ f () = .ok b := by
  cases x <;> simp [bind, Except.bind]

/-- A function applied to what a part returns. -/
@[simp] lemma map_ok {f : α → β} {b} : x.map f = .ok b ↔ ∃ a, x = .ok a ∧ f a = b := by
  cases x <;> simp [Except.map]

lemma ok_of_toOption {a} (h : x.toOption = some a) : x = .ok a := by
  cases x with
  | error => cases h
  | ok =>
    cases h
    rfl

lemma mapM_congr {f g : α → Except ε β} (h : ∀ x ∈ xs, f x = g x) : xs.mapM f = xs.mapM g := by
  induction xs with
  | nil => rfl
  | cons x xs ih =>
    obtain ⟨first, rest⟩ := forall_mem_cons.mp h
    rw [mapM_cons, mapM_cons, first, ih rest]

/-- What a loop raises is raised in one of its rounds. -/
lemma exists_of_mapM_error {e} (h : xs.mapM f = .error e) : ∃ x ∈ xs, f x = .error e := by
  induction xs with
  | nil => cases h
  | cons x xs ih =>
    rw [mapM_cons] at h
    cases hx : f x with
    | error =>
      rw [hx] at h
      cases h
      exact ⟨x, mem_cons_self, hx⟩
    | ok =>
      rw [hx] at h
      cases hr : xs.mapM f with
      | ok =>
        rw [hr] at h
        cases h
      | error =>
        rw [hr] at h
        cases h
        obtain ⟨y, hy, raised⟩ := ih hr
        exact ⟨y, mem_cons_of_mem x hy, raised⟩

/-- A loop over a list in two parts returns when both parts do. -/
lemma mapM_append_ok {ys zs} :
    (xs ++ ys).mapM f = .ok zs ↔
      ∃ as bs, xs.mapM f = .ok as ∧ ys.mapM f = .ok bs ∧ zs = as ++ bs := by
  rw [mapM_append]
  simp only [bind_ok]
  constructor
  · rintro ⟨as, has, bs, hbs, h⟩
    cases h
    exact ⟨as, bs, has, hbs, rfl⟩
  · rintro ⟨as, bs, has, hbs, rfl⟩
    exact ⟨as, has, bs, hbs, rfl⟩

/-- A loop returns when all of its rounds do. -/
lemma mapM_ok : xs.mapM f = .ok ys ↔ Forall₂ (fun x y => f x = .ok y) xs ys := by
  induction xs generalizing ys with
  | nil =>
    rw [forall₂_nil_left_iff, mapM_nil]
    exact ⟨fun h => (Except.ok.inj h).symm, fun h => congrArg _ h.symm⟩
  | cons x xs ih =>
    simp only [mapM_cons, bind_ok, ih, forall₂_cons_left_iff]
    constructor
    · rintro ⟨y, hy, ys, hys, h⟩
      cases h
      exact ⟨y, ys, hy, hys, rfl⟩
    · rintro ⟨y, ys, hy, hys, rfl⟩
      exact ⟨y, hy, ys, hys, rfl⟩

lemma mapM_cons_ok {x zs} :
    (x :: xs).mapM f = .ok zs ↔ ∃ a as, f x = .ok a ∧ xs.mapM f = .ok as ∧ zs = a :: as := by
  simp only [mapM_ok, forall₂_cons_left_iff]

/-- A loop that returns has one result for each entry. -/
lemma length_of_mapM_ok (h : xs.mapM f = .ok ys) : ys.length = xs.length :=
  (mapM_ok.mp h).length_eq.symm

lemma exists_related {α β : Type*} {R : α → β → Prop} {xs ys x} (h : Forall₂ R xs ys)
    (mem : x ∈ xs) : ∃ y ∈ ys, R x y := by
  induction h with
  | nil => cases mem
  | cons first _ ih =>
    obtain rfl | mem := mem_cons.mp mem
    · exact ⟨_, mem_cons_self, first⟩
    · obtain ⟨y, hy, related⟩ := ih mem
      exact ⟨y, mem_cons_of_mem _ hy, related⟩

/-- Each result of a loop is that of an entry. -/
lemma mem_of_mapM_ok (h : xs.mapM f = .ok ys) : ∀ y ∈ ys, ∃ x ∈ xs, f x = .ok y :=
  fun _ => exists_related (mapM_ok.mp h).flip

/-- Each entry of a loop has its result. -/
lemma exists_of_mapM_ok (h : xs.mapM f = .ok ys) : ∀ x ∈ xs, ∃ y ∈ ys, f x = .ok y :=
  fun _ => exists_related (mapM_ok.mp h)

/-- The entry of a key before and after a loop that keeps the keys. -/
lemma find?_mapM_ok {κ : Type*} [DecidableEq κ] {key : α → κ} {key' : β → κ}
    (keys : ∀ {x y}, f x = .ok y → key' y = key x) (h : xs.mapM f = .ok ys) (k : κ) :
    Option.Rel (fun x y => f x = .ok y) (xs.find? (key · = k)) (ys.find? (key' · = k)) := by
  induction mapM_ok.mp h with
  | nil => exact .none
  | cons made rest ih =>
    rw [find?_cons, find?_cons, keys made]
    split
    · exact .some made
    · exact ih (mapM_ok.mpr rest)

/-- What every round of a loop keeps, the loop keeps. -/
lemma foldlM_keeps {σ : Type} {f : σ → α → Except ε σ} {P : σ → Prop}
    (step : ∀ {s x s'}, x ∈ xs → f s x = .ok s' → P s → P s') {s s'} (h : xs.foldlM f s = .ok s')
    (start : P s) : P s' := by
  induction xs generalizing s with
  | nil =>
    cases h
    exact start
  | cons x xs ih =>
    rw [foldlM_cons] at h
    obtain ⟨_, round, rest⟩ := bind_ok.mp h
    exact ih (fun mem => step (mem_cons_of_mem _ mem)) rest
      (step mem_cons_self round start)

@[simp] lemma mapError_ok {ε' : Type*} {f : ε → ε'} {a} : x.mapError f = .ok a ↔ x = .ok a := by
  cases x <;> simp [Except.mapError]

/-! ### What a computation ensures -/

/-- The computation returns only what satisfies `Q`, and raises only what satisfies `E`. -/
inductive Ensures (E : ε → Prop) (Q : α → Prop) : Except ε α → Prop where
  | ok {a : α} (h : Q a) : Ensures E Q (.ok a)
  | error {e : ε} (h : E e) : Ensures E Q (.error e)

namespace Ensures

variable {E E' : ε → Prop} {Q Q' : α → Prop} {R : β → Prop}

variable {x : Except ε α}

lemma bind (hx : Ensures E Q x) (hf : ∀ a, Q a → Ensures E R (f a)) : Ensures E R (x >>= f) := by
  cases hx with
  | ok h => exact hf _ h
  | error h => exact .error h

lemma map {f} (hx : Ensures E Q x) (hf : ∀ a, Q a → R (f a)) : Ensures E R (x.map f) := by
  cases hx with
  | ok h => exact .ok (hf _ h)
  | error h => exact .error h

lemma imp (hx : Ensures E Q x) (hE : ∀ e, E e → E' e) (hQ : ∀ a, Q a → Q' a) : Ensures E' Q' x := by
  cases hx with
  | ok h => exact .ok (hQ _ h)
  | error h => exact .error (hE _ h)

/-- What is known of the values that are returned can be used instead. -/
lemma returns (hx : Ensures E Q x) (h : ∀ a, x = .ok a → Q' a) : Ensures E Q' x := by
  cases hx with
  | ok => exact .ok (h _ rfl)
  | error raised => exact .error raised

lemma require_bind {c} [Decidable c] {e f} (he : E e)
    (hf : c → Ensures E R (f ())) : Ensures E R (require c e >>= f) := by
  unfold require
  split
  · rename_i h
    exact hf h
  · exact .error he

lemma foldlM {xs : List β} {f} (hf : ∀ a, Q a → ∀ x ∈ xs, Ensures E Q (f a x)) :
    ∀ a, Q a → Ensures E Q (xs.foldlM f a) := by
  induction xs with
  | nil => exact fun _ => .ok
  | cons x xs ih =>
    intro a ha
    rw [foldlM_cons]
    exact (hf a ha x mem_cons_self).bind (ih fun a ha y hy => hf a ha y (mem_cons_of_mem _ hy))

lemma forM {xs : List β} {f}
    (hf : ∀ x ∈ xs, Ensures E (fun _ => True) (f x)) : Ensures E (fun _ => True) (xs.forM f) := by
  induction xs with
  | nil => exact .ok trivial
  | cons x xs ih => exact (hf x mem_cons_self).bind fun _ _ => ih fun y hy => hf y (mem_cons_of_mem _ hy)

end Ensures

end ToriPy
