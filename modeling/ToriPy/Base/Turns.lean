import Mathlib

/-!
# Rotations

A rotation has a fixed list of members and a cursor that every round advances, modulo the number of
members. A round may serve the member at the cursor or nobody. The members that are served one after
the other are then determined by the numbers of the rounds that served somebody (`turns`): any `n` of
them in a row differ just if their turns differ modulo `n`, which is so when no round serves nobody.
-/

namespace ToriPy

open List

universe u

variable {α : Type u}

/-- Any `n` entries in a row are different. -/
def Fair (n : Nat) (xs : List α) : Prop := ∀ i, ((xs.drop i).take n).Nodup

lemma fair_zero (xs : List α) : Fair 0 xs := by
  intro i
  rw [take_zero]
  exact nodup_nil

/-- The numbers of the rounds that served somebody, where the first round has number `k`. -/
def turns : Nat → List (Option α) → List Nat
  | _, [] => []
  | k, none :: rounds => turns (k + 1) rounds
  | k, some _ :: rounds => k :: turns (k + 1) rounds

/-- Each round serves the member at the cursor or nobody, and the cursor advances. -/
def Rotates (members : List α) (cursor : Nat) (rounds : List (Option α)) : Prop :=
  ∀ k x, rounds[k]? = some (some x) → members[(cursor + k) % members.length]? = some x

variable {members : List α} {cursor : Nat} {rounds : List (Option α)}

lemma Rotates.nil : Rotates members cursor [] := by
  intro k x h
  simp at h

lemma Rotates.cons {round} (now : ∀ x ∈ round, members[cursor % members.length]? = some x)
    (later : Rotates members ((cursor + 1) % members.length) rounds) :
    Rotates members cursor (round :: rounds) := by
  intro k x h
  cases k with
  | zero => exact now x (Option.some_inj.mp h)
  | succ k =>
    rw [← later k x h, Nat.mod_add_mod]
    congr 2
    omega

/-- The served members by the numbers of their rounds. -/
lemma reduceOption_eq_map_turns {g k} (h : ∀ j x, rounds[j]? = some (some x) → g (k + j) = x) :
    rounds.reduceOption = (turns k rounds).map g := by
  induction rounds generalizing k with
  | nil => rfl
  | cons round rounds ih =>
    have later : ∀ j x, rounds[j]? = some (some x) → g (k + 1 + j) = x := by
      intro j x hx
      rw [Nat.add_assoc, Nat.add_comm 1 j]
      exact h (j + 1) x hx
    cases round with
    | none =>
      rw [reduceOption_cons_of_none]
      exact ih later
    | some x =>
      rw [reduceOption_cons_of_some, ih later]
      have here : g k = x := h 0 x rfl
      rw [turns, map_cons, here]

/-- A fair list stays fair under a map that tells its entries apart, and only then. -/
lemma fair_map_iff {β : Type*} {n : Nat} {xs : List α} {f : α → β}
    (inj : ∀ x ∈ xs, ∀ y ∈ xs, f x = f y → x = y) : Fair n (xs.map f) ↔ Fair n xs := by
  refine forall_congr' fun i => ?_
  rw [← map_drop, ← map_take]
  have sub : ∀ x ∈ (xs.drop i).take n, x ∈ xs := fun x mem =>
    mem_of_mem_drop (mem_of_mem_take mem)
  constructor
  · exact List.Nodup.of_map f
  · exact fun nodup => nodup.map_on fun x hx y hy => inj x (sub x hx) y (sub y hy)

/-- The entries of a list without duplicates, read with an offset, modulo its length. -/
lemma eq_of_offset (nodup : members.Nodup) {r s} (hr : r < members.length) (hs : s < members.length)
    (h : members[(cursor + r) % members.length]? = members[(cursor + s) % members.length]?) :
    r = s := by
  have pos : 0 < members.length := Nat.zero_lt_of_lt hr
  have same : (cursor + r) % members.length = (cursor + s) % members.length :=
    (getElem?_inj (Nat.mod_lt _ pos) nodup).mp h
  have mod : r % members.length = s % members.length :=
    Nat.ModEq.add_left_cancel' cursor same
  rwa [Nat.mod_eq_of_lt hr, Nat.mod_eq_of_lt hs] at mod

/-- The members that a rotation serves are fair just if the turns are, modulo their number. -/
lemma Rotates.fair_iff (rotates : Rotates members cursor rounds) (nodup : members.Nodup) :
    Fair members.length rounds.reduceOption ↔
      Fair members.length ((turns 0 rounds).map (· % members.length)) := by
  cases h : members with
  | nil => exact iff_of_true (fair_zero _) (fair_zero _)
  | cons first =>
    rw [← h]
    have pos : 0 < members.length := by
      rw [h]
      exact Nat.succ_pos _
    -- The member of a round depends on its number modulo the number of members.
    let member : Nat → α := fun r => (members[(cursor + r) % members.length]?).getD first
    have served : rounds.reduceOption = (turns 0 rounds).map member := by
      apply reduceOption_eq_map_turns
      intro k x hx
      change (members[(cursor + (0 + k)) % members.length]?).getD first = x
      rw [Nat.zero_add, rotates k x hx]
      rfl
    have periodic : (turns 0 rounds).map member =
        ((turns 0 rounds).map (· % members.length)).map member := by
      rw [map_map]
      apply map_congr_left
      intro k _
      change _ = (members[(cursor + k % members.length) % members.length]?).getD first
      rw [Nat.add_mod_mod]
    have bounded : ∀ r ∈ (turns 0 rounds).map (· % members.length), r < members.length := by
      intro r mem
      obtain ⟨k, -, rfl⟩ := mem_map.mp mem
      exact Nat.mod_lt k pos
    rw [served, periodic]
    apply fair_map_iff
    intro r hr s hs same
    have present : ∀ t, ∃ x, members[(cursor + t) % members.length]? = some x := fun t =>
      ⟨_, getElem?_eq_getElem (Nat.mod_lt _ pos)⟩
    obtain ⟨x, hx⟩ := present r
    obtain ⟨y, hy⟩ := present s
    change (members[(cursor + r) % members.length]?).getD first =
      (members[(cursor + s) % members.length]?).getD first at same
    rw [hx, hy] at same
    exact eq_of_offset nodup (bounded r hr) (bounded s hs)
      (hx.trans ((congrArg some same).trans hy.symm))

end ToriPy
