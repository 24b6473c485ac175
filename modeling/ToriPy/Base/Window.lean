import Mathlib

/-!
# Windows of a growing list

A list with strictly increasing keys that only grows at its end, and a reader whose position in it
only moves forward. `window key xs start stop` is what the reader has passed on its way from `start`
to `stop`; `First key xs pos x` says that `x` is the entry it has to take next. Passing that entry
adds exactly it to the window (`window_advance`), entries behind the position add nothing
(`window_append`), and an entry stays the next one while the list grows and other readers move the
position.
-/

namespace ToriPy

open List

variable {β : Type} {key : β → Nat} {xs ys : List β} {x : β} {start pos stop : Nat}

/-- The entries from `start` on and before `stop`. -/
def window (key : β → Nat) (xs : List β) (start stop : Nat) : List β :=
  xs.filter fun x => start ≤ key x ∧ key x < stop

lemma window_self (key : β → Nat) (xs : List β) (start : Nat) : window key xs start start = [] := by
  refine filter_eq_nil_iff.mpr fun x _ => ?_
  simp only [decide_eq_true_eq]
  omega

/-- Entries behind the window do not change it. -/
lemma window_append (h : ∀ y ∈ ys, start ≤ key y → stop ≤ key y) :
    window key (xs ++ ys) start stop = window key xs start stop := by
  have none : ys.filter (fun y => start ≤ key y ∧ key y < stop) = [] := by
    refine filter_eq_nil_iff.mpr fun y hy => ?_
    have := h y hy
    simp only [decide_eq_true_eq]
    omega
  rw [window, filter_append, none, append_nil]
  rfl

/-- An entry with no other between it and the position. -/
structure First (key : β → Nat) (xs : List β) (pos : Nat) (x : β) : Prop where
  mem : x ∈ xs
  least : ∀ y ∈ xs, pos ≤ key y → key x ≤ key y

/-- The position may come closer to the entry, or pass it. -/
lemma First.mono (first : First key xs start x) (le : start ≤ pos) : First key xs pos x where
  mem := first.mem
  least := fun y hy hpos => first.least y hy (le.trans hpos)

lemma First.append (first : First key xs pos x) (behind : ∀ y ∈ ys, key x ≤ key y) :
    First key (xs ++ ys) pos x where
  mem := mem_append_left ys first.mem
  least := by
    intro y hy hpos
    obtain old | new := mem_append.mp hy
    · exact first.least y old hpos
    · exact behind y new

/-- A search finds the first of the entries it looks for. -/
lemma le_of_find? {p} (inc : xs.Pairwise (key · < key ·)) (h : xs.find? p = some x) :
    ∀ y ∈ xs, p y = true → key x ≤ key y := by
  obtain ⟨-, _, _, rfl, skipped⟩ := find?_eq_some_iff_append.mp h
  intro y hy hp
  obtain before | rfl | after := by simpa using hy
  · have := skipped y before
    simp only [hp, Bool.not_true, Bool.false_eq_true] at this
  · exact le_rfl
  · exact ((pairwise_cons.mp (pairwise_append.mp inc).2.1).1 y after).le

/-- A search through what is left of the list finds the next entry, if nothing at the position or
behind it was taken away. -/
lemma First.of_find? {cut} (inc : xs.Pairwise (key · < key ·)) (kept : cut ≤ pos)
    (h : (xs.filter (cut ≤ key ·)).find? (fun y => pos ≤ key y) = some x) : First key xs pos x where
  mem := (mem_filter.mp (mem_of_find?_eq_some h)).1
  least := by
    intro y hy hpos
    refine le_of_find? (inc.filter _) h y ?_ (decide_eq_true hpos)
    exact mem_filter.mpr ⟨hy, decide_eq_true (kept.trans hpos)⟩

/-- Passing the next entry adds it to the window. -/
lemma window_advance (inc : xs.Pairwise (key · < key ·)) (first : First key xs pos x)
    (from_ : start ≤ pos) (ahead : pos ≤ key x) :
    window key xs start (key x + 1) = window key xs start pos ++ [x] := by
  obtain ⟨front, back, rfl⟩ := append_of_mem first.mem
  obtain ⟨-, tail, before⟩ := pairwise_append.mp inc
  have behind := (pairwise_cons.mp tail).1
  -- the entries in front of `x` lie before the position, those at its back beyond both windows
  have passed : ∀ y ∈ front, key y < pos := by
    intro y hy
    refine Nat.lt_of_not_le fun hpos => ?_
    exact absurd (first.least y (mem_append_left _ hy) hpos)
      (before y hy x mem_cons_self).not_ge
  have none : ∀ stop ≤ key x + 1, window key back start stop = [] := by
    intro stop hstop
    refine filter_eq_nil_iff.mpr fun y hy => ?_
    have := behind y hy
    simp only [decide_eq_true_eq]
    omega
  have same : window key front start (key x + 1) = window key front start pos := by
    refine filter_congr fun y hy => ?_
    have := passed y hy
    simp only [decide_eq_decide]
    omega
  have cut : ∀ stop, window key (front ++ x :: back) start stop =
      window key front start stop ++
        if start ≤ key x ∧ key x < stop then x :: window key back start stop
        else window key back start stop := by
    intro stop
    simp only [window, filter_append, filter_cons, decide_eq_true_eq]
  rw [cut, cut, same, none _ le_rfl, none pos (by omega), if_pos (by omega), if_neg (by omega),
    append_nil]

end ToriPy
