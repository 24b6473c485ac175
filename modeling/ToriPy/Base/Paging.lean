import ToriPy.Base.Except

/-!
# Reading page by page

A reader that asks for bounded pages and restarts behind the last entry it got. `pages` is that loop
over any paged source, and `pages_eq` its specification: over a list with strictly increasing keys
it collects exactly the entries from the starting key on, whatever the page limit.
-/

namespace ToriPy

open List

variable {ε β : Type}

/-- Read from `start`, then again from behind the last entry returned, until a page is empty.
`none` is running out of `fuel`. -/
def pages (read : Nat → Except ε (List β)) (resume : β → Nat) :
    Nat → Nat → Option (Except ε (List β))
  | 0, _ => none
  | fuel + 1, start =>
    match read start with
    | .error e => some (.error e)
    | .ok page =>
      match page.getLast? with
      | none => some (.ok [])
      | some last => (pages read resume fuel (resume last)).map (·.map (page ++ ·))

variable {key : β → Nat} {xs : List β} {read : Nat → Except ε (List β)}

/-- In a list with increasing keys, a key at or behind that of an entry is at or behind all entries
before it. -/
lemma filter_key_append (inc : xs.Pairwise (key · < key ·)) {front back last}
    (h : xs = front ++ last :: back) : xs.filter (fun r => key last + 1 ≤ key r) = back := by
  subst h
  rw [pairwise_append, pairwise_cons] at inc
  obtain ⟨-, ⟨behind, -⟩, before⟩ := inc
  have hfront : front.filter (fun r => decide (key last + 1 ≤ key r)) = [] := by
    rw [filter_eq_nil_iff]
    intro r hr
    have := before r hr last (by simp)
    simp only [decide_eq_true_eq]
    omega
  have hback : back.filter (fun r => decide (key last + 1 ≤ key r)) = back := by
    rw [filter_eq_self]
    intro r hr
    have := behind r hr
    simp only [decide_eq_true_eq]
    omega
  rw [filter_append, hfront, filter_cons_of_neg (by simp), hback, nil_append]

/-- Restarting behind the last entry of a page reads on where the page ended. -/
lemma filter_resume (inc : xs.Pairwise (key · < key ·)) {start limit last}
    (h : ((xs.filter fun r => start ≤ key r).take limit).getLast? = some last) :
    xs.filter (fun r => key last + 1 ≤ key r) = (xs.filter fun r => start ≤ key r).drop limit := by
  obtain ⟨front, hfront⟩ := getLast?_eq_some_iff.mp h
  have split : xs.filter (fun r => start ≤ key r)
      = front ++ last :: (xs.filter fun r => start ≤ key r).drop limit := by
    conv_lhs => rw [← take_append_drop limit (xs.filter fun r => start ≤ key r), hfront]
    simp
  have inc' : (xs.filter fun r => start ≤ key r).Pairwise (key · < key ·) := inc.filter _
  rw [← filter_key_append inc' split, filter_filter]
  refine filter_congr fun r _ => ?_
  have hlast : last ∈ xs.filter fun r => start ≤ key r := by rw [split]; simp
  have := (mem_filter.mp hlast).2
  simp only [decide_eq_true_eq, ← Bool.decide_and] at this ⊢
  congr 1
  simp only [eq_iff_iff]
  omega

/-- A list with increasing keys is cut in two by any key. -/
lemma filter_key_cut (inc : xs.Pairwise (key · < key ·)) (cut : Nat) :
    xs.filter (key · < cut) ++ xs.filter (cut ≤ key ·) = xs := by
  induction xs with
  | nil => rfl
  | cons x xs ih =>
    obtain ⟨behind, inc'⟩ := pairwise_cons.mp inc
    by_cases hx : key x < cut
    · rw [filter_cons_of_pos (by simpa using hx), filter_cons_of_neg (by simpa using hx),
        cons_append, ih inc']
    -- the head is past the cut, so the rest is too
    have past : xs.filter (fun r => decide (key r < cut)) = [] := by
      rw [filter_eq_nil_iff]
      intro r hr
      have := behind r hr
      simp only [decide_eq_true_eq]
      omega
    have all : xs.filter (fun r => decide (cut ≤ key r)) = xs := by
      rw [filter_eq_self]
      intro r hr
      have := behind r hr
      simp only [decide_eq_true_eq]
      omega
    rw [filter_cons_of_neg (by simpa using hx), filter_cons_of_pos (by simp; omega), past, all,
      nil_append]

/-- Raising a cut takes what lies between the old and the new one. -/
lemma filter_key_max (inc : xs.Pairwise (key · < key ·)) (cut stop : Nat) :
    xs.filter (key · < max cut stop)
      = xs.filter (key · < cut) ++ xs.filter (fun r => cut ≤ key r ∧ key r < stop) := by
  conv_lhs => rw [← filter_key_cut inc cut]
  rw [filter_append, filter_filter, filter_filter]
  congr 1
  · refine filter_congr fun r _ => ?_
    simp only [← Bool.decide_and, decide_eq_decide]
    omega
  · refine filter_congr fun r _ => ?_
    simp only [← Bool.decide_and, decide_eq_decide]
    omega

/-- Reading page by page collects every entry from the starting key on, in order. -/
theorem pages_eq {resume lo limit} (pos : 0 < limit) (inc : xs.Pairwise (key · < key ·))
    (next : ∀ r ∈ xs, resume r = key r + 1)
    (hread : ∀ start, lo ≤ start → read start = .ok ((xs.filter fun r => start ≤ key r).take limit))
    {start fuel} (hlo : lo ≤ start) (hfuel : (xs.filter fun r => start ≤ key r).length < fuel) :
    pages read resume fuel start = some (.ok (xs.filter fun r => start ≤ key r)) := by
  induction fuel generalizing start with
  | zero => omega
  | succ fuel ih =>
    rw [pages, hread start hlo]
    cases hl : ((xs.filter fun r => start ≤ key r).take limit).getLast? with
    | none =>
      -- an empty page of a positive limit: nothing is left
      have empty := getLast?_eq_none_iff.mp hl
      have : xs.filter (fun r => decide (start ≤ key r)) = [] := by
        rcases take_eq_nil_iff.mp empty with h | h
        · omega
        · exact h
      simp [this]
    | some last =>
      have rest := filter_resume inc hl
      have mem : last ∈ xs.filter fun r => start ≤ key r :=
        mem_of_mem_take (mem_of_getLast? hl)
      have hstart := (mem_filter.mp mem).2
      simp only [decide_eq_true_eq] at hstart
      have nonempty := length_pos_of_mem mem
      have shorter : (xs.filter fun r => key last + 1 ≤ key r).length < fuel := by
        rw [rest, length_drop]
        omega
      have again : resume last = key last + 1 := next last (mem_filter.mp mem).1
      simp only [hl, again, ih (by omega) shorter, rest]
      simp [Except.map]

/-- The keys of the list are 1, 2, 3, and so on. -/
def Numbered (key : β → Nat) (xs : List β) : Prop := xs.map key = List.range' 1 xs.length

lemma Numbered.getElem {i} (num : Numbered key xs) (h : i < xs.length) : key xs[i] = i + 1 := by
  have := getElem_of_eq num (i := i) (by simpa using h)
  rw [getElem_map, getElem_range'] at this
  omega

lemma Numbered.increasing (num : Numbered key xs) : xs.Pairwise (key · < key ·) := by
  rw [pairwise_iff_getElem]
  intro i j hi hj hij
  rw [num.getElem hi, num.getElem hj]
  omega

lemma Numbered.pos (num : Numbered key xs) {x} (h : x ∈ xs) : 1 ≤ key x := by
  obtain ⟨i, hi, rfl⟩ := getElem_of_mem h
  rw [num.getElem hi]
  omega

/-- A numbered list goes on with the next numbers. -/
lemma Numbered.append {ys} (num : Numbered key xs)
    (next : ys.map key = List.range' (xs.length + 1) ys.length) : Numbered key (xs ++ ys) := by
  rw [Numbered, map_append, num, next, length_append, Nat.add_comm xs.length 1,
    List.range'_append_1]

/-- What a numbered list begins with is numbered. -/
lemma Numbered.of_isPrefix {ys} (num : Numbered key ys) (h : xs <+: ys) : Numbered key xs := by
  obtain ⟨_, rfl⟩ := h
  rw [Numbered, map_append, length_append, ← List.range'_append_1] at num
  exact (append_inj num (by simp)).1

/-- Behind the first `n` entries of a numbered list come those with a larger number. -/
lemma Numbered.drop_eq (num : Numbered key xs) (n : Nat) : xs.drop n = xs.filter (n < key ·) := by
  conv_rhs => rw [← take_append_drop n xs]
  rw [filter_append]
  have front : (xs.take n).filter (n < key ·) = [] := by
    refine filter_eq_nil_iff.mpr fun x hx => ?_
    obtain ⟨i, hi, rfl⟩ := getElem_of_mem hx
    rw [length_take] at hi
    rw [getElem_take, num.getElem (by omega), decide_eq_true_eq]
    omega
  have back : (xs.drop n).filter (n < key ·) = xs.drop n := by
    refine filter_eq_self.mpr fun x hx => ?_
    obtain ⟨i, hi, rfl⟩ := getElem_of_mem hx
    rw [length_drop] at hi
    rw [getElem_drop, num.getElem (by omega), decide_eq_true_eq]
    omega
  rw [front, back, nil_append]

/-- Reading a numbered list page by page, each page from behind the number of the last entry. -/
theorem pages_numbered {limit start fuel} (pos : 0 < limit) (num : Numbered key xs)
    (hread : ∀ start, read start = .ok ((xs.drop start).take limit)) (hfuel : xs.length < fuel) :
    pages read key fuel start = some (.ok (xs.drop start)) := by
  -- the entry with number `k` is the one at index `k - 1`
  have same : ∀ n, xs.filter (fun x => n ≤ key x - 1) = xs.drop n := by
    intro n
    rw [num.drop_eq]
    refine filter_congr fun x hx => ?_
    have := num.pos hx
    simp only [decide_eq_decide]
    omega
  rw [← same start]
  refine pages_eq pos ?_ ?_ (fun n _ => ?_) (Nat.zero_le start) ?_
  · refine num.increasing.imp_of_mem fun {x y} hx hy hlt => ?_
    have := num.pos hx
    omega
  · intro x hx
    have := num.pos hx
    omega
  · rw [same, hread]
  · rw [same, length_drop]
    omega

end ToriPy
