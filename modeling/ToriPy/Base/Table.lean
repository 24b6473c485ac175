import Mathlib

/-!
# Tables of objects

The objects of a component are the entries of a list and are known by their index: a new object goes
to the end, and a change replaces an entry. The lemmas say where an entry of the changed table comes
from.

The permutations take the entry that changes out of the table, so that what is collected from all
entries can be compared before and after a change.

The last lemma is about entries that are spread out by owner: of entries whose owners differ, those
of one owner are found by their key.
-/

namespace ToriPy

open List

universe u v

variable {α : Type u} {β : Type v} {xs : List α} {x new : α} {i j : Nat} {f : α → α}

/-- An entry after one more came. -/
lemma concat_cases (h : (xs ++ [new])[i]? = some x) :
    xs[i]? = some x ∨ i = xs.length ∧ x = new := by
  rw [getElem?_append] at h
  split at h
  · exact .inl h
  · obtain ⟨hlt, rfl⟩ := List.getElem?_eq_some_iff.mp h
    rw [length_singleton] at hlt
    exact .inr ⟨by omega, by simp⟩

lemma mem_snoc : x ∈ xs ++ [new] ↔ x ∈ xs ∨ x = new := by
  rw [mem_append, mem_singleton]

/-- An entry that was there before one more came. -/
lemma concat_old (h : xs[i]? = some x) : (xs ++ [new])[i]? = some x := by
  rw [getElem?_append_left (List.getElem?_eq_some_iff.mp h).1]
  exact h

/-- An entry after one of them was replaced. -/
lemma set_cases (h : (xs.set i new)[j]? = some x) : i ≠ j ∧ xs[j]? = some x ∨ i = j ∧ x = new := by
  rw [getElem?_set] at h
  split at h
  · rename_i hi
    split at h
    · cases h
      exact .inr ⟨hi, rfl⟩
    · cases h
  · exact .inl ⟨‹_›, h⟩

/-- The entry that was replaced. -/
lemma set_new (h : xs[i]? = some x) : (xs.set i new)[i]? = some new :=
  getElem?_set_self (List.getElem?_eq_some_iff.mp h).1

/-- An entry after one of them was changed. -/
lemma modify_cases (h : (xs.modify i f)[j]? = some x) :
    i ≠ j ∧ xs[j]? = some x ∨ i = j ∧ ∃ old, xs[j]? = some old ∧ x = f old := by
  rw [getElem?_modify] at h
  obtain ⟨old, hold, rfl⟩ := Option.map_eq_some_iff.mp h
  by_cases same : i = j
  · exact .inr ⟨same, old, hold, if_pos same⟩
  · rw [if_neg same]
    exact .inl ⟨same, hold⟩

/-- The entry that was changed. -/
lemma modify_new (h : xs[i]? = some x) : (xs.modify i f)[i]? = some (f x) := by
  simp [h]

/-- The other entries. -/
lemma modify_other (ne : i ≠ j) : (xs.modify i f)[j]? = xs[j]? := by
  simp [ne]

/-- Changing an entry that is not there. -/
lemma modify_none (h : xs[i]? = none) : xs.modify i f = xs :=
  modify_eq_self (List.getElem?_eq_none_iff.mp h)

/-- Every entry is still there. -/
lemma modify_kept (h : xs[j]? = some x) : ∃ new, (xs.modify i f)[j]? = some new :=
  ⟨_, (getElem?_modify f i xs j).trans (congrArg _ h)⟩

section
variable {R : α → β → Prop} {a : Option α} {b : Option β}

/-- Two entries that are related unless both are absent, seen from the second. -/
lemma rel_before (h : Option.Rel R a b) {y} (there : b = some y) : ∃ x, a = some x ∧ R x y := by
  cases h with
  | none => cases there
  | some related =>
    cases there
    exact ⟨_, rfl, related⟩

lemma rel_after (h : Option.Rel R a b) {x} (there : a = some x) : ∃ y, b = some y ∧ R x y := by
  cases h with
  | none => cases there
  | some related =>
    cases there
    exact ⟨_, rfl, related⟩

lemma rel_isSome (h : Option.Rel R a b) : a.isSome = b.isSome := by
  cases h <;> rfl

end

lemma rel_self {R : α → α → Prop} (refl : ∀ x, R x x) (a : Option α) : Option.Rel R a a := by
  cases a with
  | none => exact .none
  | some x => exact .some (refl x)

/-- The entries before and after one of them was changed. -/
lemma rel_modify {R : Nat → α → α → Prop} (refl : ∀ {j} x, R j x x)
    (changed : ∀ {x}, xs[i]? = some x → R i x (f x)) (j : Nat) :
    Option.Rel (R j) xs[j]? (xs.modify i f)[j]? := by
  by_cases same : i = j
  · subst same
    cases h : xs[i]? with
    | none =>
      rw [modify_none h, h]
      exact .none
    | some =>
      rw [modify_new h]
      exact .some (changed h)
  · rw [modify_other same]
    exact rel_self refl _

/-- An entry and the others. -/
lemma perm_eraseIdx (h : xs[i]? = some x) : xs.Perm (x :: xs.eraseIdx i) := by
  obtain ⟨lt, rfl⟩ := List.getElem?_eq_some_iff.mp h
  exact (getElem_cons_eraseIdx_perm lt).symm

/-- The changed entry and the others. -/
lemma perm_modify (h : xs[i]? = some x) : (xs.modify i f).Perm (f x :: xs.eraseIdx i) := by
  have := perm_eraseIdx (modify_new (f := f) h)
  rwa [eraseIdx_modify_of_eq] at this

/-- The first entry of a kind and the others. -/
lemma perm_eraseP {p} (h : xs.find? p = some x) : xs.Perm (x :: xs.eraseP p) := by
  induction xs with
  | nil => cases h
  | cons first xs ih =>
    by_cases here : p first = true
    · rw [find?_cons_of_pos here] at h
      cases h
      rw [eraseP_cons_of_pos here]
    · rw [find?_cons_of_neg here] at h
      rw [eraseP_cons_of_neg here]
      exact ((ih h).cons first).trans (.swap x first _)

/-- What is seen of the entries when one of them is changed. -/
lemma map_modify {g : α → β} {f' : β → β} (h : ∀ x, g (f x) = f' (g x)) :
    (xs.modify i f).map g = (xs.map g).modify i f' := by
  apply ext_getElem?
  intro j
  rw [getElem?_map, getElem?_modify, getElem?_modify, getElem?_map]
  cases xs[j]? with
  | none => rfl
  | some =>
    by_cases same : i = j
    · simp [same, h]
    · simp [same]

/-- A change that is not seen. -/
lemma map_modify_same {g : α → β} (h : ∀ x, g (f x) = g x) : (xs.modify i f).map g = xs.map g := by
  have seen : (xs.modify i f).map g = (xs.map g).modify i id := map_modify h
  rw [seen, modify_id]

/-- Of lists whose entries carry the key of their owner, the entries with one key are those of its
owner. -/
lemma filter_flatMap_key {κ : Type*} [DecidableEq κ] {owner : α → κ} {key : β → κ} {f : α → List β}
    (own : ∀ x ∈ xs, ∀ y ∈ f x, key y = owner x) (nodup : (xs.map owner).Nodup) (h : x ∈ xs) :
    (xs.flatMap f).filter (key · = owner x) = f x := by
  induction xs with
  | nil => cases h
  | cons x' xs ih =>
    obtain ⟨notin, nodup⟩ := nodup_cons.mp nodup
    have own' : ∀ z ∈ xs, ∀ y ∈ f z, key y = owner z := fun z hz =>
      own z (mem_cons_of_mem _ hz)
    rw [flatMap_cons, filter_append]
    obtain rfl | h := mem_cons.mp h
    · have all : (f x).filter (key · = owner x) = f x :=
        filter_eq_self.mpr fun y hy => decide_eq_true (own x mem_cons_self y hy)
      have none : (xs.flatMap f).filter (key · = owner x) = [] := by
        refine filter_eq_nil_iff.mpr fun y hy => ?_
        obtain ⟨z, hz, hy⟩ := mem_flatMap.mp hy
        rw [decide_eq_true_eq, own' z hz y hy]
        intro same
        exact notin (same ▸ mem_map_of_mem hz)
      rw [all, none, append_nil]
    · have none : (f x').filter (key · = owner x) = [] := by
        refine filter_eq_nil_iff.mpr fun y hy => ?_
        rw [decide_eq_true_eq, own x' mem_cons_self y hy]
        intro same
        exact notin (same ▸ mem_map_of_mem h)
      rw [none, nil_append]
      exact ih own' nodup h

/-- In a table where every key has one entry, a lookup finds what the table has. -/
lemma lookup_eq_some_iff_mem {κ β : Type*} [BEq κ] [LawfulBEq κ] {entries : List (κ × β)}
    (keys : (entries.map Prod.fst).Nodup) {key value} :
    entries.lookup key = some value ↔ (key, value) ∈ entries := by
  rw [lookup_eq_some_iff]
  constructor
  · rintro ⟨before, after, rfl, -⟩
    exact mem_append_right _ mem_cons_self
  intro mem
  obtain ⟨before, after, rfl⟩ := append_of_mem mem
  refine ⟨before, after, rfl, fun entry earlier => bne_iff_ne.mpr fun same => ?_⟩
  rw [map_append, map_cons] at keys
  -- An earlier entry with the key would be the second one.
  have disjoint := disjoint_of_nodup_append keys
  exact disjoint (mem_map_of_mem earlier) (same ▸ mem_cons_self)

end ToriPy
