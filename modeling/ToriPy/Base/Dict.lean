import Mathlib

/-!
# Dictionaries

A Python `dict` is an `AList` whose value type does not depend on the key. `AList` already carries
the proof that no key occurs twice, so only the lookup rules are restated here, as conditionals on
the key that `simp` and `split` can work with, together with the size of a dictionary (`len(d)`).
-/

namespace ToriPy

open List

universe u v

/-- A dictionary: finitely many keys with one value each. -/
abbrev Dict (α : Type u) (β : Type v) := AList (fun _ : α => β)

namespace Dict

variable {α : Type u} {β : Type v}

/-- The number of keys (`len(d)`). -/
def size (d : Dict α β) : Nat := d.keys.length

/-- The values (`d.values()`). -/
def values (d : Dict α β) : List β := d.entries.map (·.2)

variable [DecidableEq α]

/-- Equality by the entries, which evaluates. -/
instance [DecidableEq β] : DecidableEq (Dict α β) := fun d d' =>
  decidable_of_iff (d.entries = d'.entries) AList.ext_iff.symm

/-- Lookup after an assignment `d[k] = v`. -/
lemma lookup_insert_ite (d : Dict α β) (k k' : α) (v : β) :
    AList.lookup k' (AList.insert k v d) = if k' = k then some v else AList.lookup k' d := by
  split
  · rename_i h
    subst h
    exact AList.lookup_insert d
  · rename_i h
    exact AList.lookup_insert_ne h

/-- Lookup after a deletion `del d[k]`. -/
lemma lookup_erase_ite (d : Dict α β) (k k' : α) :
    AList.lookup k' (AList.erase k d) = if k' = k then none else AList.lookup k' d := by
  split
  · rename_i h
    subst h
    exact AList.lookup_erase k' d
  · rename_i h
    exact AList.lookup_erase_ne h

variable {d : Dict α β}

/-- What is found after an assignment. -/
lemma insert_cases {k k' v v'} (h : (AList.insert k v d).lookup k' = some v') :
    k' = k ∧ v' = v ∨ k' ≠ k ∧ d.lookup k' = some v' := by
  rw [lookup_insert_ite] at h
  split at h
  · exact .inl ⟨‹_›, (Option.some.inj h).symm⟩
  · exact .inr ⟨‹_›, h⟩

/-- What is found after a deletion. -/
lemma erase_some {k k' v'} (h : (AList.erase k d).lookup k' = some v') :
    k' ≠ k ∧ d.lookup k' = some v' := by
  rw [lookup_erase_ite] at h
  split at h
  · cases h
  · exact ⟨‹_›, h⟩

/-- A key with a value is among the keys. -/
lemma mem_keys_of_lookup {k v} (h : d.lookup k = some v) : k ∈ d.keys := by
  rw [← AList.mem_keys, ← AList.lookup_isSome, h]
  rfl

/-- A key without a value is not among the keys. -/
lemma not_mem_keys_of_lookup {k} (h : d.lookup k = none) : k ∉ d.keys := by
  rw [← AList.mem_keys]
  exact AList.lookup_eq_none.mp h

/-- The values are what the keys look up. -/
lemma mem_values {v} : v ∈ values d ↔ ∃ k, d.lookup k = some v := by
  simp only [values, mem_map, AList.lookup, ← Option.mem_def, mem_dlookup_iff d.nodupKeys]
  constructor
  · rintro ⟨⟨k, v⟩, mem, rfl⟩
    exact ⟨k, mem⟩
  · rintro ⟨k, mem⟩
    exact ⟨⟨k, v⟩, mem, rfl⟩

/-- Assigning to a present key keeps the size. -/
lemma size_insert_of_some {k v w} (h : d.lookup k = some w) :
    size (AList.insert k v d) = size d := by
  have mem := mem_keys_of_lookup h
  have pos := length_pos_of_mem mem
  simp only [size, AList.keys_insert, length_cons, length_erase_of_mem mem]
  omega

/-- Assigning to an absent key adds one. -/
lemma size_insert_of_none {k v} (h : d.lookup k = none) :
    size (AList.insert k v d) = size d + 1 := by
  simp only [size, AList.keys_insert, length_cons, erase_of_not_mem (not_mem_keys_of_lookup h)]

/-- Deleting a key before assigning to it does not change the size. -/
lemma size_insert_erase (d : Dict α β) (k : α) (v : β) :
    size (AList.insert k v (AList.erase k d)) = size (AList.insert k v d) := by
  simp only [size, AList.keys_insert, AList.keys_erase, length_cons]
  congr 1
  rw [erase_of_not_mem (List.Nodup.not_mem_erase d.keys_nodup)]

/-- Deleting never adds a key. -/
lemma size_erase_le (d : Dict α β) (k : α) : size (AList.erase k d) ≤ size d := by
  simp only [size, AList.keys_erase]
  exact length_erase_le

section
variable {γ : Type v}

/-- Entries grouped by key in their order, `groups.setdefault(key(x), []).append(x)` for each. -/
def group (key : γ → α) (xs : List γ) : Dict α (List γ) :=
  xs.foldl (fun groups x => groups.insert (key x) ((groups.lookup (key x)).getD [] ++ [x])) ∅

/-- A group is the sublist of the entries with its key. -/
lemma lookup_group (key : γ → α) (xs : List γ) (k : α) :
    ((group key xs).lookup k).getD [] = xs.filter (key · = k) := by
  induction xs using List.reverseRecOn with
  | nil => rfl
  | append_singleton xs x ih =>
    rw [group, foldl_append, foldl_cons, foldl_nil, lookup_insert_ite]
    split
    · rename_i same
      subst same
      rw [Option.getD_some, filter_append, ← ih]
      simp [group]
    · rename_i other
      rw [filter_append, ← ih]
      simp [group, Ne.symm other]

/-- Assign to each key of `more` what `f` makes of its old and its new value
(`d[k] = f(d.get(k), v)` for each item of `more`). -/
def mergeWith (f : Option β → γ → β) (d : Dict α β) (more : Dict α γ) : Dict α β :=
  more.entries.foldl (fun d item => d.insert item.1 (f (d.lookup item.1) item.2)) d

lemma lookup_mergeWith (f : Option β → γ → β) (d : Dict α β) (more : Dict α γ) (k : α) :
    (mergeWith f d more).lookup k =
      match more.lookup k with
      | none => d.lookup k
      | some v => some (f (d.lookup k) v) := by
  obtain ⟨items, nodup⟩ := more
  change (items.foldl _ d).lookup k = match items.dlookup k with
    | none => d.lookup k
    | some v => some (f (d.lookup k) v)
  induction items generalizing d with
  | nil => rfl
  | cons item items ih =>
    obtain ⟨k₀, v⟩ := item
    obtain ⟨fresh, nodup'⟩ := nodupKeys_cons.mp nodup
    rw [foldl_cons, ih _ nodup']
    by_cases same : k = k₀
    · subst same
      rw [dlookup_cons_eq, dlookup_eq_none.mpr fresh]
      exact AList.lookup_insert d
    · have skip : List.dlookup k (⟨k₀, v⟩ :: items) = List.dlookup k items :=
        dlookup_cons_ne items _ same
      rw [skip, lookup_insert_ite, if_neg same]

end

end Dict

/-! ### Keys -/

section
variable {α : Type u} [DecidableEq α]

/-- `tuple(dict.fromkeys(xs))`: the first occurrence of every element. -/
def fromKeys (xs : List α) : List α := xs.reverse.dedup.reverse

end

end ToriPy
