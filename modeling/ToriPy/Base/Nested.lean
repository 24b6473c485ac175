import Mathlib

/-!
# Nested mappings

Mappings of names to texts and to further mappings, as settings and documents are, with reading and
assignment at a path of names. An assignment makes the mappings on its way and takes the place of
what is no mapping there. It determines what is read at its path (`get_set_self`) and leaves alone
every path that neither starts with it nor starts it (`get_set_other`).
-/

namespace ToriPy

open List

/-- A text, or a mapping of names. -/
inductive Nested where
  | text (value : String)
  | mapping (entries : List (String × Nested))

abbrev Mapping := List (String × Nested)

namespace Mapping

/-- `mapping[key] = value`. -/
def assign : Mapping → String → Nested → Mapping
  | [], key, value => [(key, value)]
  | entry :: rest, key, value =>
    if entry.1 = key then (key, value) :: rest else entry :: assign rest key value

/-- The mapping under a key, or an empty one. -/
def child (mapping : Mapping) (key : String) : Mapping :=
  match mapping.lookup key with
  | some (.mapping entries) => entries
  | _ => []

/-- What is at a path. -/
def get : Mapping → List String → Option Nested
  | _, [] => none
  | mapping, [key] => mapping.lookup key
  | mapping, key :: next :: rest => get (mapping.child key) (next :: rest)

/-- Assignment at a path. -/
def set : Mapping → List String → Nested → Mapping
  | mapping, [], _ => mapping
  | mapping, [key], value => mapping.assign key value
  | mapping, key :: next :: rest, value =>
    mapping.assign key (.mapping (set (mapping.child key) (next :: rest) value))

variable {mapping : Mapping} {path path' : List String} {value : Nested}

lemma lookup_cons_ite (entry : String × Nested) (rest : Mapping) (key : String) :
    List.lookup key (entry :: rest) = if key = entry.1 then some entry.2 else rest.lookup key := by
  rw [lookup_cons]
  by_cases here : key = entry.1
  · rw [if_pos here, beq_iff_eq.mpr here]
  · rw [if_neg here, beq_eq_false_iff_ne.mpr here]

lemma lookup_assign (mapping : Mapping) (key key' : String) (value : Nested) :
    (mapping.assign key value).lookup key' =
      if key' = key then some value else mapping.lookup key' := by
  induction mapping with
  | nil => rw [assign, lookup_cons_ite]
  | cons entry rest ih =>
    rw [assign]
    split
    · rename_i same
      subst same
      rw [lookup_cons_ite, lookup_cons_ite]
      split <;> rfl
    · rename_i other
      rw [lookup_cons_ite, lookup_cons_ite, ih]
      split
      · rename_i there
        rw [if_neg (there ▸ other)]
      · rfl

lemma child_assign (mapping : Mapping) (key key' : String) (entries : Mapping) :
    (mapping.assign key (.mapping entries)).child key' =
      if key' = key then entries else mapping.child key' := by
  unfold child
  rw [lookup_assign]
  split
  · rename_i h
    split at h
    · rename_i here
      cases h
      rw [if_pos here]
    · rename_i other
      rw [if_neg other, h]
  · rename_i h
    split at h
    · exact absurd rfl (h entries)
    rename_i other
    rw [if_neg other]
    split
    · rename_i found
      exact absurd found (h _)
    · rfl

/-- An assignment determines what is read at its path. -/
lemma get_nil (path : List String) : get [] path = none := by
  induction path with
  | nil => rfl
  | cons key rest ih =>
    cases rest with
    | nil => rfl
    | cons => exact ih

lemma get_set_self (ne : path ≠ []) : (mapping.set path value).get path = some value := by
  induction path generalizing mapping with
  | nil => exact absurd rfl ne
  | cons key rest ih =>
    cases rest with
    | nil => rw [set, get, lookup_assign, if_pos rfl]
    | cons =>
      rw [set, get, child_assign, if_pos rfl]
      exact ih (cons_ne_nil _ _)

/-- An assignment leaves alone what is read at a path that parts from its own. -/
lemma get_set_other (h : ¬ path <+: path') (h' : ¬ path' <+: path) :
    (mapping.set path value).get path' = mapping.get path' := by
  induction path generalizing mapping path' with
  | nil => exact absurd nil_prefix h
  | cons key rest ih =>
    cases path' with
    | nil => exact absurd nil_prefix h'
    | cons key' rest' =>
      by_cases same : key' = key
      · subst same
        rw [cons_prefix_cons] at h h'
        have apart : ¬ rest <+: rest' := fun p => h ⟨rfl, p⟩
        have apart' : ¬ rest' <+: rest := fun p => h' ⟨rfl, p⟩
        cases rest with
        | nil => exact absurd nil_prefix apart
        | cons =>
          cases rest' with
          | nil => exact absurd nil_prefix apart'
          | cons =>
            rw [set, get, get, child_assign, if_pos rfl]
            exact ih apart apart'
      · have top : (mapping.set (key :: rest) value).lookup key' = mapping.lookup key' := by
          cases rest with
          | nil | cons => rw [set, lookup_assign, if_neg same]
        cases rest' with
        | nil => exact top
        | cons =>
          rw [get, get, child, child, top]

/-- There is nothing below a text. -/
lemma get_below_text {text rest} (h : mapping.get path = some (.text text))
    (ne : rest ≠ []) : mapping.get (path ++ rest) = none := by
  induction path generalizing mapping with
  | nil => cases h
  | cons key path ih =>
    cases path with
    | nil =>
      obtain ⟨next, _, rfl⟩ := exists_cons_of_ne_nil ne
      rw [get] at h
      have empty : ∀ path, get [] path = none := by
        intro path
        induction path with
        | nil => rfl
        | cons key path ih =>
          cases path with
          | nil => rfl
          | cons => exact ih
      rw [singleton_append, get, child, h]
      exact empty _
    | cons => exact ih h

/-- A text that is read behind the assignment of a text was assigned, or was there before. -/
lemma get_set_text {text text'}
    (h : (mapping.set path (.text text)).get path' = some (.text text')) :
    path' = path ∧ text' = text ∨ mapping.get path' = some (.text text') := by
  by_cases before : path <+: path'
  · obtain ⟨rest, rfl⟩ := before
    by_cases ne : path = []
    · subst ne
      exact .inr h
    have here : (mapping.set path (.text text)).get path = some (.text text) := get_set_self ne
    by_cases last : rest = []
    · subst last
      rw [append_nil, here] at h
      cases h
      exact .inl ⟨append_nil _, rfl⟩
    · rw [get_below_text here last] at h
      cases h
  · by_cases behind : path' <+: path
    · obtain ⟨rest, rfl⟩ := behind
      have last : rest ≠ [] := by
        rintro rfl
        rw [append_nil] at before
        exact before prefix_rfl
      have ne : path' ++ rest ≠ [] := append_ne_nil_of_right_ne_nil _ last
      have below := get_below_text h last
      rw [get_set_self ne] at below
      cases below
    · exact .inr ((get_set_other before behind).symm.trans h)

end Mapping

end ToriPy
