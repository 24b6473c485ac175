import ToriPy.Base.Except
import ToriPy.Base.Values

/-!
# JSON values

The values that a JSON text stands for, with the members of an object in their order. A property of
a value that is checked at every node, with the depth of the node, is an `All`; `Json.rec_children`
is the induction over the nodes. `sorted` orders the members by their names at every depth, which is
the canonical form of a value: two values are equal as Python dictionaries and lists when their
canonical forms are the same.
-/

namespace ToriPy

open List

/-- A Python `float`, by the bits of the IEEE double. -/
abbrev Double := BitVec 64

/-- `math.isfinite`: the exponent is not the one of infinities and NaNs. -/
def Double.isFinite (x : Double) : Bool := x.toNat / 2 ^ 52 % 2 ^ 11 ≠ 2047

/-- JSON values. -/
inductive Json where
  | null
  | bool (value : Bool)
  | int (value : Int)
  | float (value : Double)
  | str (value : String)
  | array (items : List Json)
  | object (members : List (String × Json))

namespace Json

/-! ### Equality -/

mutual

/-- Structural equality. -/
def beq : Json → Json → Bool
  | null, null => true
  | bool b, bool b' => b = b'
  | int n, int n' => n = n'
  | float x, float x' => x = x'
  | str s, str s' => s = s'
  | array items, array items' => beqItems items items'
  | object members, object members' => beqMembers members members'
  | _, _ => false

def beqItems : List Json → List Json → Bool
  | [], [] => true
  | j :: js, j' :: js' => beq j j' && beqItems js js'
  | _, _ => false

def beqMembers : List (String × Json) → List (String × Json) → Bool
  | [], [] => true
  | (k, j) :: ms, (k', j') :: ms' => k = k' && beq j j' && beqMembers ms ms'
  | _, _ => false

end

mutual

lemma eq_of_beq : ∀ {j j'}, beq j j' = true → j = j'
  | null, j', h => by
    cases j' <;> simp_all [beq]
  | bool b, j', h => by
    cases j' <;> simp_all [beq]
  | int n, j', h => by
    cases j' <;> simp_all [beq]
  | float x, j', h => by
    cases j' <;> simp_all [beq]
  | str s, j', h => by
    cases j' <;> simp_all [beq]
  | array items, j', h => by
    cases j' with
    | array items' => rw [eq_of_beqItems h]
    | _ => simp [beq] at h
  | object members, j', h => by
    cases j' with
    | object members' => rw [eq_of_beqMembers h]
    | _ => simp [beq] at h

lemma eq_of_beqItems : ∀ {js js'}, beqItems js js' = true → js = js'
  | [], [], _ => rfl
  | [], _ :: _, h => by simp [beqItems] at h
  | _ :: _, [], h => by simp [beqItems] at h
  | j :: js, j' :: js', h => by
    simp only [beqItems, Bool.and_eq_true] at h
    rw [eq_of_beq h.1, eq_of_beqItems h.2]

lemma eq_of_beqMembers : ∀ {ms ms'}, beqMembers ms ms' = true → ms = ms'
  | [], [], _ => rfl
  | [], _ :: _, h => by simp [beqMembers] at h
  | _ :: _, [], h => by simp [beqMembers] at h
  | (k, j) :: ms, (k', j') :: ms', h => by
    simp only [beqMembers, Bool.and_eq_true, decide_eq_true_eq] at h
    rw [h.1.1, eq_of_beq h.1.2, eq_of_beqMembers h.2]

end

mutual

lemma beq_self : ∀ j : Json, beq j j = true
  | null => rfl
  | bool b => by simp [beq]
  | int n => by simp [beq]
  | float x => by simp [beq]
  | str s => by simp [beq]
  | array items => beqItems_self items
  | object members => beqMembers_self members

lemma beqItems_self : ∀ js : List Json, beqItems js js = true
  | [] => rfl
  | j :: js => by rw [beqItems, beq_self j, beqItems_self js]; rfl

lemma beqMembers_self : ∀ ms : List (String × Json), beqMembers ms ms = true
  | [] => rfl
  | (k, j) :: ms => by rw [beqMembers, beq_self j, beqMembers_self ms]; simp

end

instance : DecidableEq Json := fun j j' =>
  decidable_of_iff (beq j j' = true) ⟨eq_of_beq, fun h => h ▸ beq_self j⟩

/-! ### Nodes -/

/-- The values directly inside a value. -/
def children : Json → List Json
  | array items => items
  | object members => members.map Prod.snd
  | _ => []

/-- The names of the members of an object. -/
def names : Json → List String
  | object members => members.map Prod.fst
  | _ => []

section
variable {motive : Json → Prop}

mutual

/-- Induction over the nodes. -/
lemma rec_children (node : ∀ j, (∀ c ∈ j.children, motive c) → motive j) : ∀ j, motive j
  | null => node _ nofun
  | bool _ => node _ nofun
  | int _ => node _ nofun
  | float _ => node _ nofun
  | str _ => node _ nofun
  | array items => node _ (rec_items node items)
  | object members => node _ (rec_members node members)

lemma rec_items (node : ∀ j, (∀ c ∈ j.children, motive c) → motive j) :
    ∀ js : List Json, ∀ c ∈ js, motive c
  | [] => nofun
  | j :: js => forall_mem_cons.mpr ⟨rec_children node j, rec_items node js⟩

lemma rec_members (node : ∀ j, (∀ c ∈ j.children, motive c) → motive j) :
    ∀ ms : List (String × Json), ∀ c ∈ ms.map Prod.snd, motive c
  | [] => nofun
  | (_, j) :: ms => forall_mem_cons.mpr ⟨rec_children node j, rec_members node ms⟩

end

end

/-- A property of every node and its depth. -/
inductive All (P : Nat → Json → Prop) : Nat → Json → Prop where
  | intro {d j} :
    P d j →
    (∀ c ∈ j.children, All P (d + 1) c) →
    All P d j

section
variable {P Q : Nat → Json → Prop} {d : Nat} {j : Json}

lemma All.here (h : All P d j) : P d j := by
  cases h with
  | intro here _ => exact here

lemma All.child (h : All P d j) {c} (hc : c ∈ j.children) : All P (d + 1) c := by
  cases h with
  | intro _ below => exact below c hc

lemma All.imp (h : All P d j) (imp : ∀ {d j}, P d j → Q d j) : All Q d j := by
  induction h with
  | intro here _ ih => exact .intro (imp here) ih

/-- A property of all nodes whatsoever. -/
lemma All.of_forall (h : ∀ d j, P d j) : All P d j := by
  induction j using rec_children generalizing d with
  | node j ih => exact .intro (h d j) fun c hc => ih c hc

/-- A property that does not depend on the depth holds at every depth. -/
lemma All.move (h : All P d j) (const : ∀ {d d' j}, P d j → Q d' j) {d'} : All Q d' j := by
  induction h generalizing d' with
  | intro here _ ih => exact .intro (const here) fun c hc => ih c hc

end

/-- The numbers are finite and no member occurs twice, at any depth. -/
def Plain (j : Json) : Prop :=
  All (fun _ j => (∀ x, j = .float x → x.isFinite = true) ∧ j.names.Nodup) 0 j

/-! ### The canonical form -/

section
variable {α : Type}

/-- A member put into its place among members that are ordered by their names. -/
def insertMember (k : String) (v : α) : List (String × α) → List (String × α)
  | [] => [(k, v)]
  | (k', v') :: ms =>
    if k < k' then (k, v) :: (k', v') :: ms
    else if k = k' then (k, v) :: ms
    else (k', v') :: insertMember k v ms

/-- `dict(sorted(members))`. -/
def sortMembers : List (String × α) → List (String × α)
  | [] => []
  | (k, v) :: ms => insertMember k v (sortMembers ms)

/-- The names of the members increase. -/
def Increasing (ms : List (String × α)) : Prop := (ms.map Prod.fst).Pairwise (· < ·)

variable {ms : List (String × α)}

lemma mem_insertMember {k v m} (h : m ∈ insertMember k v ms) : m = (k, v) ∨ m ∈ ms := by
  induction ms with
  | nil => exact .inl (mem_singleton.mp h)
  | cons m' ms ih =>
    obtain ⟨_, _⟩ := m'
    rw [insertMember] at h
    split at h
    · exact mem_cons.mp h
    split at h
    · rcases mem_cons.mp h with same | mem
      · exact .inl same
      · exact .inr (mem_cons_of_mem _ mem)
    · rcases mem_cons.mp h with same | mem
      · exact .inr (same ▸ mem_cons_self)
      · rcases ih mem with same | mem
        · exact .inl same
        · exact .inr (mem_cons_of_mem _ mem)

lemma mem_sortMembers {m} (h : m ∈ sortMembers ms) : m ∈ ms := by
  induction ms with
  | nil => cases h
  | cons m' ms ih =>
    rcases mem_insertMember h with same | mem
    · exact same ▸ mem_cons_self
    · exact mem_cons_of_mem _ (ih mem)

lemma length_insertMember_le (k : String) (v : α) (ms : List (String × α)) :
    (insertMember k v ms).length ≤ ms.length + 1 := by
  induction ms with
  | nil => exact Nat.le_refl 1
  | cons m ms ih =>
    obtain ⟨_, _⟩ := m
    rw [insertMember]
    split
    · exact Nat.le_refl _
    · split
      · exact Nat.le_succ _
      · exact Nat.succ_le_succ ih

lemma length_sortMembers_le (ms : List (String × α)) : (sortMembers ms).length ≤ ms.length := by
  induction ms with
  | nil => exact Nat.le_refl 0
  | cons m ms ih =>
    have := length_insertMember_le m.1 m.2 (sortMembers ms)
    simp only [sortMembers, length_cons]
    omega

lemma increasing_insertMember {k v} (h : Increasing ms) : Increasing (insertMember k v ms) := by
  induction ms with
  | nil => exact pairwise_singleton _ _
  | cons m ms ih =>
    obtain ⟨k', _⟩ := m
    obtain ⟨above, rest⟩ := pairwise_cons.mp h
    rw [insertMember]
    split
    · rename_i lt
      apply pairwise_cons.mpr
      refine ⟨?_, h⟩
      intro n hn
      rcases mem_cons.mp hn with rfl | mem
      · exact lt
      · exact lt.trans (above n mem)
    · rename_i notLt
      split
      · rename_i same
        subst same
        exact pairwise_cons.mpr ⟨above, rest⟩
      · rename_i other
        have gt : k' < k := lt_of_le_of_ne (not_lt.mp notLt) (Ne.symm other)
        apply pairwise_cons.mpr
        refine ⟨?_, ih rest⟩
        intro n hn
        obtain ⟨m, hm, rfl⟩ := mem_map.mp hn
        rcases mem_insertMember hm with rfl | mem
        · exact gt
        · exact above _ (mem_map_of_mem mem)

lemma increasing_sortMembers (ms : List (String × α)) : Increasing (sortMembers ms) := by
  induction ms with
  | nil => exact List.Pairwise.nil
  | cons m ms ih => exact increasing_insertMember ih

/-- Members that are in order stay as they are. -/
lemma sortMembers_of_increasing (h : Increasing ms) : sortMembers ms = ms := by
  induction ms with
  | nil => rfl
  | cons m ms ih =>
    obtain ⟨k, v⟩ := m
    obtain ⟨above, rest⟩ := pairwise_cons.mp h
    rw [sortMembers, ih rest]
    cases ms with
    | nil => rfl
    | cons m' ms => rw [insertMember, if_pos (above m'.1 mem_cons_self)]

lemma Increasing.nodup (h : Increasing ms) : (ms.map Prod.fst).Nodup :=
  List.Pairwise.imp (fun lt => ne_of_lt lt) h

end

section
variable (f : List (String × Json) → List (String × Json))

mutual

/-- The members arranged by `f`, at every depth. -/
def arrange : Json → Json
  | array items => array (arrangeItems items)
  | object members => object (f (arrangeMembers members))
  | j => j

def arrangeItems : List Json → List Json
  | [] => []
  | j :: js => arrange j :: arrangeItems js

def arrangeMembers : List (String × Json) → List (String × Json)
  | [] => []
  | (k, j) :: ms => (k, arrange j) :: arrangeMembers ms

end

variable {f}

/-- A value whose members are arranged already stays as it is. -/
lemma arrange_of_fixed {d j}
    (h : All (fun _ j => ∀ ms, j = object ms → f ms = ms) d j) : arrange f j = j := by
  induction h with
  | @intro d j here _ ih =>
    cases j with
    | array items =>
      have all : ∀ js : List Json, (∀ c ∈ js, arrange f c = c) → arrangeItems f js = js := by
        intro js hjs
        induction js with
        | nil => rfl
        | cons j js rest =>
          obtain ⟨first, others⟩ := forall_mem_cons.mp hjs
          rw [arrangeItems, first, rest others]
      rw [arrange, all items ih]
    | object members =>
      have all : ∀ ms : List (String × Json), (∀ c ∈ ms.map Prod.snd, arrange f c = c) →
          arrangeMembers f ms = ms := by
        intro ms hms
        induction ms with
        | nil => rfl
        | cons m ms rest =>
          obtain ⟨first, others⟩ := forall_mem_cons.mp hms
          rw [arrangeMembers, first, rest others]
      rw [arrange, all members ih, here members rfl]
    | _ => rfl

end

/-- The members ordered by their names, at every depth. -/
def sorted : Json → Json := arrange sortMembers

/-- A value whose members are in order at every depth is its own canonical form. -/
lemma sorted_of_increasing {d j}
    (h : All (fun _ j => ∀ ms, j = object ms → Increasing ms) d j) : j.sorted = j :=
  arrange_of_fixed (h.imp fun here ms same => sortMembers_of_increasing (here ms same))

end Json

end ToriPy
