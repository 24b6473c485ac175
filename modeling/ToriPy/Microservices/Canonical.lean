import ToriPy.Microservices.Codec

/-!
# Canonical values

What the recursive checks of the codec establish. Each of them walks over a value with the depth of
the node it is at, so each is a property of all nodes (`Json.All`): the limits that `_check_limits`
checks, the strictness of a document, and the canonical form that `_canonical_builtins` returns. A
canonical value within the limits passes through `_canonical_builtins` and `_freeze_value` unchanged.
-/

namespace ToriPy.Microservices

open List

open Json (All Plain Increasing sortMembers)

def Within (maxDepth maxItems : Nat) (depth : Nat) (j : Json) : Prop :=
  depth ≤ maxDepth ∧ j.children.length ≤ maxItems

def FiniteNode (j : Json) : Prop := ∀ x, j = .float x → x.isFinite = true

/-! ### Limits -/

section
variable {limits : MessageLimits}

lemma checkItems_ok {depth items} :
    checkItems limits depth items = .ok () ↔ ∀ j ∈ items, checkLimits limits depth j = .ok () := by
  induction items with
  | nil => simp [checkItems]
  | cons j items ih => rw [checkItems, then_ok, ih, forall_mem_cons]

lemma checkMembers_ok {depth members} :
    checkMembers limits depth members = .ok () ↔
      ∀ j ∈ members.map Prod.snd, checkLimits limits depth j = .ok () := by
  induction members with
  | nil => simp [checkMembers]
  | cons m members ih =>
    obtain ⟨_, j⟩ := m
    rw [checkMembers, then_ok, ih, map_cons, forall_mem_cons]

lemma checkLimits_node {depth j} :
    checkLimits limits depth j = .ok () ↔
      (Within limits.maxNestingDepth limits.maxCollectionItems depth j ∧ FiniteNode j) ∧
        ∀ c ∈ j.children, checkLimits limits (depth + 1) c = .ok () := by
  rw [checkLimits.eq_def]
  unfold Within FiniteNode
  split
  · simp only [reduceCtorEq, false_iff]
    omega
  rename_i depth_le
  have depth_le := Nat.le_of_not_lt depth_le
  cases j with
  | float x =>
    dsimp only
    split <;> simp_all [Json.children]
  | array items =>
    dsimp only
    split
    · simp only [reduceCtorEq, Json.children, false_iff]
      omega
    · rename_i le
      rw [checkItems_ok]
      simp [Json.children, depth_le, Nat.le_of_not_lt le]
  | object members =>
    dsimp only
    split
    · simp only [reduceCtorEq, Json.children, length_map, false_iff]
      omega
    · rename_i le
      rw [checkMembers_ok]
      simp [Json.children, depth_le, Nat.le_of_not_lt le]
  | _ => simp [Json.children, depth_le]

lemma checkLimits_ok {depth j} :
    checkLimits limits depth j = .ok () ↔
      All (fun depth j => Within limits.maxNestingDepth limits.maxCollectionItems depth j ∧
        FiniteNode j) depth j := by
  induction j using Json.rec_children generalizing depth with
  | node j ih =>
    rw [checkLimits_node]
    constructor
    · rintro ⟨here, below⟩
      exact .intro here fun c hc => (ih c hc).mp (below c hc)
    · intro h
      exact ⟨h.here, fun c hc => (ih c hc).mpr (h.child hc)⟩

end

/-! ### Strict documents -/

variable {members members' : List (String × Json)} {items items' : List Json}

lemma rejectDuplicateMembers_some :
    rejectDuplicateMembers members = some members' ↔
      members' = members ∧ (members.map Prod.fst).Nodup := by
  induction members generalizing members' with
  | nil => simp [rejectDuplicateMembers, eq_comm]
  | cons m members ih =>
    obtain ⟨_, j⟩ := m
    rw [rejectDuplicateMembers]
    split
    · rename_i mem
      simp only [reduceCtorEq, map_cons, nodup_cons, false_iff]
      exact fun h => h.2.1 mem
    · rename_i fresh
      simp only [Option.map_eq_some_iff, map_cons, nodup_cons]
      constructor
      · rintro ⟨_, h, rfl⟩
        obtain ⟨rfl, nodup⟩ := ih.mp h
        exact ⟨rfl, fresh, nodup⟩
      · rintro ⟨rfl, -, nodup⟩
        exact ⟨members, ih.mpr ⟨rfl, nodup⟩, rfl⟩

lemma strictItems_some (ih : ∀ j ∈ items, ∀ {j'}, strict j = some j' ↔ j' = j ∧ Plain j) :
    strictItems items = some items' ↔ items' = items ∧ ∀ j ∈ items, Plain j := by
  induction items generalizing items' with
  | nil => simp [strictItems, eq_comm]
  | cons j items rest =>
    rw [strictItems]
    simp only [Option.bind_eq_some_iff, Option.map_eq_some_iff,
      rest fun j hj => ih j (mem_cons_of_mem _ hj), ih j mem_cons_self,
      forall_mem_cons]
    constructor
    · rintro ⟨_, ⟨rfl, plain⟩, _, ⟨rfl, plains⟩, rfl⟩
      exact ⟨rfl, plain, plains⟩
    · rintro ⟨rfl, plain, plains⟩
      exact ⟨j, ⟨rfl, plain⟩, items, ⟨rfl, plains⟩, rfl⟩

lemma strictMembers_some
    (ih : ∀ j ∈ members.map Prod.snd, ∀ {j'}, strict j = some j' ↔ j' = j ∧ Plain j) :
    strictMembers members = some members' ↔
      members' = members ∧ ∀ j ∈ members.map Prod.snd, Plain j := by
  induction members generalizing members' with
  | nil => simp [strictMembers, eq_comm]
  | cons m members rest =>
    obtain ⟨_, j⟩ := m
    rw [map_cons] at ih ⊢
    rw [strictMembers]
    simp only [Option.bind_eq_some_iff, Option.map_eq_some_iff,
      rest fun j hj => ih j (mem_cons_of_mem _ hj), ih j mem_cons_self,
      forall_mem_cons]
    constructor
    · rintro ⟨_, ⟨rfl, plain⟩, _, ⟨rfl, plains⟩, rfl⟩
      exact ⟨rfl, plain, plains⟩
    · rintro ⟨rfl, plain, plains⟩
      exact ⟨j, ⟨rfl, plain⟩, members, ⟨rfl, plains⟩, rfl⟩

lemma plain_node {j} : Plain j ↔ (FiniteNode j ∧ j.names.Nodup) ∧ ∀ c ∈ j.children, Plain c := by
  constructor
  · intro h
    exact ⟨h.here, fun c hc => (h.child hc).move fun here => here⟩
  · rintro ⟨here, below⟩
    exact .intro here fun c hc => (below c hc).move fun here => here

lemma plain_scalar {j} (children : j.children = []) (names : j.names = []) :
    Plain j ↔ FiniteNode j := by
  rw [plain_node, children, names]
  simp

lemma strict_some {j j'} : strict j = some j' ↔ j' = j ∧ Plain j := by
  induction j using Json.rec_children generalizing j' with
  | node j ih =>
    have scalar : ∀ j : Json, strict j = some j → j.children = [] → j.names = [] → FiniteNode j →
        (strict j = some j' ↔ j' = j ∧ Plain j) := by
      intro j same children names finite
      rw [same, plain_scalar children names, Option.some.injEq]
      exact ⟨fun h => ⟨h.symm, finite⟩, fun h => h.1.symm⟩
    cases j with
    | float x =>
      by_cases finite : x.isFinite = true
      · apply scalar _ _ rfl rfl
        · intro y same
          cases same
          exact finite
        · rw [strict, if_pos finite]
      · rw [strict, if_neg finite, plain_scalar rfl rfl]
        simp only [reduceCtorEq, false_iff]
        exact fun h => finite (h.2 x rfl)
    | array items =>
      have items_some : ∀ items', strictItems items = some items' ↔
          items' = items ∧ ∀ j ∈ items, Plain j := fun _ => strictItems_some ih
      rw [plain_node, strict, Option.map_eq_some_iff]
      simp only [items_some, FiniteNode, Json.names, Json.children, reduceCtorEq, false_implies,
        implies_true, nodup_nil, and_self, true_and]
      constructor
      · rintro ⟨_, ⟨rfl, plain⟩, rfl⟩
        exact ⟨rfl, plain⟩
      · rintro ⟨rfl, plain⟩
        exact ⟨items, ⟨rfl, plain⟩, rfl⟩
    | object members =>
      have members_some : ∀ members', strictMembers members = some members' ↔
          members' = members ∧ ∀ j ∈ members.map Prod.snd, Plain j := fun _ => strictMembers_some ih
      rw [plain_node, strict, Option.bind_eq_some_iff]
      simp only [Option.map_eq_some_iff, members_some, rejectDuplicateMembers_some,
        FiniteNode, Json.names, Json.children, reduceCtorEq, false_implies, implies_true, true_and]
      constructor
      · rintro ⟨_, ⟨rfl, plain⟩, _, ⟨rfl, nodup⟩, rfl⟩
        exact ⟨rfl, nodup, plain⟩
      · rintro ⟨rfl, nodup, plain⟩
        exact ⟨members, ⟨rfl, plain⟩, members, ⟨rfl, nodup⟩, rfl⟩
    | _ => exact scalar _ rfl rfl rfl nofun

/-! ### Copies -/

def NamedNode (j : Json) : Prop := ∀ name ∈ j.names, name ≠ ""

section
variable {rules : CopyRules}

/-- A node of a copy: it is within the limits, and its members are arranged. -/
def CopyNode (rules : CopyRules) (depth : Nat) (j : Json) : Prop :=
  Within rules.maxDepth rules.maxItems depth j ∧ FiniteNode j ∧ NamedNode j ∧
    ∀ ms, j = .object ms → ∃ ms', ms = rules.members ms'

lemma copyMembers_cons {depth name item members} (h : name ≠ "") :
    copyMembers rules depth ((.str name, item) :: members) = (do
      let copy ← copyValue rules depth item
      let rest ← copyMembers rules depth members
      .ok ((name, copy) :: rest)) := by
  rw [copyMembers]
  exact h

/-- The errors of a copy satisfy a predicate. -/
structure CopyRules.Raises (E : WireError → Prop) (rules : CopyRules) : Prop where
  depthError : E rules.depthError
  floatError : E rules.floatError
  sizeError : E rules.sizeError
  keyError : E rules.keyError
  unsupportedError : E rules.unsupportedError

section
variable {E : WireError → Prop}

mutual

lemma copyValue_ensures (raises : rules.Raises E) : ∀ (value : Value) (depth : Nat),
    Ensures E (All (CopyNode rules) depth) (copyValue rules depth value)
  | value, depth => by
    rw [copyValue.eq_def]
    split
    · exact .error raises.depthError
    rename_i depth_le
    have depth_le := Nat.le_of_not_lt depth_le
    have scalar : ∀ j : Json, j.children = [] → j.names = [] → FiniteNode j →
        (∀ ms, j ≠ .object ms) → All (CopyNode rules) depth j := by
      intro j children names finite notObject
      refine .intro ⟨⟨depth_le, ?_⟩, finite, ?_, ?_⟩ ?_
      · rw [children]
        exact Nat.zero_le _
      · rw [NamedNode, names]
        exact nofun
      · intro ms same
        exact absurd same (notObject ms)
      · rw [children]
        exact nofun
    match value with
    | .none => exact .ok (scalar _ rfl rfl nofun nofun)
    | .bool b => exact .ok (scalar _ rfl rfl nofun nofun)
    | .int n => exact .ok (scalar _ rfl rfl nofun nofun)
    | .float x =>
      dsimp only
      split
      · rename_i finite
        refine .ok (scalar _ rfl rfl ?_ nofun)
        intro y same
        cases same
        exact finite
      · exact .error raises.floatError
    | .str s => exact .ok (scalar _ rfl rfl nofun nofun)
    | .mapping members =>
      dsimp only
      split
      · exact .error raises.sizeError
      rename_i le
      apply (copyMembers_ensures raises members (depth + 1)).map
      rintro ms ⟨copies, length, names⟩
      refine .intro ⟨⟨depth_le, ?_⟩, nofun, ?_, ?_⟩ ?_
      · have := rules.members_short ms
        simp only [Json.children, length_map]
        omega
      · intro name hname
        obtain ⟨m, hm, rfl⟩ := mem_map.mp hname
        exact names m (rules.members_sub ms m hm)
      · intro ms' same
        cases same
        exact ⟨ms, rfl⟩
      · intro c hc
        obtain ⟨m, hm, rfl⟩ := mem_map.mp hc
        exact copies m (rules.members_sub ms m hm)
    | .sequence kind items =>
      dsimp only
      split
      · exact .error raises.unsupportedError
      split
      · exact .error raises.sizeError
      rename_i le
      apply (copyItems_ensures raises items (depth + 1)).map
      rintro js ⟨copies, length⟩
      refine .intro ⟨⟨depth_le, ?_⟩, nofun, nofun, nofun⟩ copies
      rw [Json.children, length]
      exact Nat.le_of_not_lt le
    | .other id => exact .error raises.unsupportedError

lemma copyItems_ensures (raises : rules.Raises E) : ∀ (items : List Value) (depth : Nat),
    Ensures E (fun js => (∀ j ∈ js, All (CopyNode rules) depth j) ∧ js.length = items.length)
      (copyItems rules depth items)
  | [], _ => .ok ⟨nofun, rfl⟩
  | item :: items, depth => by
    rw [copyItems]
    apply (copyValue_ensures raises item depth).bind
    intro j copy
    apply (copyItems_ensures raises items depth).bind
    rintro js ⟨copies, length⟩
    refine .ok ⟨forall_mem_cons.mpr ⟨copy, copies⟩, ?_⟩
    rw [length_cons, length_cons, length]

lemma copyMembers_ensures (raises : rules.Raises E) :
    ∀ (members : List (Key × Value)) (depth : Nat),
      Ensures E (fun ms => (∀ m ∈ ms, All (CopyNode rules) depth m.2) ∧
        ms.length = members.length ∧ ∀ m ∈ ms, m.1 ≠ "") (copyMembers rules depth members)
  | [], _ => .ok ⟨nofun, rfl, nofun⟩
  | (.other _, _) :: _, _ => .error raises.keyError
  | (.str name, item) :: members, depth => by
    by_cases empty : name = ""
    · subst empty
      exact .error raises.keyError
    rw [copyMembers_cons empty]
    apply (copyValue_ensures raises item depth).bind
    intro j copy
    apply (copyMembers_ensures raises members depth).bind
    rintro ms ⟨copies, length, names⟩
    refine .ok ⟨forall_mem_cons.mpr ⟨copy, copies⟩, ?_, forall_mem_cons.mpr ⟨empty, names⟩⟩
    rw [length_cons, length_cons, length]

end

end

/-! ### Copies of trees of the JSON kind -/

/-- The trees that are copied within the given limits. -/
def Copyable (maxDepth maxItems : Nat) : Nat → Json → Prop :=
  All fun depth j => Within maxDepth maxItems depth j ∧ FiniteNode j ∧ NamedNode j

lemma copyable_node {maxDepth maxItems depth j} :
    Copyable maxDepth maxItems depth j ↔
      (Within maxDepth maxItems depth j ∧ FiniteNode j ∧ NamedNode j) ∧
        ∀ c ∈ j.children, Copyable maxDepth maxItems (depth + 1) c :=
  ⟨fun h => ⟨h.here, fun _ hc => h.child hc⟩, fun h => .intro h.1 h.2⟩

lemma length_ofItems (kind : SequenceKind) (items : List Json) :
    (Value.ofItems kind items).length = items.length := by
  induction items with
  | nil => rfl
  | cons j items ih => rw [Value.ofItems, length_cons, length_cons, ih]

lemma length_ofMembers (kind : SequenceKind) (members : List (String × Json)) :
    (Value.ofMembers kind members).length = members.length := by
  induction members with
  | nil => rfl
  | cons m members ih => rw [Value.ofMembers, length_cons, length_cons, ih]

variable {kind : SequenceKind} {depth : Nat}

lemma copyItems_ofItems
    (ih : ∀ j ∈ items, ∀ {j'}, copyValue rules depth (.ofJson kind j) = .ok j' ↔
      j' = j.arrange rules.members ∧ Copyable rules.maxDepth rules.maxItems depth j) :
    copyItems rules depth (Value.ofItems kind items) = .ok items' ↔
      items' = Json.arrangeItems rules.members items ∧
        ∀ j ∈ items, Copyable rules.maxDepth rules.maxItems depth j := by
  induction items generalizing items' with
  | nil =>
    rw [Value.ofItems, copyItems, Json.arrangeItems, Except.ok.injEq]
    exact ⟨fun h => ⟨h.symm, nofun⟩, fun h => h.1.symm⟩
  | cons j items rest =>
    rw [Value.ofItems, copyItems, Json.arrangeItems]
    simp only [bind_ok, ih j mem_cons_self,
      rest fun j hj => ih j (mem_cons_of_mem _ hj), forall_mem_cons, Except.ok.injEq]
    constructor
    · rintro ⟨_, ⟨rfl, h⟩, _, ⟨rfl, hs⟩, rfl⟩
      exact ⟨rfl, h, hs⟩
    · rintro ⟨rfl, h, hs⟩
      exact ⟨_, ⟨rfl, h⟩, _, ⟨rfl, hs⟩, rfl⟩

lemma copyMembers_ofMembers (ih : ∀ j ∈ members.map Prod.snd, ∀ {j'},
      copyValue rules depth (.ofJson kind j) = .ok j' ↔
        j' = j.arrange rules.members ∧ Copyable rules.maxDepth rules.maxItems depth j) :
    copyMembers rules depth (Value.ofMembers kind members) = .ok members' ↔
      members' = Json.arrangeMembers rules.members members ∧
        (∀ name ∈ members.map Prod.fst, name ≠ "") ∧
          ∀ j ∈ members.map Prod.snd, Copyable rules.maxDepth rules.maxItems depth j := by
  induction members generalizing members' with
  | nil =>
    rw [Value.ofMembers, copyMembers, Json.arrangeMembers, Except.ok.injEq]
    exact ⟨fun h => ⟨h.symm, forall_mem_nil _, forall_mem_nil _⟩, fun h => h.1.symm⟩
  | cons m members rest =>
    obtain ⟨name, j⟩ := m
    rw [map_cons] at ih
    rw [Value.ofMembers, Json.arrangeMembers, map_cons, map_cons]
    by_cases empty : name = ""
    · subst empty
      rw [copyMembers]
      simp
    · rw [copyMembers_cons empty]
      simp only [bind_ok, ih j mem_cons_self,
        rest fun j hj => ih j (mem_cons_of_mem _ hj), forall_mem_cons, Except.ok.injEq]
      constructor
      · rintro ⟨_, ⟨rfl, h⟩, _, ⟨rfl, names, hs⟩, rfl⟩
        exact ⟨rfl, ⟨empty, names⟩, h, hs⟩
      · rintro ⟨rfl, ⟨-, names⟩, h, hs⟩
        exact ⟨_, ⟨rfl, h⟩, _, ⟨rfl, names, hs⟩, rfl⟩

lemma copyValue_ofJson (hk : rules.sequences kind = true) {j j'} :
    copyValue rules depth (.ofJson kind j) = .ok j' ↔
      j' = j.arrange rules.members ∧ Copyable rules.maxDepth rules.maxItems depth j := by
  induction j using Json.rec_children generalizing depth j' with
  | node j ih =>
    rw [copyable_node, copyValue.eq_def]
    split
    · rename_i lt
      simp only [reduceCtorEq, Within, false_iff]
      omega
    · rename_i depth_le
      have depth_le := Nat.le_of_not_lt depth_le
      have scalar : ∀ j : Json, j.children = [] → j.names = [] → FiniteNode j →
          j.arrange rules.members = j → ((Except.ok j : Except WireError Json) = .ok j' ↔
            j' = j.arrange rules.members ∧
              (Within rules.maxDepth rules.maxItems depth j ∧ FiniteNode j ∧ NamedNode j) ∧
                ∀ c ∈ j.children, Copyable rules.maxDepth rules.maxItems (depth + 1) c) := by
        intro j children names finite same
        rw [Except.ok.injEq, Within, NamedNode, children, names, same]
        simp [depth_le, finite, eq_comm]
      cases j with
      | float x =>
        rw [Value.ofJson]
        dsimp only
        split
        · rename_i finite
          refine scalar _ rfl rfl ?_ rfl
          intro y same
          cases same
          exact finite
        · rename_i infinite
          simp only [reduceCtorEq, FiniteNode, false_iff]
          exact fun h => infinite (h.2.1.2.1 x rfl)
      | array items =>
        have items_ok : ∀ items', copyItems rules (depth + 1) (Value.ofItems kind items) =
            .ok items' ↔ items' = Json.arrangeItems rules.members items ∧
              ∀ j ∈ items, Copyable rules.maxDepth rules.maxItems (depth + 1) j :=
          fun _ => copyItems_ofItems fun j hj _ => ih j hj
        rw [Value.ofJson]
        dsimp only
        rw [if_neg (by simp [hk]), length_ofItems]
        split
        · simp only [reduceCtorEq, Within, Json.children, false_iff]
          omega
        rename_i le
        simp only [map_ok, items_ok, Within, FiniteNode, NamedNode, Json.children, Json.names,
          Json.arrange]
        constructor
        · rintro ⟨_, ⟨rfl, hs⟩, rfl⟩
          refine ⟨rfl, ⟨⟨depth_le, Nat.le_of_not_lt le⟩, ?_, forall_mem_nil _⟩, hs⟩
          exact fun _ h => by cases h
        · rintro ⟨rfl, -, hs⟩
          exact ⟨_, ⟨rfl, hs⟩, rfl⟩
      | object members =>
        have members_ok : ∀ members', copyMembers rules (depth + 1)
            (Value.ofMembers kind members) = .ok members' ↔
              members' = Json.arrangeMembers rules.members members ∧
                (∀ name ∈ members.map Prod.fst, name ≠ "") ∧
                  ∀ j ∈ members.map Prod.snd,
                    Copyable rules.maxDepth rules.maxItems (depth + 1) j :=
          fun _ => copyMembers_ofMembers fun j hj _ => ih j hj
        rw [Value.ofJson]
        dsimp only
        rw [length_ofMembers]
        split
        · simp only [reduceCtorEq, Within, Json.children, length_map, false_iff]
          omega
        rename_i le
        simp only [map_ok, members_ok, Within, FiniteNode, NamedNode, Json.children, Json.names,
          length_map, Json.arrange]
        constructor
        · rintro ⟨_, ⟨rfl, names, hs⟩, rfl⟩
          exact ⟨rfl, ⟨⟨depth_le, Nat.le_of_not_lt le⟩, (fun _ h => by cases h), names⟩, hs⟩
        · rintro ⟨rfl, ⟨-, -, names⟩, hs⟩
          exact ⟨_, ⟨rfl, names, hs⟩, rfl⟩
      | _ => exact scalar _ rfl rfl (fun _ h => by cases h) rfl

end

/-! ### The canonical form -/

/-- The values that `_canonical_builtins` returns. -/
def Canonical (limits : MessageLimits) : Nat → Json → Prop :=
  All fun depth j => Within limits.maxNestingDepth limits.maxCollectionItems depth j ∧
    FiniteNode j ∧ NamedNode j ∧ ∀ ms, j = .object ms → Increasing ms

variable {field : String}

lemma canonicalBuiltins_ok {limits depth value j}
    (h : canonicalBuiltins field limits depth value = .ok j) : Canonical limits depth j := by
  have raises : (canonicalRules field limits).Raises fun _ => True :=
    ⟨trivial, trivial, trivial, trivial, trivial⟩
  have copied := copyValue_ensures raises value depth
  rw [canonicalBuiltins] at h
  rw [h] at copied
  cases copied with
  | ok copied =>
    apply copied.imp
    rintro depth j ⟨within, finite, named, arranged⟩
    refine ⟨within, finite, named, ?_⟩
    intro ms same
    obtain ⟨ms', rfl⟩ := arranged ms same
    exact Json.increasing_sortMembers ms'

lemma freezeValue_ofJson {maxDepth maxItems depth kind} (hk : kind ≠ .other) {j j'} :
    freezeValue field maxDepth maxItems depth (.ofJson kind j) = .ok j' ↔
      j' = j ∧ Copyable maxDepth maxItems depth j := by
  have fixed : j.arrange id = j := Json.arrange_of_fixed (d := 0) (.of_forall fun _ _ _ _ => rfl)
  rw [freezeValue, copyValue_ofJson (by simp [freezeRules, hk])]
  simp only [freezeRules, fixed]

lemma canonicalBuiltins_ofJson {limits depth kind j j'} :
    canonicalBuiltins field limits depth (.ofJson kind j) = .ok j' ↔
      j' = j.sorted ∧ Copyable limits.maxNestingDepth limits.maxCollectionItems depth j := by
  rw [canonicalBuiltins, copyValue_ofJson rfl]
  rfl

lemma canonical_ok {lib limits value j}
    (h : canonical lib limits value field = .ok j) : Canonical limits 0 j := by
  unfold canonical at h
  split at h
  · exact canonicalBuiltins_ok h
  · split at h
    · cases h
    · exact canonicalBuiltins_ok h

namespace Canonical
variable {limits : MessageLimits} {depth : Nat} {j : Json}

lemma sorted (h : Canonical limits depth j) : j.sorted = j :=
  Json.sorted_of_increasing (h.imp fun here => here.2.2.2)

lemma plain (h : Canonical limits depth j) : Plain j := by
  refine All.move h ?_
  rintro _ _ j ⟨-, finite, -, increasing⟩
  refine ⟨finite, ?_⟩
  cases j with
  | object ms => exact (increasing ms rfl).nodup
  | _ => exact nodup_nil

lemma copyable (h : Canonical limits depth j) :
    Copyable limits.maxNestingDepth limits.maxCollectionItems depth j :=
  h.imp fun here => ⟨here.1, here.2.1, here.2.2.1⟩

end Canonical

end ToriPy.Microservices
