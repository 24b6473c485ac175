import ToriPy.Core.Container

/-!
# Rollback

A construction that fails exits what is above a position of the resource stack and forgets what is
new in the cache. Positions and keys are all that it remembers, and for a task that has the scope to
itself they are enough: the stack and the cache only grow on top of what a resolution finds
(`Grows`), so the rollback takes away exactly what the construction put there.
-/

namespace ToriPy.Core

open List

variable {β : Type} {env : Env β}

@[simp]
lemma Store.scope_update (s : Store β) (kind : ScopeKind) (f : ScopeState β → ScopeState β) :
    (s.update kind f).scope kind = f (s.scope kind) := by
  cases kind with
  | application | request => rfl

lemma Store.scope_update_of_ne (s : Store β) {kind kind'} (h : kind' ≠ kind)
    (f : ScopeState β → ScopeState β) : (s.update kind f).scope kind' = s.scope kind' := by
  cases kind with
  | application =>
    cases kind' with
    | application => exact absurd rfl h
    | request => rfl
  | request =>
    cases kind' with
    | application => rfl
    | request => exact absurd rfl h

/-! ### Growth -/

def Held (owner : ScopeKind) (s : Store β) (resolved : Resolved β) : Prop :=
  ∀ number, resolved.resource = some number →
    ∃ record ∈ (s.scope owner).records, record.number = number

def Exits (owner : ScopeKind) (record : Record β) (trace : List (Call β × Answer β)) : Prop :=
  ∃ shielded answer, (Call.exit owner shielded record, answer) ∈ trace

/-- The resources and the cache of a scope grow on top of what they were, what is new in the cache is
open, and only what is new is exited on the way. -/
def Grows (owner : ScopeKind) (s : Store β) (trace : List (Call β × Answer β)) (s' : Store β) :
    Prop :=
  ∃ above cached,
    (s'.scope owner).records = above ++ (s.scope owner).records ∧
    (s'.scope owner).cache = cached ++ (s.scope owner).cache ∧
    (s.scope owner).acquired ≤ (s'.scope owner).acquired ∧
    (∀ record ∈ above, (s.scope owner).acquired ≤ record.number) ∧
    (∀ entry ∈ cached, entry.1 ∉ (s.scope owner).cache.map Prod.fst ∧ Held owner s' entry.2) ∧
    ∀ record, Exits owner record trace → (s.scope owner).acquired ≤ record.number

variable {trace : List (Call β × Answer β)} {resolve : ProviderRef → Work β (Resolved β)}
  {owner : ScopeKind} {s s' : Store β} {recipe : ConstructionRecipe} {ref : ProviderRef}
  {resolved : Resolved β}

lemma grows_of_same (same : s'.scope owner = s.scope owner)
    (quiet : ∀ record, ¬ Exits owner record trace) : Grows owner s trace s' := by
  refine ⟨[], [], ?_, ?_, ?_, nofun, nofun, fun record exits => absurd exits (quiet record)⟩
  · rw [same, nil_append]
  · rw [same, nil_append]
  · rw [same]

lemma not_exits_nil {record : Record β} : ¬ Exits owner record [] := by
  rintro ⟨_, _, mem⟩
  cases mem

lemma Held.mono (h : Held owner s resolved)
    (more : (s.scope owner).records ⊆ (s'.scope owner).records) : Held owner s' resolved := by
  intro number resource
  obtain ⟨record, mem, same⟩ := h number resource
  exact ⟨record, more mem, same⟩

lemma grows_path (owner : ScopeKind) : Task.Path (Grows (β := β) owner) where
  refl s := grows_of_same rfl fun _ => not_exits_nil
  trans := by
    rintro s mid s' before after ⟨above, cached, records, cache, count, fresh, new, exits⟩
      ⟨above', cached', records', cache', count', fresh', new', exits'⟩
    refine ⟨above' ++ above, cached' ++ cached, ?_, ?_, count.trans count', ?_, ?_, ?_⟩
    · rw [records', records, append_assoc]
    · rw [cache', cache, append_assoc]
    · intro record mem
      rcases mem_append.mp mem with mem | mem
      · exact count.trans (fresh' record mem)
      · exact fresh record mem
    · intro entry mem
      rcases mem_append.mp mem with mem | mem
      · obtain ⟨unknown, held⟩ := new' entry mem
        refine ⟨fun known => unknown ?_, held⟩
        rw [cache, map_append]
        exact mem_append_right _ known
      · obtain ⟨unknown, held⟩ := new entry mem
        refine ⟨unknown, held.mono ?_⟩
        rw [records']
        exact subset_append_right _ _
    · rintro record ⟨shielded, answer, mem⟩
      rcases mem_append.mp mem with mem | mem
      · exact exits record ⟨shielded, answer, mem⟩
      · exact count.trans (exits' record ⟨shielded, answer, mem⟩)

/-! ### Another scope -/

lemma follows_of_other {other} (distinct : owner ≠ other) : Follows env (Grows owner) other where
  path := grows_path owner
  invokes s ref recipe arguments answer := by
    apply grows_of_same rfl
    rintro record ⟨shielded, answer, mem⟩
    cases mem_singleton.mp mem
  enters ref kind value := by
    intro s trace result s' run
    obtain ⟨answer, _, rfl, outcome⟩ := perform_then run
    have quiet : ∀ record : Record β, ¬ Exits owner record [(.enter other ref kind value, answer)] := by
      rintro record ⟨shielded, answer, mem⟩
      cases mem_singleton.mp mem
    rcases outcome with ⟨_, -, run⟩ | ⟨_, -, rfl, -, rfl⟩
    · cases run.read_then.modify_then
      exact grows_of_same (Store.scope_update_of_ne s distinct _) quiet
    · exact grows_of_same rfl quiet
  closes mark rounds errors := by
    induction rounds generalizing errors with
    | zero => exact .ret (grows_path owner) _
    | succ rounds ih =>
      apply Task.Along.bind (grows_path owner) (.read (grows_path owner) _)
      intro records
      split
      · exact .ret (grows_path owner) _
      split
      · exact .ret (grows_path owner) _
      apply Task.Along.bind (grows_path owner)
      · apply Task.Along.modify
        intro s
        exact grows_of_same (Store.scope_update_of_ne s distinct _) fun _ => not_exits_nil
      · intro _
        apply Task.Along.bind (grows_path owner)
        · apply Task.Along.call
          intro s answer
          apply grows_of_same rfl
          rintro record ⟨_, answer, mem⟩
          cases mem_singleton.mp mem
          exact distinct rfl
        · intro answer
          exact ih _
  caches s f := grows_of_same (Store.scope_update_of_ne s distinct _) fun _ => not_exits_nil

/-! ### The scope itself -/

lemma grows_enterManager (owner : ScopeKind) (ref : ProviderRef) (kind : ManagerKind) (value : β) :
    Task.Along (Grows owner) (enterManager owner ref kind value) := by
  intro s trace result s' run
  obtain ⟨answer, _, rfl, outcome⟩ := perform_then run
  have quiet : ∀ record : Record β, ¬ Exits owner record [(.enter owner ref kind value, answer)] := by
    rintro record ⟨_, _, mem⟩
    cases mem_singleton.mp mem
  rcases outcome with ⟨_, -, run⟩ | ⟨_, -, rfl, -, rfl⟩
  · cases run.read_then.modify_then
    refine ⟨[⟨(s.scope owner).acquired, ref, value⟩], [], ?_, ?_, ?_, ?_, nofun, ?_⟩
    · rw [Store.scope_update]
      rfl
    · rw [Store.scope_update]
      rfl
    · rw [Store.scope_update]
      exact Nat.le_succ _
    · intro record mem
      cases mem_singleton.mp mem
      exact Nat.le_refl _
    · exact fun record exits => absurd exits (quiet record)
  · exact grows_of_same rfl quiet

lemma manage_held {managed value}
    (run : (manage env owner ref managed value).Runs s trace (.ok resolved) s') :
    Held owner s' resolved := by
  unfold manage at run
  split at run
  · have run := run.read_then
    split at run
    · cases run
    split at run
    · cases run
      exact nofun
    obtain ⟨_, _, rfl, outcome⟩ := perform_then run
    rcases outcome with ⟨_, -, run⟩ | ⟨_, -, -, impossible, -⟩
    · cases run.read_then.modify_then
      intro number same
      cases same
      refine ⟨⟨_, ref, value⟩, ?_, rfl⟩
      rw [Store.scope_update]
      exact mem_cons_self
    · cases impossible
  · cases run
    exact nofun

lemma closeRecords_runs {shielded mark rounds errors result above below}
    (run : (closeRecords env owner shielded mark rounds errors).Runs s trace result s')
    (records : (s.scope owner).records = above ++ below) (marked : below.length = mark)
    (enough : above.length ≤ rounds) :
    (∃ errors, result = .ok errors) ∧
      (s'.scope owner) = { s.scope owner with records := below } ∧
      ∀ record, Exits owner record trace → record ∈ above := by
  -- Nothing is above the mark.
  have done : ∀ {errors s s' trace result}, (s.scope owner).records = below →
      (Task.ret (.ok errors) : Work β (List Failure)).Runs s trace result s' →
      (∃ errors, result = .ok errors) ∧ (s'.scope owner) = { s.scope owner with records := below } ∧
        ∀ record, Exits owner record trace → record ∈ ([] : List (Record β)) := by
    intro errors s s' trace result records run
    cases run
    exact ⟨⟨errors, rfl⟩, by rw [← records], fun record exits => absurd exits not_exits_nil⟩
  induction rounds generalizing errors s trace above with
  | zero =>
    obtain rfl := length_eq_zero_iff.mp (Nat.le_zero.mp enough)
    exact done records run
  | succ rounds ih =>
    have run := run.read_then
    rw [records] at run
    cases above with
    | nil =>
      cases below with
      | nil => exact done records run
      | cons record below =>
        have short : below.length < mark := by
          rw [← marked]
          exact Nat.lt_succ_self _
        simp only [nil_append, if_pos short] at run
        exact done records run
    | cons record above =>
      have long : ¬ (above ++ below).length < mark := by
        rw [length_append, marked]
        omega
      simp only [cons_append, if_neg long] at run
      obtain ⟨answer, rest, rfl, others⟩ := run.modify_then.call_then
      obtain ⟨returned, scope, exits⟩ := ih others (by rw [Store.scope_update])
        (Nat.le_of_succ_le_succ enough)
      refine ⟨returned, ?_, ?_⟩
      · rw [scope, Store.scope_update]
      rintro exited ⟨shielded, answer, mem⟩
      rcases mem_cons.mp mem with here | mem
      · cases here
        exact mem_cons_self
      · exact mem_cons_of_mem _ (exits exited ⟨shielded, answer, mem⟩)

lemma unwind_runs {mid error result above cached}
    (run : (unwind env owner (s.scope owner).records.length ((s.scope owner).cache.map Prod.fst)
      error).Runs mid trace result s')
    (records : (mid.scope owner).records = above ++ (s.scope owner).records)
    (cache : (mid.scope owner).cache = cached ++ (s.scope owner).cache)
    (new : ∀ entry ∈ cached, entry.1 ∉ (s.scope owner).cache.map Prod.fst) :
    (∃ error, result = .error error) ∧
      s'.scope owner = { mid.scope owner with
        records := (s.scope owner).records, cache := (s.scope owner).cache } ∧
      ∀ record, Exits owner record trace → record ∈ above := by
  have kept : (mid.scope owner).cache.filter
      (fun entry => entry.1 ∈ (s.scope owner).cache.map Prod.fst) = (s.scope owner).cache := by
    rw [cache, filter_append, filter_eq_nil_iff.mpr, filter_eq_self.mpr, nil_append]
    · exact fun entry mem => decide_eq_true (mem_map_of_mem mem)
    · exact fun entry mem known => new entry mem (of_decide_eq_true known)
  rcases run.bind with ⟨e, first, -⟩ | ⟨errors, after, before, rest, first, last, rfl⟩
  · have first := first.read_then
    obtain ⟨⟨_, impossible⟩, -⟩ := closeRecords_runs first records rfl (by
      rw [records, length_append]
      omega)
    cases impossible
  · have first := first.read_then
    obtain ⟨-, scope, exits⟩ := closeRecords_runs first records rfl (by
      rw [records, length_append]
      omega)
    cases last.modify_then
    refine ⟨⟨_, rfl⟩, ?_, ?_⟩
    · rw [Store.scope_update, scope, kept]
    · rw [append_nil]
      exact exits

lemma constructBody_held {proxied}
    (run : (constructBody env resolve ref recipe owner proxied).Runs s trace (.ok resolved) s') :
    Held owner s' resolved := by
  rcases run.bind with ⟨e, -, impossible⟩ | ⟨_, mid, before, after, -, rest, -⟩
  · cases impossible
  rcases rest.bind with ⟨e, -, impossible⟩ | ⟨_, mid, before, after, -, rest, -⟩
  · cases impossible
  rcases rest.bind with ⟨e, -, impossible⟩ | ⟨_, _, _, _, last, rest, -⟩
  · cases impossible
  have held := manage_held last
  cases rest
  intro number resource
  apply held number
  split at resource
  · exact resource
  · exact resource

lemma construct_runs (resolves : ∀ ref, Task.Along (Grows owner) (resolve ref)) {result}
    (run : (construct env resolve ref recipe owner).Runs s trace result s') :
    Grows owner s trace s' ∧ (∀ resolved, result = .ok resolved → Held owner s' resolved) ∧
      ∀ error, result = .error error → (s'.scope owner).records = (s.scope owner).records ∧
        (s'.scope owner).cache = (s.scope owner).cache := by
  unfold construct at run
  split at run
  · cases run
    exact ⟨(grows_path owner).refl s, nofun, fun _ _ => ⟨rfl, rfl⟩⟩
  rename_i plan _
  have body : Task.Along (Grows owner) (constructBody env resolve ref recipe owner plan.proxy) := by
    apply along_constructBody (grows_path owner) resolves
    · intro s ref recipe arguments answer
      apply grows_of_same rfl
      rintro record ⟨shielded, answer, mem⟩
      cases mem_singleton.mp mem
    · exact grows_enterManager owner
  rcases run.read_then.rescue with ⟨resolved, first, rfl⟩ | ⟨e, _, _, _, first, rest, rfl⟩
  · refine ⟨body _ _ _ _ first, ?_, nofun⟩
    intro resolved same
    cases same
    exact constructBody_held first
  · obtain ⟨_, _, records, cache, count, fresh, new, exits⟩ := body _ _ _ _ first
    obtain ⟨failed, scope, exits'⟩ := unwind_runs rest records cache fun entry mem => (new entry mem).1
    refine ⟨⟨[], [], ?_, ?_, ?_, nofun, nofun, ?_⟩, ?_, fun _ _ => ?_⟩
    · rw [scope, nil_append]
    · rw [scope, nil_append]
    · rw [scope]
      exact count
    · rintro record ⟨shielded, answer, mem⟩
      rcases mem_append.mp mem with mem | mem
      · exact exits record ⟨shielded, answer, mem⟩
      · exact fresh record (exits' record ⟨shielded, answer, mem⟩)
    · intro resolved returned
      obtain ⟨_, failed⟩ := failed
      cases returned.symm.trans failed
    · rw [scope]
      exact ⟨rfl, rfl⟩

lemma grows_resolveCached (resolves : ∀ ref, Task.Along (Grows owner) (resolve ref))
    (ref : ProviderRef) (recipe : ConstructionRecipe) :
    Task.Along (Grows owner) (resolveCached env resolve ref recipe owner) := by
  intro s trace result s' run
  have run := run.read_then
  split at run
  · cases run
    exact (grows_path owner).refl s
  rename_i unknown
  rcases run.bind with ⟨e, first, rfl⟩ | ⟨resolved, mid, _, _, first, rest, rfl⟩
  · exact (construct_runs resolves first).1
  obtain ⟨grows, held, -⟩ := construct_runs resolves first
  obtain ⟨above, cached, records, cache, count, fresh, new, exits⟩ := grows
  cases rest.modify_then
  have same : ∀ {entry}, Held owner mid entry → Held owner
      (mid.update owner fun state => { state with cache := (ref, resolved) :: state.cache })
      entry := by
    intro entry held
    apply held.mono
    rw [Store.scope_update]
    exact List.Subset.refl _
  rw [append_nil]
  refine ⟨above, (ref, resolved) :: cached, ?_, ?_, ?_, fresh, ?_, exits⟩
  · rw [Store.scope_update, ← records]
  · rw [Store.scope_update, cons_append, ← cache]
  · rw [Store.scope_update]
    exact count
  intro entry mem
  rcases mem_cons.mp mem with rfl | mem
  · refine ⟨?_, same (held resolved rfl)⟩
    intro known
    obtain ⟨entry, listed, same⟩ := mem_map.mp known
    exact bne_iff_ne.mp (lookup_eq_none_iff.mp unknown entry listed) same.symm
  · exact ⟨(new entry mem).1, same (new entry mem).2⟩

lemma resolveCached_failed (resolves : ∀ ref, Task.Along (Grows owner) (resolve ref)) {error}
    (run : (resolveCached env resolve ref recipe owner).Runs s trace (.error error) s') :
    (s'.scope owner).records = (s.scope owner).records ∧
      (s'.scope owner).cache = (s.scope owner).cache := by
  have run := run.read_then
  split at run
  · cases run
  · rcases run.bind with ⟨e, first, -⟩ | ⟨_, _, _, _, -, rest, -⟩
    · exact (construct_runs resolves first).2.2 e rfl
    · cases rest.modify_then

lemma grows_resolveRef (owner : ScopeKind) (fuel : Nat) (scope : ScopeKind) (ref : ProviderRef) :
    Task.Along (Grows owner) (resolveRef env fuel scope ref) := by
  apply along_resolveRef (grows_path owner) (P := fun _ => True) trivial
  · intro resolve other _ resolves ref recipe
    by_cases same : owner = other
    · subst same
      intro s trace result s' run
      exact (construct_runs resolves run).1
    · exact (follows_of_other same).construct resolves ref recipe
  · intro resolve other _ resolves ref recipe
    by_cases same : owner = other
    · subst same
      exact grows_resolveCached resolves ref recipe
    · exact (follows_of_other same).resolveCached resolves ref recipe
  · trivial

end ToriPy.Core
