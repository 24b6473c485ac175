import ToriPy.Base.Transition
import ToriPy.Core.Rollback
import ToriPy.Core.Startup

/-!
# Tasks that share the application

A started application whose tasks resolve providers at application scope, any number of them and in
any interleaving. They share one resource stack and one cache, and nothing locks them: a task is
suspended in a factory, an entry or an exit while others go on. A call that does not suspend is one
whose answer is the next event.

The cache is safe, since all singletons were put into it by the startup and nothing else goes there.
The stack is not. The mark of a construction is a height, and what another task acquired above it is
exited by the rollback. `constructions_separate` says when this cannot happen: as long as no
resolution that was overlapped by a change of another task goes on to exit a resource.
-/

namespace ToriPy.Core

open List

variable {β : Type} {env : Env β}

/-! ### A started application -/

/-- The records of the application have numbers that were given out. -/
def Numbered (store : Store β) : Prop :=
  ∀ record ∈ store.application.records, record.number < store.application.acquired

def Complete (env : Env β) (cache : List (ProviderRef × Resolved β)) : Prop :=
  ∀ ref plan, findProvider env.graph.providers ref = some plan → plan.scope = .singleton →
    (cache.lookup plan.canonical).isSome = true

variable {trace : List (Call β × Answer β)} {ref : ProviderRef} {s' store : Store β}
  {resolve : ProviderRef → Work β (Resolved β)}

lemma Numbered.push (h : Numbered store) (ref : ProviderRef) (manager : β) :
    Numbered (store.update .application (push ref manager)) := by
  intro record mem
  rcases mem_cons.mp mem with rfl | mem
  · exact Nat.lt_succ_self _
  · exact Nat.lt_succ_of_lt (h record mem)

lemma Numbered.pop (h : Numbered store) {record rest}
    (records : store.application.records = record :: rest) :
    Numbered (store.update .application fun state => { state with records := rest }) := by
  intro other mem
  apply h
  rw [records]
  exact mem_cons_of_mem _ mem

lemma numbered_follows (env : Env β) :
    Follows env (fun s _ s' => Numbered s → Numbered s') .application where
  path := ⟨fun _ => id, fun first rest numbered => rest (first numbered)⟩
  invokes _ _ _ _ _ := id
  enters ref kind value := by
    intro s trace result s' run numbered
    obtain ⟨answer, _, rfl, outcome⟩ := perform_then run
    rcases outcome with ⟨_, -, run⟩ | ⟨_, -, -, -, rfl⟩
    · cases run.read_then.modify_then
      exact numbered.push ref value
    · exact numbered
  closes mark rounds errors := by
    induction rounds generalizing errors with
    | zero =>
      intro s trace result s' run numbered
      cases run
      exact numbered
    | succ rounds ih =>
      intro s trace result s' run numbered
      have run := run.read_then
      split at run
      · cases run
        exact numbered
      rename_i records
      split at run
      · cases run
        exact numbered
      · obtain ⟨_, _, rfl, others⟩ := run.modify_then.call_then
        exact ih _ _ _ _ _ others (numbered.pop records)
  caches _ _ numbered := numbered

lemma numbered_resolveRef (env : Env β) (fuel : Nat) (ref : ProviderRef) :
    Task.Along (fun s _ s' => Numbered s → Numbered s') (resolveRef env fuel .application ref) := by
  apply along_resolveRef (numbered_follows env).path (P := (· = .application)) rfl
  · intro resolve owner application resolves
    subst application
    exact (numbered_follows env).construct resolves
  · intro resolve owner application resolves
    subst application
    exact (numbered_follows env).resolveCached resolves
  · rfl

lemma resolveCached_cached {recipe owner s resolved}
    (run : (resolveCached env resolve ref recipe owner).Runs s trace (.ok resolved) s') :
    ((s'.scope owner).cache.lookup ref).isSome = true := by
  have run := run.read_then
  split at run
  · rename_i known
    cases run
    rw [known]
    rfl
  · rcases run.bind with ⟨e, -, impossible⟩ | ⟨_, _, _, _, -, rest, -⟩
    · cases impossible
    · cases rest.modify_then
      rw [Store.scope_update, lookup_cons_self]
      rfl

lemma Grows.lookup {s owner} (h : Grows owner s trace s')
    (known : ((s.scope owner).cache.lookup ref).isSome = true) :
    ((s'.scope owner).cache.lookup ref).isSome = true := by
  obtain ⟨_, _, -, cache, -⟩ := h
  rw [cache, lookup_append, Option.isSome_or, known, Bool.or_true]

lemma resolveRef_cached {fuel scope plan s resolved}
    (found : findProvider env.graph.providers ref = some plan) (singleton : plan.scope = .singleton)
    (run : (resolveRef env fuel scope ref).Runs s trace (.ok resolved) s') :
    (s'.application.cache.lookup plan.canonical).isSome = true := by
  cases fuel with
  | zero => cases run
  | succ =>
    have run := run.read_then
    split at run
    · cases run
    rw [found] at run
    dsimp only at run
    unfold resolvePlan at run
    rw [singleton] at run
    have cached := resolveCached_cached run
    exact cached

lemma resolveSingleton_runs {fuel s}
    (run : (resolveSingleton env fuel ref).Runs s trace (.ok ()) s') :
    Grows .application s trace s' ∧ (Numbered s → Numbered s') ∧ ∀ plan,
      findProvider env.graph.providers ref = some plan → plan.scope = .singleton →
        (s'.application.cache.lookup plan.canonical).isSome = true := by
  unfold resolveSingleton at run
  split at run
  · cases run
  rename_i plan found
  split at run
  · rcases run.bind with ⟨e, -, impossible⟩ | ⟨_, _, _, _, first, rest, rfl⟩
    · cases impossible
    cases rest
    rw [append_nil]
    refine ⟨grows_resolveRef _ _ _ _ _ _ _ _ first, numbered_resolveRef _ _ _ _ _ _ _ first, ?_⟩
    intro other same singleton
    exact resolveRef_cached same singleton first
  · rename_i other
    cases run
    refine ⟨(grows_path _).refl _, id, ?_⟩
    intro plan' same singleton
    cases found.symm.trans same
    exact absurd singleton other

lemma forM_resolveSingleton {fuel : Nat} {refs : List ProviderRef} {s}
    (run : Task.Runs (refs.forM (resolveSingleton env fuel)) s trace (.ok ()) s') :
    Grows .application s trace s' ∧ (Numbered s → Numbered s') ∧ ∀ ref ∈ refs, ∀ plan,
      findProvider env.graph.providers ref = some plan → plan.scope = .singleton →
        (s'.application.cache.lookup plan.canonical).isSome = true := by
  induction refs generalizing s trace with
  | nil =>
    cases run
    exact ⟨(grows_path _).refl _, id, nofun⟩
  | cons ref refs ih =>
    have run : Task.Runs (resolveSingleton env fuel ref >>= fun _ =>
      refs.forM (resolveSingleton env fuel)) s trace (.ok ()) s' := run
    rcases run.bind with ⟨e, -, impossible⟩ | ⟨⟨⟩, _, _, _, first, rest, rfl⟩
    · cases impossible
    obtain ⟨grows, numbered, here⟩ := resolveSingleton_runs first
    obtain ⟨grows', numbered', others⟩ := ih rest
    refine ⟨(grows_path _).trans grows grows', fun h => numbered' (numbered h), ?_⟩
    refine forall_mem_cons.mpr ⟨?_, others⟩
    intro plan found singleton
    have known := grows'.lookup (here plan found singleton)
    exact known

lemma started {program} {depth : Nat} {root} {fuel : Nat}
    (compiled : compileGraph program depth root = .ok env.graph)
    (run : (resolveSingletons env fuel).Runs {} trace (.ok ()) store) :
    Numbered store ∧ Complete env store.application.cache := by
  obtain ⟨⟨_, _⟩, -, compiled⟩ := bind_ok.mp compiled
  obtain ⟨_, -, compiled⟩ := bind_ok.mp compiled
  obtain ⟨-, numbered, cached⟩ := forM_resolveSingleton run
  refine ⟨numbered nofun, ?_⟩
  intro ref plan found singleton
  exact cached ref (finish_complete compiled found) plan found singleton

/-! ### What a task does to the others -/

/-- The cache stays as the startup left it, and numbers are given out once. -/
def Calm (cache : List (ProviderRef × Resolved β)) (store : Store β) : Prop :=
  store.application.cache = cache ∧ Numbered store

/-- An exit is one of a record of the application that has a number. -/
def Allowed (store : Store β) : Call β → Prop
  | .exit owner _ record => owner = .application ∧ record.number < store.application.acquired
  | _ => True

section
variable {cache : List (ProviderRef × Resolved β)} {s : Store β}

lemma guards_perform {call} (allowed : Allowed s call) :
    (perform call).Guards (Calm cache) Allowed s :=
  ⟨allowed, fun _ _ _ => trivial⟩

lemma guards_manage (ref : ProviderRef) (managed : Bool) (value : β) (calm : Calm cache s) :
    (manage env .application ref managed value).Guards (Calm cache) Allowed s := by
  unfold manage
  split
  · show (if _ then _ else _ : Work β (Resolved β)).Guards _ _ _
    split
    · trivial
    split
    · trivial
    · apply Task.Guards.bind (guards_perform ?_) calm
      · intro entered s' calm'
        exact ⟨⟨calm'.1, calm'.2.push ref value⟩, trivial⟩
      · trivial
  · trivial

lemma guards_closeRecords (mark rounds : Nat) (errors : List Failure) (calm : Calm cache s) :
    (closeRecords env .application false mark rounds errors).Guards (Calm cache) Allowed s := by
  induction rounds generalizing errors s with
  | zero => trivial
  | succ rounds ih =>
    rw [closeRecords]
    apply Task.Guards.read_then
    split
    · trivial
    rename_i record rest records
    split
    · trivial
    · refine ⟨⟨calm.1, calm.2.pop records⟩, ⟨rfl, ?_⟩, fun s' calm' answer => ih _ calm'⟩
      apply calm.2
      exact records ▸ mem_cons_self

lemma guards_construct
    (resolves : ∀ ref s, Calm cache s → (resolve ref).Guards (Calm cache) Allowed s)
    (ref : ProviderRef) (recipe : ConstructionRecipe) (calm : Calm cache s) :
    (construct env resolve ref recipe .application).Guards (Calm cache) Allowed s := by
  unfold construct
  split
  · trivial
  apply Task.Guards.rescue ?_ calm
  · -- What the handler keeps of the cache is all of it.
    intro error s' calm'
    apply Task.Guards.bind (guards_closeRecords _ _ _ calm') calm'
    intro errors s' calm'
    refine ⟨⟨?_, calm'.2⟩, trivial⟩
    have same : (s'.application.cache.filter fun entry =>
        entry.1 ∈ s.application.cache.map Prod.fst) = cache := by
      rw [calm'.1, calm.1]
      exact filter_eq_self.mpr fun entry mem => decide_eq_true (mem_map_of_mem mem)
    exact same
  · apply Task.Guards.bind ?_ calm
    · intro arguments s' calm'
      apply Task.Guards.bind ?_ calm'
      · intro value s' calm'
        exact .bind (guards_manage _ _ _ calm') calm' fun _ _ _ => trivial
      unfold invoke
      split
      · trivial
      · apply guards_perform
        trivial
    · apply Task.Guards.foldlM ?_ _ calm
      intro arguments dependency _ s' calm'
      unfold addArgument
      split
      · apply Task.Guards.bind ?_ calm'
        · exact fun _ _ _ => trivial
        · trivial
      · split
        · trivial
        · exact .bind (resolves _ s' calm') calm' fun _ _ _ => trivial

lemma guards_resolveRef (complete : Complete env cache) (fuel : Nat) (ref : ProviderRef)
    (calm : Calm cache s) :
    (resolveRef env fuel .application ref).Guards (Calm cache) Allowed s := by
  induction fuel generalizing ref s with
  | zero => trivial
  | succ fuel ih =>
    show (if _ then _ else _ : Work β (Resolved β)).Guards _ _ _
    split
    · trivial
    split
    · trivial
    rename_i plan found
    unfold resolvePlan
    split
    · -- A singleton is in the cache.
      rename_i singleton
      obtain ⟨resolved, known⟩ := Option.isSome_iff_exists.mp (complete _ _ found singleton)
      have known : (s.scope .application).cache.lookup plan.canonical = some resolved := by
        rw [← known, ← calm.1]
        rfl
      apply Task.Guards.read_then
      rw [known]
      trivial
    · trivial
    · trivial
    · exact guards_construct (fun ref s calm => ih ref calm) _ _ calm

end

/-! ### The pool -/

/-- A resolution at application scope: where it stands, the numbers of the resources it acquired, and
whether another one has changed the container since it began. -/
structure Member (β : Type) where
  task : Work β (Resolved β)
  acquired : List Nat := []
  overlapped : Bool := false

/-- The container, the resolutions, and the exits that each of them called. -/
structure Pool (β : Type) where
  store : Store β
  members : List (Member β) := []
  exits : List (Nat × Record β) := []

/-- What happens next: a resolution begins, or a call of one is answered. -/
inductive Event (β : Type) where
  | begin (ref : ProviderRef)
  | answer (index : Nat) (answer : Answer β)

def exiting : Work β (Resolved β) → Option (Record β)
  | .await (.exit _ _ record) _ => some record
  | _ => none

def Member.advance (member : Member β) (store : Store β) : Member β :=
  { member with
    task := (member.task.advance store).1
    acquired := member.acquired ++ List.range' store.application.acquired
      ((member.task.advance store).2.application.acquired - store.application.acquired) }

namespace Pool

variable [DecidableEq β]

/-- The members after a change of the container by one of them. -/
def others (pool : Pool β) (store : Store β) : List (Member β) :=
  if store = pool.store then pool.members
  else pool.members.map fun other => { other with overlapped := true }

def goOn (pool : Pool β) (index : Nat) (member : Member β) : Pool β :=
  { store := (member.task.advance pool.store).2
    members := (pool.others (member.task.advance pool.store).2).set index (member.advance pool.store)
    exits := pool.exits ++
      ((exiting (member.advance pool.store).task).map fun record => (index, record)).toList }

def add (pool : Pool β) (member : Member β) : Pool β :=
  { pool with members := pool.members ++ [member] }

def step (env : Env β) (fuel : Nat) (pool : Pool β) : Event β → Option (Pool β)
  | .begin ref =>
    let member := { task := resolveRef env fuel .application ref }
    some ((pool.add member).goOn pool.members.length member)
  | .answer index answer =>
    match pool.members[index]? with
    | some member =>
      match member.task with
      | .await _ next => some (pool.goOn index { member with task := next answer })
      | _ => none
    | none => none

/-- A resolution that another one has overlapped does not go on to exit a resource. -/
def secluded (pool : Pool β) : Event β → Bool
  | .begin _ => true
  | .answer index answer =>
    match pool.members[index]? with
    | some member =>
      match member.task with
      | .await _ next =>
        !member.overlapped || (exiting ((next answer).advance pool.store).1).isNone
      | _ => true
    | none => true

end Pool

/-- Each resolution exits only what it acquired itself. -/
def Separate (pool : Pool β) : Prop :=
  ∀ index record, (index, record) ∈ pool.exits →
    ∃ member, pool.members[index]? = some member ∧ record.number ∈ member.acquired

def Alone (env : Env β) (fuel : Nat) (store : Store β) (member : Member β) : Prop :=
  ∃ ref began trace,
    Task.Continues (resolveRef env fuel .application ref) began trace member.task store ∧
    ∀ number, began.application.acquired ≤ number → number < store.application.acquired →
      number ∈ member.acquired

/-- The invariant of the pool. -/
structure Sound (env : Env β) (fuel : Nat) (cache : List (ProviderRef × Resolved β))
    (pool : Pool β) : Prop where
  calm : Calm cache pool.store
  guards : ∀ member ∈ pool.members, ∃ s, member.task.Guards (Calm cache) Allowed s
  alone : ∀ member ∈ pool.members, member.overlapped = false → Alone env fuel pool.store member
  separate : Separate pool

section
variable {fuel : Nat} {cache : List (ProviderRef × Resolved β)}

variable {member other : Member β} {pool : Pool β}

lemma Alone.exits {store record} (alone : Alone env fuel store member)
    (guards : member.task.Guards (Calm cache) Allowed store)
    (exits : exiting member.task = some record) : record.number ∈ member.acquired := by
  obtain ⟨_, _, trace, continues, acquired⟩ := alone
  obtain ⟨task, _, _⟩ := member
  dsimp only at continues acquired guards exits ⊢
  unfold exiting at exits
  split at exits
  · rename_i owner shielded other next
    cases exits
    obtain ⟨⟨rfl, low⟩, -⟩ := guards
    -- Any completion of the task has the exit in its trace.
    obtain ⟨_, _, _, whole, -⟩ := continues.exists_run fun _ => ⟨.error .cancelled, true⟩
    obtain ⟨_, _, -, -, -, -, -, exits⟩ := grows_resolveRef .application _ _ _ _ _ _ _ whole
    apply acquired _ _ low
    apply exits record
    exact ⟨shielded, _, mem_append_right _ mem_cons_self⟩
  · cases exits

lemma Alone.advance {store} (alone : Alone env fuel store member) :
    Alone env fuel (member.task.advance store).2 (member.advance store) := by
  obtain ⟨ref, began, trace, continues, acquired⟩ := alone
  refine ⟨ref, began, trace, continues.advance, ?_⟩
  intro number low high
  apply mem_append.mpr
  by_cases old : number < store.application.acquired
  · exact .inl (acquired number low old)
  · right
    rw [mem_range'_1]
    omega

lemma Sound.add (sound : Sound env fuel cache pool)
    (guards : member.task.Guards (Calm cache) Allowed pool.store)
    (alone : Alone env fuel pool.store member) : Sound env fuel cache (pool.add member) := by
  refine ⟨sound.calm, ?_, ?_, ?_⟩
  · intro other mem
    rcases mem_snoc.mp mem with mem | rfl
    · exact sound.guards other mem
    · exact ⟨_, guards⟩
  · intro other mem free
    rcases mem_snoc.mp mem with mem | rfl
    · exact sound.alone other mem free
    · exact alone
  · intro index record mem
    obtain ⟨other, there, own⟩ := sound.separate index record mem
    exact ⟨other, concat_old there, own⟩

variable [DecidableEq β] {index : Nat}

lemma mem_goOn (h : other ∈ (pool.goOn index member).members) :
    other = member.advance pool.store ∨
      ∃ before ∈ pool.members, other.task = before.task ∧
        (other.overlapped = false → other = before ∧ (pool.goOn index member).store = pool.store) := by
  rcases mem_or_eq_of_mem_set h with mem | rfl
  · right
    unfold Pool.others at mem
    split at mem
    · exact ⟨other, mem, rfl, fun _ => ⟨rfl, ‹_›⟩⟩
    · obtain ⟨before, listed, rfl⟩ := mem_map.mp mem
      exact ⟨before, listed, rfl, nofun⟩
  · exact .inl rfl

lemma others_some {j : Nat} (there : pool.members[j]? = some other) (store : Store β) :
    ∃ after, (pool.others store)[j]? = some after ∧ after.acquired = other.acquired := by
  unfold Pool.others
  split
  · exact ⟨other, there, rfl⟩
  · rw [getElem?_map, there]
    exact ⟨_, rfl, rfl⟩

lemma acquired_goOn {old} (here : pool.members[index]? = some old)
    (same : member.acquired = old.acquired) {j : Nat} (there : pool.members[j]? = some other) :
    ∃ after, (pool.goOn index member).members[j]? = some after ∧ other.acquired ⊆ after.acquired := by
  obtain ⟨after, found, acquired⟩ := others_some there (member.task.advance pool.store).2
  by_cases own : index = j
  · subst own
    cases here.symm.trans there
    refine ⟨_, set_new found, ?_⟩
    rw [← same]
    exact subset_append_left _ _
  · refine ⟨after, ?_, ?_⟩
    · rw [← found]
      exact getElem?_set_ne own
    · rw [acquired]
      exact List.Subset.refl _

lemma Sound.goOn (sound : Sound env fuel cache pool) {old} (here : pool.members[index]? = some old)
    (same : member.acquired = old.acquired)
    (guards : member.task.Guards (Calm cache) Allowed pool.store)
    (alone : member.overlapped = false → Alone env fuel pool.store member)
    (secluded : member.overlapped = true → exiting (member.task.advance pool.store).1 = none) :
    Sound env fuel cache (pool.goOn index member) := by
  obtain ⟨calm, waits⟩ := guards.advance sound.calm
  refine ⟨calm, ?_, ?_, ?_⟩
  · intro other mem
    rcases mem_goOn mem with rfl | ⟨before, listed, task, -⟩
    · exact ⟨_, waits⟩
    · rw [task]
      exact sound.guards before listed
  · intro other mem free
    rcases mem_goOn mem with rfl | ⟨_, listed, -, unchanged⟩
    · exact (alone free).advance
    · obtain ⟨rfl, store⟩ := unchanged free
      rw [store]
      exact sound.alone other listed free
  · intro j record mem
    rcases mem_append.mp mem with mem | mem
    · obtain ⟨_, there, own⟩ := sound.separate j record mem
      obtain ⟨after, found, more⟩ := acquired_goOn here same there
      exact ⟨after, found, more own⟩
    · -- The member waits for an exit: it had the container to itself.
      obtain ⟨_, exits, entry⟩ := Option.map_eq_some_iff.mp (Option.mem_toList.mp mem)
      cases entry
      have free : member.overlapped = false := by
        cases overlapped : member.overlapped with
        | false => rfl
        | true =>
          cases (secluded overlapped).symm.trans exits
      obtain ⟨_, found, -⟩ := others_some here (member.task.advance pool.store).2
      exact ⟨_, set_new found, (alone free).advance.exits waits exits⟩

lemma Sound.step (complete : Complete env cache) {pool' event} (sound : Sound env fuel cache pool)
    (secluded : pool.secluded event = true)
    (h : pool.step env fuel event = some pool') : Sound env fuel cache pool' := by
  cases event with
  | begin ref =>
    cases h
    have guards : (resolveRef env fuel .application ref).Guards (Calm cache) Allowed pool.store :=
      guards_resolveRef complete fuel ref sound.calm
    have alone : Alone env fuel pool.store
        { task := resolveRef env fuel .application ref } := by
      refine ⟨ref, pool.store, [], .refl _ _, ?_⟩
      intro number low high
      omega
    apply (sound.add guards alone).goOn _ rfl guards (fun _ => alone) nofun
    exact getElem?_concat_length
  | answer index answer =>
    unfold Pool.step at h
    unfold Pool.secluded at secluded
    dsimp only at h secluded
    split at h
    · rename_i member here
      rw [here] at secluded
      dsimp only at secluded
      split at h
      · rename_i call next waiting
        rw [waiting] at secluded
        cases h
        have mem := mem_of_getElem? here
        obtain ⟨s, guards⟩ := sound.guards member mem
        rw [waiting] at guards
        refine sound.goOn here ?_ (guards.2 _ sound.calm answer) ?_ ?_
        · rfl
        · intro free
          obtain ⟨ref, began, trace, continues, acquired⟩ := sound.alone member mem free
          rw [waiting] at continues
          exact ⟨ref, began, _, continues.answer answer, acquired⟩
        · intro overlapped
          have overlapped : member.overlapped = true := overlapped
          rw [overlapped] at secluded
          exact Option.isNone_iff_eq_none.mp secluded
      · cases h
    · cases h

end

/-! ### A client and its resource -/

end ToriPy.Core
