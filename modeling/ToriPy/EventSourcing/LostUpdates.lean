import ToriPy.EventSourcing.Simulation

/-!
# No update is lost

Since it was loaded, an aggregate has the version it was loaded at until a unit of work has
committed it at that version (`System.Since`). As the plans that are committed for one stream do not
overlap, two aggregates that were loaded from one stream at one version are not both committed,
whatever else happens between the two loads and behind them.
-/

namespace ToriPy.EventSourcing

variable {app : App} {schemas : EventSchemaRegistry app}

namespace System

variable {w w' : System app} {u a : Nat} {uow : UnitOfWork app} {streamId : StreamId}
  {version : Nat}

/-- The aggregate `a` was committed to the stream at the version. -/
def Taken (w : System app) (a : Nat) (streamId : StreamId) (version : Nat) : Prop :=
  ∃ (u : Nat) (uow : UnitOfWork app), w.uows[u]? = some uow ∧ uow.state = .committed ∧
    ∃ plan ∈ uow.plans, plan.aggregate = a ∧ plan.streamId = streamId ∧
      plan.expectedVersion = version

/-- `load` or `get` of the repository returns the aggregate `a`. -/
def Loads (w : System app) (repository : Repository schemas) (id : app.Id) (a : Nat)
    (w' : System app) : Prop :=
  w.perform (.load repository id) = some (.loaded a, w') ∨
    w.perform (.get repository id) = some (.loaded a, w')

/-- What holds of an aggregate since it was loaded at the version. -/
structure Since (a : Nat) (streamId : StreamId) (version : Nat) (w : System app) : Prop where
  bound : ∃ agg, w.aggregates[a]? = some agg ∧ agg.streamId = some streamId ∧
    (agg.version = version ∨ w.Taken a streamId version)
  taken : ∀ {u : Nat} {uow : UnitOfWork app} {plan : CommitPlan app}, w.uows[u]? = some uow →
    uow.state = .committed → plan ∈ uow.plans → plan.aggregate = a → w.Taken a streamId version

lemma Sound.committed_stays (sound : w.Sound schemas) (move : Move schemas w w')
    (old : w.uows[u]? = some uow) (committed : uow.state = .committed) :
    w'.uows[u]? = some uow := by
  have other : ∀ {u' : Nat} {uow' new}, w.uows[u']? = some uow' →
      uow'.state ≠ .committed → (w.uows.set u' new)[u]? = some uow := by
    intro u' uow' new old' running
    rw [List.getElem?_set_ne, old]
    rintro rfl
    cases old.symm.trans old'
    exact running committed
  cases move with
  | unitOfWork => exact concat_old old
  | acts old' running => exact other old' running
  | staged old' active | waits old' active => exact other old' (by rw [active]; exact nofun)
  | committed old' waits commit =>
    obtain ⟨_, uows, -⟩ := commit.uows
    rw [uows]
    refine other old' fun h => ?_
    obtain h' | h' := sound.waiting old' waits <;> cases h.symm.trans h'
  | _ => exact old

lemma Move.committed_before (move : Move schemas w w') (now : w'.uows[u]? = some uow)
    (committed : uow.state = .committed) :
    w.uows[u]? = some uow ∨ ∃ before result, w.uows[u]? = some before ∧
      Committed u before result w w' ∧ uow.plans = before.plans := by
  have other : ∀ {u' : Nat} {new}, (w.uows.set u' new)[u]? = some uow →
      new.state ≠ .committed → w.uows[u]? = some uow := by
    intro u' new h running
    obtain ⟨-, old⟩ | ⟨rfl, rfl⟩ := set_cases h
    · exact old
    · exact absurd committed running
  cases move with
  | unitOfWork =>
    obtain old | ⟨-, rfl⟩ := concat_cases now
    · exact .inl old
    · cases committed
  | acts old running next evolves state =>
    exact .inl (other now fun h => state (evolves.committed h))
  | staged old active => exact .inl (other now (by rw [active]; exact nofun))
  | waits old active next evolves state => exact .inl (other now (by rw [state]; exact nofun))
  | committed old waits commit =>
    obtain ⟨_, uows, plans, -⟩ := commit.uows
    rw [uows] at now
    obtain ⟨-, old'⟩ | ⟨rfl, rfl⟩ := set_cases now
    · exact .inl old'
    · exact .inr ⟨_, _, old, commit, plans⟩
  | _ => exact .inl now

variable {repository : Repository schemas} {agg : Aggregate app} {id : app.Id}

lemma Move.aggregate (move : Move schemas w w') (now : w.aggregates[a]? = some agg) :
    ∃ agg', w'.aggregates[a]? = some agg' ∧
      (∀ streamId, agg.streamId = some streamId → agg'.streamId = some streamId) ∧
      (agg'.version = agg.version ∨ ∃ u uow result, w.uows[u]? = some uow ∧
        Committed u uow result w w' ∧ ∃ plan ∈ uow.plans, plan.aggregate = a ∧
        plan.Ready u agg) := by
  have follow : ∀ {u : Nat} {aggregates},
      FollowAll schemas u w.aggregates aggregates → ∃ agg', aggregates[a]? = some agg' ∧
        (∀ streamId, agg.streamId = some streamId → agg'.streamId = some streamId) ∧
        agg'.version = agg.version := by
    intro u aggregates follow
    obtain ⟨agg', after, follows⟩ := follow.after now
    exact ⟨agg', after, follows.streamId, follows.version⟩
  cases move with
  | store | unitOfWork => exact ⟨agg, now, fun _ h => h, .inl rfl⟩
  | added => exact ⟨agg, concat_old now, fun _ h => h, .inl rfl⟩
  | changed now' follows =>
    obtain ⟨agg', after, stream, same⟩ := follow ((FollowAll.refl _).set now' (follows 0))
    exact ⟨agg', after, stream, .inl same⟩
  | acts old running next evolves | waits old active next evolves =>
    obtain ⟨agg', after, stream, same⟩ := follow evolves.follow
    exact ⟨agg', after, stream, .inl same⟩
  | @staged u uow db b streamId agg₁ agg' _ old active next now' fresh freshStream enlisted =>
    obtain ⟨-, -, -, -, stream, made⟩ := Aggregate.enlist_ok enlisted
    by_cases hb : b = a
    · subst hb
      cases now.symm.trans now'
      refine ⟨agg', set_new now, fun expected bound => ?_, .inl ?_⟩
      · rw [made, stream expected bound]
      · rw [made]
    · exact ⟨agg, (List.getElem?_set_ne hb).trans now, fun _ h => h, .inl rfl⟩
  | committed old waits commit =>
    obtain after | ⟨plan, mem, rfl, ready, after⟩ := commit.after now
    · exact ⟨agg, after, fun _ h => h, .inl rfl⟩
    · exact ⟨_, after, fun _ h => h, .inr ⟨_, _, _, old, commit, plan, mem, rfl, ready⟩⟩

lemma Taken.move (sound : w.Sound schemas) (move : Move schemas w w')
    (h : w.Taken a streamId version) : w'.Taken a streamId version := by
  obtain ⟨u, uow, old, committed, plan⟩ := h
  exact ⟨u, uow, sound.committed_stays move old committed, committed, plan⟩

lemma Committed.taken {result} (sound : w.Sound schemas) (old : w.uows[u]? = some uow)
    (commit : Committed u uow result w w') {plan} (mem : plan ∈ uow.plans)
    (now : w.aggregates[plan.aggregate]? = some agg) (ready : plan.Ready u agg)
    (bound : agg.streamId = some streamId) : w'.Taken plan.aggregate streamId agg.version := by
  obtain ⟨-, stream⟩ := sound.of_ready old mem now ready
  cases bound.symm.trans stream
  obtain ⟨uow', uows, plans, -, -, committed, -⟩ := commit.uows
  refine ⟨u, uow', ?_, committed, plan, ?_, rfl, rfl, ready.version.symm⟩
  · rw [uows]
    exact set_new old
  · rw [plans]
    exact mem

lemma Since.move (sound : w.Sound schemas) (move : Move schemas w w')
    (since : Since a streamId version w) : Since a streamId version w' := by
  obtain ⟨agg, now, stream, place⟩ := since.bound
  -- a commit of the aggregate takes the version, unless it is taken already
  have takes : ∀ {u uow result plan}, w.uows[u]? = some uow → Committed u uow result w w' →
      plan ∈ uow.plans → plan.aggregate = a → plan.Ready u agg → w'.Taken a streamId version := by
    rintro u uow result plan old commit mem rfl ready
    obtain same | taken := place
    · rw [← same]
      exact commit.taken sound old mem now ready stream
    · exact taken.move sound move
  refine ⟨?_, ?_⟩
  · obtain ⟨agg', after, keeps, same | ⟨u, uow, result, old, commit, plan, mem, ours, ready⟩⟩ :=
      move.aggregate now
    · refine ⟨agg', after, keeps _ stream, ?_⟩
      obtain unchanged | taken := place
      · exact .inl (same.trans unchanged)
      · exact .inr (taken.move sound move)
    · exact ⟨agg', after, keeps _ stream, .inr (takes old commit mem ours ready)⟩
  · intro u uow plan h committed mem ours
    obtain old | ⟨_, _, old, commit, plans⟩ := move.committed_before h committed
    · exact (since.taken old committed mem ours).move sound move
    rw [plans] at mem
    obtain ⟨_, now₁, ready, -⟩ := commit.marked plan mem
    subst ours
    cases now.symm.trans now₁
    exact takes old commit mem rfl ready

lemma Since.run (trips : schemas.RoundTrips) (sound : w.Sound schemas)
    (since : Since a streamId version w) (r : Reachable (step schemas) w w') :
    w'.Sound schemas ∧ Since a streamId version w' := by
  refine Reach.invariant (I := fun w => w.Sound schemas ∧ Since a streamId version w) r
    ⟨sound, since⟩ ?_
  rintro w₁ _ w₂ ⟨sound, since⟩ - h
  have move := step_moves sound h
  exact ⟨sound.move trips move, since.move sound move⟩

lemma Loads.step (h : w.Loads repository id a w') : ∃ call, step schemas w call = some w' := by
  obtain h | h := h
  · exact ⟨_, congrArg (Option.map Prod.snd) h⟩
  · exact ⟨_, congrArg (Option.map Prod.snd) h⟩

lemma Loads.load (h : w.Loads repository id a w') :
    ∃ uow, w.load repository uow id = some (.loaded a, w') := by
  obtain h | h := h
  · simp only [perform, bind_some] at h
    obtain ⟨uow, -, h⟩ := h
    exact ⟨uow, h⟩
  · simp only [perform, bind_some] at h
    obtain ⟨uow, -, h⟩ := h
    obtain ⟨_, loaded, same⟩ := get_eq_load h
    cases same a rfl
    exact ⟨uow, loaded⟩

lemma Since.load (sound : w.Sound schemas) (h : w.Loads repository id a w')
    (now : w'.aggregates[a]? = some agg) (bound : agg.streamId = some streamId) :
    a = w.aggregates.length ∧ w'.Sound schemas ∧ Since a streamId agg.version w' := by
  obtain ⟨uow, h⟩ := h.load
  obtain ⟨-, silent⟩ | ⟨_, new, free, rfl, index⟩ := load_moves sound h
  · exact absurd rfl (silent a)
  refine ⟨index a rfl, sound.added new free, ⟨agg, now, bound, .inl rfl⟩, ?_⟩
  -- the plans that there are were made for older aggregates
  intro u uow plan old _ mem ours
  obtain ⟨_, there, -⟩ := (sound.planned old).enlisted plan mem
  have lt := (List.getElem?_eq_some_iff.mp there).1
  rw [ours, index a rfl] at lt
  exact absurd lt (lt_irrefl _)

lemma Sound.taken_unique (sound : w.Sound schemas) {a'} (h : w.Taken a streamId version)
    (h' : w.Taken a' streamId version) : a = a' := by
  obtain ⟨u, uow, old, committed, plan, mem, rfl, stream, expected⟩ := h
  obtain ⟨u', uow', old', committed', plan', mem', rfl, stream', expected'⟩ := h'
  have planned := sound.planned old
  by_cases same : u = u'
  · subst same
    cases old.symm.trans old'
    rw [List.inj_on_of_nodup_map planned.nodupStreams mem mem' (stream.trans stream'.symm)]
  · have pos := List.length_pos_of_ne_nil (planned.encoded plan mem).1
    have pos' := List.length_pos_of_ne_nil ((sound.planned old').encoded plan' mem').1
    have apart := sound.exclusive old old' same committed committed' plan mem plan' mem'
      (stream.trans stream'.symm)
    rw [CommitPlan.finalVersion, CommitPlan.finalVersion] at apart
    omega

end System

/-- Whatever units of work over one store do: an aggregate that is not faulted has the state of the
first `version` events of its stream and its pending ones; a commit meets a stream of exactly that
many events and extends it by exactly the pending ones; and of two aggregates that were loaded from
one stream at one version and saved at most one is committed. -/
theorem aggregates_simulate_streams (trips : schemas.RoundTrips) {limits : EventSourcingLimits}
    {w : System app} (r : Reachable (System.step schemas) (System.start limits) w) :
    (∀ (a : Nat) (agg : Aggregate app) (streamId : StreamId), w.aggregates[a]? = some agg →
      agg.faulted = false → agg.streamId = some streamId →
      ∃ committed, schemas.decodeEvents ((w.db.state.stream streamId).take agg.version) =
          .ok committed ∧ committed.length = agg.version ∧
        (committed ++ agg.pendingEvents.map PendingEvent.event).foldlM
          (app.apply agg.aggregateType) agg.initial = some agg.state) ∧
    (∀ (u : Nat) (uow : UnitOfWork app) (result : CommitResult) (w' : System app),
      w.uows[u]? = some uow →
      w.perform (.resume u : Action schemas) = some (.committed result, w') →
      ∀ plan ∈ uow.plans, ∃ agg agg' new, w.aggregates[plan.aggregate]? = some agg ∧
        agg.streamId = some plan.streamId ∧
        (w.db.state.stream plan.streamId).length = agg.version ∧
        w'.db.state.stream plan.streamId = w.db.state.stream plan.streamId ++ new ∧
        agg.pendingEvents.mapM schemas.encode = .ok (new.map StoredEvent.event) ∧
        schemas.decodeEvents new = .ok (agg.pendingEvents.map PendingEvent.event) ∧
        w'.aggregates[plan.aggregate]? = some agg' ∧ agg'.state = agg.state ∧
        agg'.version = agg.version + agg.pendingEvents.length ∧ agg'.pendingEvents = []) ∧
    ∀ (repository₁ repository₂ : Repository schemas) (id₁ id₂ : app.Id) (a₁ a₂ : Nat)
      (w₁ w₂ w₃ w₄ : System app) (agg₁ agg₂ : Aggregate app) (streamId : StreamId),
      w.Loads repository₁ id₁ a₁ w₁ →
      w₁.aggregates[a₁]? = some agg₁ → agg₁.streamId = some streamId →
      Reachable (System.step schemas) w₁ w₂ →
      w₂.Loads repository₂ id₂ a₂ w₃ →
      w₃.aggregates[a₂]? = some agg₂ → agg₂.streamId = some streamId →
      agg₁.version = agg₂.version →
      Reachable (System.step schemas) w₃ w₄ →
      ∀ (u₁ u₂ : Nat) (uow₁ uow₂ : UnitOfWork app), w₄.uows[u₁]? = some uow₁ →
        w₄.uows[u₂]? = some uow₂ → (∃ plan ∈ uow₁.plans, plan.aggregate = a₁) →
        (∃ plan ∈ uow₂.plans, plan.aggregate = a₂) →
        ¬ (uow₁.state = .committed ∧ uow₂.state = .committed) := by
  have sound := System.sound_of_reachable trips r
  refine ⟨?_, ?_, ?_⟩
  · intro a agg streamId now ok bound
    obtain ⟨committed, reflects⟩ := (sound.aggregates now).reflects ok
    exact ⟨committed, reflects.stream streamId bound, reflects.length, reflects.state⟩
  · intro u uow result w' old performed plan mem
    simp only [System.perform, old, Option.bind_eq_bind, Option.bind_some] at performed
    obtain ⟨result', same, -, commit⟩ | ⟨silent, -⟩ := System.goOn_cases sound old performed
    · obtain ⟨agg, now, ready, after⟩ := commit.marked plan mem
      obtain ⟨-, bound⟩ := sound.of_ready old mem now ready
      obtain ⟨new, stream, length, encoded⟩ := commit.extends sound old mem
      rw [← ready.pending] at encoded
      refine ⟨agg, _, new, now, bound, length.trans ready.version.symm, stream, encoded,
        schemas.decodeEvents_encode trips encoded, after, rfl, ?_, rfl⟩
      rw [ready.version, ready.pending]
      rfl
    · exact absurd rfl (silent result)
  · rintro repository₁ repository₂ id₁ id₂ a₁ a₂ w₁ w₂ w₃ w₄ agg₁ agg₂ streamId load₁ now₁ bound₁ r₁
      load₂ now₂ bound₂ version r₂ u₁ u₂ uow₁ uow₂ old₁ old₂ ⟨plan₁, mem₁, ours₁⟩
      ⟨plan₂, mem₂, ours₂⟩
      ⟨committed₁, committed₂⟩
    obtain ⟨-, sound₁, since₁⟩ := System.Since.load sound load₁ now₁ bound₁
    obtain ⟨sound₂, since₁⟩ := since₁.run trips sound₁ r₁
    obtain ⟨index, sound₃, since₂⟩ := System.Since.load sound₂ load₂ now₂ bound₂
    -- the second load is one more step after the first aggregate was made
    obtain ⟨call, loads⟩ := load₂.step
    have since₁' := since₁.move sound₂ (System.step_moves sound₂ loads)
    obtain ⟨sound₄, since₁'⟩ := since₁'.run trips sound₃ r₂
    obtain ⟨-, since₂⟩ := since₂.run trips sound₃ r₂
    rw [← version] at since₂
    have same := sound₄.taken_unique (since₁'.taken old₁ committed₁ mem₁ ours₁)
      (since₂.taken old₂ committed₂ mem₂ ours₂)
    obtain ⟨agg, there, -⟩ := since₁.bound
    have lt := (List.getElem?_eq_some_iff.mp there).1
    omega

/-- Accounts that events of a natural number are deposited to. -/
abbrev accounts : App where
  AggregateType := Unit
  Id := String
  EventType := Unit
  Event := Nat
  State := Nat
  typeOf := fun _ => ()
  apply := fun _ balance amount => some (balance + amount)
  strip := id
  isPrintable := fun _ => true

def deposited : EventSchema accounts where
  eventAlias := "account.deposited"
  version := 1
  eventType := ()
  encoder := fun amount => some (List.replicate amount 0)
  decoder := fun payload => some payload.length

def accountSchemas : EventSchemaRegistry accounts :=
  match ({} : EventSchemaRegistry accounts).register deposited with
  | .ok schemas => schemas.freeze
  | .error _ => {}

def accountsOf (unitOfWork : Nat) : Repository accountSchemas where
  unitOfWork := unitOfWork
  category := "account"
  aggregateFactory := fun id => some ((), id, 0)
  aggregateType := ()
  idEncoder := some
  frozen := rfl
  page := by decide

/-- An account with one deposit, and two units of work that are entered behind it. -/
def openedAccount : List (Action accountSchemas) :=
  [.unitOfWork, .enter 0, .resume 0, .construct () "a" 0, .raiseEvent 0 5 ⟨1, 0, none, none, ∅⟩,
    .save (accountsOf 0) 0, .commit 0, .resume 0, .unitOfWork, .unitOfWork, .enter 1, .enter 2,
    .resume 1, .resume 2]

def concurrentDeposits : List (Action accountSchemas) :=
  [.raiseEvent 1 7 ⟨2, 0, none, none, ∅⟩, .raiseEvent 2 9 ⟨3, 0, none, none, ∅⟩,
    .save (accountsOf 1) 1, .save (accountsOf 2) 2, .commit 1, .commit 2, .resume 1, .resume 2]

/-- The version of each account, whether it is faulted, and its balance. -/
def balances (w : System accounts) : List (Nat × Bool × Nat) :=
  w.aggregates.map fun agg => (agg.version, agg.faulted, agg.state)

lemma accountSchemas_roundTrips : accountSchemas.RoundTrips := by
  intro eventType schema known event payload _ encoded
  have registered : accountSchemas.byClass.lookup eventType = some deposited := rfl
  cases known.symm.trans registered
  cases encoded
  exact congrArg some (List.length_replicate ..)

theorem aggregates_simulate_streams_concurrent :
    ∃ (w w₁ w₃ w₄ : System accounts) (uow₁ uow₂ : UnitOfWork accounts),
      exec (System.step accountSchemas) (System.start {}) openedAccount = some w ∧
      w.perform (.load (accountsOf 1) "a") = some (.loaded 1, w₁) ∧
      w₁.perform (.get (accountsOf 2) "a") = some (.loaded 2, w₃) ∧
      exec (System.step accountSchemas) w₃ concurrentDeposits = some w₄ ∧
      balances w₄ = [(1, false, 5), (2, false, 12), (1, true, 14)] ∧
      w₄.uows[1]? = some uow₁ ∧ w₄.uows[2]? = some uow₂ ∧ uow₁.state = .committed ∧
      ¬ (uow₁.state = .committed ∧ uow₂.state = .committed) := by
  have loads : ((exec (System.step accountSchemas) (System.start {}) openedAccount).bind fun w =>
      (w.perform (.load (accountsOf 1) "a")).bind fun r₁ =>
      (r₁.2.perform (.get (accountsOf 2) "a")).map fun r₃ =>
        ((r₁.1, r₁.2.aggregates[1]?.map fun agg => (agg.streamId, agg.version)),
          (r₃.1, r₃.2.aggregates[2]?.map fun agg => (agg.streamId, agg.version)))) =
      some ((.loaded 1, some (some ⟨"account", "a"⟩, 1)),
        (.loaded 2, some (some ⟨"account", "a"⟩, 1))) := by
    decide +kernel
  have deposits : ((exec (System.step accountSchemas) (System.start {}) openedAccount).bind fun w =>
      (w.perform (.load (accountsOf 1) "a")).bind fun r₁ =>
      (r₁.2.perform (.get (accountsOf 2) "a")).bind fun r₃ =>
      (exec (System.step accountSchemas) r₃.2 concurrentDeposits).bind fun w₄ =>
      w₄.uows[1]?.bind fun uow₁ => w₄.uows[2]?.map fun uow₂ =>
        ((uow₁.plans.map (·.aggregate), uow₂.plans.map (·.aggregate)), uow₁.state, balances w₄)) =
      some (([1], [2]), .committed, [(1, false, 5), (2, false, 12), (1, true, 14)]) := by
    decide +kernel
  simp only [Option.bind_eq_some_iff, Option.map_eq_some_iff, Prod.mk.injEq] at loads
  obtain ⟨w, opened, ⟨_, w₁⟩, load₁, ⟨_, w₃⟩, load₃,
    ⟨loaded₁, agg₁, now₁, bound₁, version₁⟩, loaded₃, agg₂, now₂, bound₂, version₂⟩ := loads
  subst loaded₁
  subst loaded₃
  simp only [opened, load₁, load₃, Option.bind_some, Option.bind_eq_some_iff,
    Option.map_eq_some_iff, Prod.mk.injEq] at deposits
  obtain ⟨w₄, deposits, uow₁, old₁, uow₂, old₂, ⟨plans₁, plans₂⟩, committed₁, aggregates⟩ :=
    deposits
  have planned : ∀ {uow : UnitOfWork accounts} {a : Nat}, uow.plans.map (·.aggregate) = [a] →
      ∃ plan ∈ uow.plans, plan.aggregate = a := by
    intro uow a h
    have mem : a ∈ uow.plans.map (·.aggregate) := by
      rw [h]
      exact List.mem_singleton_self a
    exact List.mem_map.mp mem
  obtain ⟨-, -, apart⟩ :=
    aggregates_simulate_streams accountSchemas_roundTrips (Reach.of_exec .refl opened)
  have both := apart (accountsOf 1) (accountsOf 2) "a" "a" 1 2 w₁ w₁ w₃ w₄ agg₁ agg₂
    ⟨"account", "a"⟩ (.inl load₁) now₁ bound₁ .refl (.inr load₃) now₂ bound₂
    (version₁.trans version₂.symm) (Reach.of_exec .refl deposits) 1 2 uow₁ uow₂ old₁ old₂
    (planned plans₁) (planned plans₂)
  exact ⟨w, w₁, w₃, w₄, uow₁, uow₂, opened, load₁, load₃, deposits, aggregates, old₁, old₂,
    committed₁, both⟩

end ToriPy.EventSourcing
