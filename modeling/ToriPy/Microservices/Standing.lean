import ToriPy.Microservices.Books

/-!
# Servers and suspended removals

What the books have to do with the status of the servers and with the calls of `close` that are
suspended. A server that is not running has no consumer, one that was not started has no record, and
a prepared server finds its queues. A suspended `close` left a server without consumers, whose
records are all in the queues that it has yet to visit, and a name that no listed queue has.

`Origin` says where the queues of changed books come from. It is what carries all of this from one
state to the next: a change only has to say which servers may gain records or consumers and which
names may be listed.
-/

namespace ToriPy.Microservices

/-- The name of the queue of a broadcast subscription that is not reliable. -/
def Ephemeral (name : String) : Prop :=
  ∃ subscription : EventSubscription, subscription.mode = .broadcast ∧
    subscription.reliable = false ∧ name = eventQueueName subscription

namespace Books

def Lists (books : Books) (name : String) : Prop :=
  ∃ (id : QueueId) (queue : QueueBook), books.queues[id]? = some queue ∧ queue.listed = true ∧
    queue.name = name

def Idle (books : Books) (id : ServerId) : Prop := ∀ record ∈ books.records, record.server ≠ id

/-! ### Where queues come from -/

/-- What a queue may become: its records and consumers go away, but for those of `fed` servers. -/
structure Came (fed : ServerId → Prop) (ephemeral : List String) (queue queue' : QueueBook) :
    Prop where
  name : queue'.name = queue.name
  listed : queue'.listed = true → queue.listed = true
  unlisted : queue'.listed = false → queue.listed = false ∨ queue.name ∈ ephemeral
  deliveries : ∀ record ∈ queue'.deliveries, record ∈ queue.deliveries ∨ fed record.server
  consumers : ∀ {replicaId : String} {consumer' : Consumer},
    queue'.consumers.lookup replicaId = some consumer' →
      (∃ consumer, queue.consumers.lookup replicaId = some consumer ∧
        consumer.server = consumer'.server) ∨ fed consumer'.server

lemma Came.refl {fed ephemeral} (queue : QueueBook) : Came fed ephemeral queue queue where
  name := rfl
  listed := fun listed => listed
  unlisted := .inl
  deliveries := fun _ mem => .inl mem
  consumers := fun h => .inl ⟨_, h, rfl⟩

/-- A queue that is new, with its name. -/
structure New (named : String → Prop) (queue : QueueBook) : Prop where
  name : named queue.name
  listed : queue.listed = true
  deliveries : queue.deliveries = []
  consumers : ∀ replicaId, queue.consumers.lookup replicaId = none

/-- Each queue came from the queue with its identity or is new. -/
structure Origin (fed : ServerId → Prop) (named : String → Prop) (books books' : Books) :
    Prop where
  queue : ∀ {id : QueueId} {queue' : QueueBook}, books'.queues[id]? = some queue' →
    (∃ queue, books.queues[id]? = some queue ∧ Came fed books.ephemeralQueues queue queue') ∨
      books.queues[id]? = none ∧ New named queue'

abbrev Shrinks (books books' : Books) : Prop :=
  Origin (fun _ => False) (fun _ => False) books books'

variable {f : QueueBook → QueueBook}

section
variable {fed : ServerId → Prop} {named : String → Prop} {books books' : Books}

lemma Origin.of_queues (same : books'.queues = books.queues) : Origin fed named books books' := by
  constructor
  intro id queue h
  rw [same] at h
  exact .inl ⟨queue, h, .refl queue⟩

lemma Origin.modifyQueue {id : QueueId} (changed : books'.queues = books.queues.modify id f)
    (came : ∀ queue, books.queues[id]? = some queue →
      Came fed books.ephemeralQueues queue (f queue)) : Origin fed named books books' := by
  constructor
  intro other queue' h
  rw [changed] at h
  rcases modify_cases h with ⟨-, hqueue⟩ | ⟨rfl, queue, hqueue, rfl⟩
  · exact .inl ⟨queue', hqueue, .refl queue'⟩
  · exact .inl ⟨queue, hqueue, came queue hqueue⟩

lemma Origin.quiet (origin : Origin fed named books books') {id} (quiet : books.Quiet id)
    (starved : ¬ fed id) : books'.Quiet id := by
  intro queueId queue' replicaId consumer h hconsumer same
  rcases origin.queue h with ⟨_, hqueue, came⟩ | ⟨-, new⟩
  · rcases came.consumers hconsumer with ⟨_, hold, eq⟩ | hfed
    · exact quiet hqueue hold (eq.trans same)
    · exact starved (same ▸ hfed)
  · rw [new.consumers] at hconsumer
    cases hconsumer

lemma Origin.idle (origin : Origin fed named books books') {id} (idle : books.Idle id)
    (starved : ¬ fed id) : books'.Idle id := by
  intro record mem same
  obtain ⟨queueId, _, h, mem⟩ := mem_records.mp mem
  rcases origin.queue h with ⟨queue, hqueue, came⟩ | ⟨-, new⟩
  · rcases came.deliveries record mem with mem | hfed
    · exact idle record (mem_records.mpr ⟨queueId, queue, hqueue, mem⟩) same
    · exact starved (same ▸ hfed)
  · rw [new.deliveries] at mem
    cases mem

lemma Origin.unlisted (origin : Origin fed named books books') {name}
    (unlisted : books.Unlisted name) (unnamed : ¬ named name) : books'.Unlisted name := by
  intro id queue' h listed same
  rcases origin.queue h with ⟨_, hqueue, came⟩ | ⟨-, new⟩
  · exact unlisted hqueue (came.listed listed) (came.name.symm.trans same)
  · exact unnamed (same ▸ new.name)

end

/-! ### Suspended removals -/

/-- A `stop_server` that requeues has yet to visit the queues `rest`. -/
structure Stopping (books : Books) (id : ServerId) (rest : List QueueId) : Prop where
  records : ∀ {queueId : QueueId} {queue : QueueBook} {record : DeliveryRecord},
    books.queues[queueId]? = some queue → record ∈ queue.deliveries → record.server = id →
      queueId ∈ rest
  names : rest.Pairwise fun i j => ∀ {queue queue' : QueueBook}, books.queues[i]? = some queue →
    books.queues[j]? = some queue' → queue.name ≠ queue'.name
  known : ∀ i ∈ rest, ∃ queue, books.queues[i]? = some queue

/-- What holds while a `close` is suspended. -/
structure Halted (books : Books) (closing : Closing) : Prop where
  quiet : books.Quiet closing.server
  removing : ∀ {name : String} {rest : List QueueId} {last : Bool},
    closing.stage = .removing name rest last → books.Unlisted name ∧
      books.Stopping closing.server rest

section
variable {fed : ServerId → Prop} {named : String → Prop} {books books' : Books}

lemma Origin.stopping (origin : Origin fed named books books') {id rest}
    (stopping : books.Stopping id rest) (starved : ¬ fed id)
    (kept : ∀ i ∈ rest, ∃ queue, books'.queues[i]? = some queue) : books'.Stopping id rest where
  records := by
    intro queueId queue' record h mem same
    rcases origin.queue h with ⟨queue, hqueue, came⟩ | ⟨-, new⟩
    · rcases came.deliveries record mem with mem | hfed
      · exact stopping.records hqueue mem same
      · exact absurd (same ▸ hfed) starved
    · rw [new.deliveries] at mem
      cases mem
  names := by
    -- A queue of the list was there before, so it has its name from before.
    have old : ∀ {i : QueueId} {queue'}, i ∈ rest → books'.queues[i]? = some queue' →
        ∃ queue, books.queues[i]? = some queue ∧ queue'.name = queue.name := by
      intro i queue' mem h
      obtain ⟨known, hknown⟩ := stopping.known i mem
      rcases origin.queue h with ⟨queue, hqueue, came⟩ | ⟨absent, -⟩
      · exact ⟨queue, hqueue, came.name⟩
      · rw [hknown] at absent
        cases absent
    refine stopping.names.imp_of_mem ?_
    intro i j hi hj apart queue queue' h h' same
    obtain ⟨_, hbefore, name⟩ := old hi h
    obtain ⟨_, hbefore', name'⟩ := old hj h'
    exact apart hbefore hbefore' (name.symm.trans (same.trans name'))
  known := kept

lemma Origin.halted (origin : Origin fed named books books') {closing}
    (halted : books.Halted closing) (starved : ¬ fed closing.server)
    (unnamed : ∀ {name} {rest : List QueueId} {last},
      closing.stage = .removing name rest last → ¬ named name)
    (kept : ∀ {i : QueueId} {queue}, books.queues[i]? = some queue →
      ∃ queue', books'.queues[i]? = some queue') : books'.Halted closing where
  quiet := origin.quiet halted.quiet starved
  removing := by
    intro name rest last stage
    obtain ⟨unlisted, stopping⟩ := halted.removing stage
    refine ⟨origin.unlisted unlisted (unnamed stage), origin.stopping stopping starved ?_⟩
    intro i mem
    obtain ⟨_, hqueue⟩ := stopping.known i mem
    exact kept hqueue

end

/-! ### Sound books -/

/-- What the status of a server says about the books. -/
structure Standing (books : Books) (closing : List Closing) (id : ServerId) (server : ServerBook) :
    Prop where
  quiet : server.status ≠ .running → books.Quiet id
  idle : server.status = .created ∨ server.status = .prepared → books.Idle id
  unnamed : server.registered = false → server.status = .created → server.queueNames = []
  registered : server.status = .prepared → server.registered = true
  names : server.status = .created ∨ server.status = .prepared → server.registered = true →
    (∀ c ∈ closing, c.server ≠ id) → ∀ name ∈ server.queueNames, books.Lists name

lemma Quiet.standing {books : Books} {closing id} {server : ServerBook} (quiet : books.Quiet id)
    (late : server.status ≠ .created ∧ server.status ≠ .prepared) :
    books.Standing closing id server where
  quiet _ := quiet
  idle early := absurd early (not_or.mpr late)
  unnamed _ created := absurd created late.1
  registered prepared := absurd prepared late.2
  names early := absurd early (not_or.mpr late)

/-- The books with the calls of `close` that are suspended. -/
structure Sound (books : Books) (closing : List Closing) : Prop where
  balanced : books.Balanced
  standing : ∀ {id : ServerId} {server : ServerBook}, books.servers[id]? = some server →
    books.Standing closing id server
  halted : ∀ c ∈ closing, books.Halted c
  ephemeral : ∀ name ∈ books.ephemeralQueues, Ephemeral name
  discarded : ∀ {id : QueueId} {queue : QueueBook}, books.queues[id]? = some queue →
    queue.listed = false → Ephemeral queue.name

section
variable {fed : ServerId → Prop} {named : String → Prop} {books books' : Books}
  {closing : List Closing} {id : ServerId}

lemma sound_empty : Sound {} [] where
  balanced := balanced_empty
  standing := by simp
  halted := by simp
  ephemeral := by simp
  discarded := by simp

variable {server : ServerBook} {queue : QueueBook} {queueId : QueueId} {name : String}

lemma Standing.transport {server'} (standing : books.Standing closing id server)
    (origin : Origin fed named books books') (starved : server.status ≠ .running → ¬ fed id)
    (status : server'.status = server.status) (registered : server'.registered = server.registered)
    (names : ∀ name ∈ server'.queueNames, name ∈ server.queueNames)
    (lists : server.registered = true → (∀ c ∈ closing, c.server ≠ id) →
      ∀ name ∈ server'.queueNames, books.Lists name → books'.Lists name) :
    books'.Standing closing id server' where
  quiet := by
    rw [status]
    exact fun other => origin.quiet (standing.quiet other) (starved other)
  idle := by
    rw [status]
    intro early
    refine origin.idle (standing.idle early) (starved ?_)
    rcases early with early | early
    · rw [early]
      decide
    · rw [early]
      decide
  unnamed := by
    rw [status, registered]
    intro absent created
    apply List.eq_nil_iff_forall_not_mem.mpr
    intro name mem
    have old := names name mem
    rw [standing.unnamed absent created] at old
    cases old
  registered := by
    rw [status, registered]
    exact standing.registered
  names := by
    rw [status, registered]
    intro early present others name mem
    exact lists present others name mem (standing.names early present others name (names name mem))

lemma Sound.change (sound : books.Sound closing) (origin : Origin fed named books books')
    (balanced : books'.Balanced)
    (kept : ∀ {i : QueueId} {queue}, books.queues[i]? = some queue →
      ∃ queue', books'.queues[i]? = some queue')
    (starved : ∀ c ∈ closing, ¬ fed c.server)
    (unnamed : ∀ c ∈ closing, ∀ {name} {rest : List QueueId} {last},
      c.stage = .removing name rest last → ¬ named name)
    (ephemeral : ∀ name ∈ books'.ephemeralQueues, name ∈ books.ephemeralQueues ∨ Ephemeral name)
    (standing : ∀ {id : ServerId} {server}, books'.servers[id]? = some server →
      books'.Standing closing id server) : books'.Sound closing where
  balanced := balanced
  standing := standing
  halted := fun c mem => origin.halted (sound.halted c mem) (starved c mem) (unnamed c mem) kept
  ephemeral := by
    intro name mem
    rcases ephemeral name mem with mem | new
    · exact sound.ephemeral name mem
    · exact new
  discarded := by
    intro queueId queue' h gone
    rcases origin.queue h with ⟨_, hqueue, came⟩ | ⟨-, new⟩
    · rw [came.name]
      rcases came.unlisted gone with gone | mem
      · exact sound.discarded hqueue gone
      · exact sound.ephemeral _ mem
    · rw [new.listed] at gone
      cases gone

lemma Lists.modify {i : QueueId} (lists : books.Lists name)
    (changed : books'.queues = books.queues.modify i f)
    (same : ∀ queue, books.queues[i]? = some queue →
      (f queue).name = queue.name ∧ (f queue).listed = queue.listed) : books'.Lists name := by
  obtain ⟨j, queue, hqueue, listed, rfl⟩ := lists
  rw [Lists, changed]
  by_cases eq : i = j
  · subst eq
    obtain ⟨hname, hlisted⟩ := same queue hqueue
    exact ⟨i, f queue, modify_new hqueue, hlisted.trans listed, hname⟩
  · exact ⟨j, queue, (modify_other eq).trans hqueue, listed, rfl⟩

/-! ### Entries -/

section
variable (sound : books.Sound closing)
include sound

lemma Sound.modifyServer {f} (balanced : (books.modifyServer id f).Balanced)
    (standing : ∀ {server}, books.servers[id]? = some server →
      books.Standing closing id (f server)) : (books.modifyServer id f).Sound closing := by
  have origin : Shrinks books (books.modifyServer id f) := .of_queues rfl
  refine sound.change origin balanced (fun h => ⟨_, h⟩) (fun _ _ => not_false)
    (fun _ _ _ _ _ _ => not_false) (fun _ mem => .inl mem) ?_
  intro other server h
  rcases modify_cases h with ⟨-, hserver⟩ | ⟨rfl, _, hserver, rfl⟩
  · exact (sound.standing hserver).transport origin (fun _ => not_false) rfl rfl
      (fun _ mem => mem) fun _ _ _ _ lists => lists
  · have standing := standing hserver
    exact ⟨standing.quiet, standing.idle, standing.unnamed, standing.registered, standing.names⟩

lemma Sound.claim {f} (balanced : (books.modifyServer id f).Balanced)
    (hserver : books.servers[id]? = some server) (created : server.status = .created)
    (lists : books.Lists name) (registered : (f server).registered = true)
    (names : (f server).queueNames = server.queueNames.insert name) :
    (books.modifyServer id f).Sound closing := by
  refine sound.modifyServer balanced fun {old} hold => ?_
  cases hserver.symm.trans hold
  have standing := sound.standing hserver
  refine ⟨fun _ => standing.quiet (created ▸ by decide), fun _ => standing.idle (.inl created),
    fun absent => ?_, fun _ => registered, ?_⟩
  · rw [registered] at absent
    cases absent
  intro _ _ others other mem
  rw [names, List.mem_insert_iff] at mem
  rcases mem with rfl | mem
  · exact lists
  cases before : server.registered with
  | true => exact standing.names (.inl created) before others other mem
  | false =>
    rw [standing.unnamed before created] at mem
    cases mem

lemma Sound.addServer (replicaId : String) (prefetch : Nat) :
    (books.addServer { replicaId, prefetch }).Sound closing := by
  have origin : Shrinks books (books.addServer { replicaId, prefetch }) := .of_queues rfl
  refine sound.change origin (sound.balanced.addServer replicaId prefetch) (fun h => ⟨_, h⟩)
    (fun _ _ => not_false) (fun _ _ _ _ _ _ => not_false) (fun _ mem => .inl mem) ?_
  intro other server h
  rcases concat_cases h with hserver | ⟨rfl, rfl⟩
  · exact (sound.standing hserver).transport origin (fun _ => not_false) rfl rfl
      (fun _ mem => mem) fun _ _ _ _ lists => lists
  -- No consumer and no record is one of a server that was not there.
  have absent : ∀ {server}, books.servers[books.servers.length]? ≠ some server := by
    intro server h
    exact Nat.lt_irrefl _ (List.getElem?_eq_some_iff.mp h).1
  refine ⟨fun _ => ?_, fun _ => ?_, fun _ _ => rfl, nofun, fun _ => nofun⟩
  · intro queueId queue replicaId consumer hqueue hconsumer same
    obtain ⟨-, -, owner, howner, -⟩ := sound.balanced.consumer hqueue hconsumer
    exact absent (same ▸ howner)
  · intro record mem same
    obtain ⟨_, _, hqueue, mem⟩ := mem_records.mp mem
    obtain ⟨-, _, howner, -⟩ := sound.balanced.record hqueue mem
    exact absent (same ▸ howner)

lemma Sound.addQueue (unlisted : books.Unlisted name)
    (other : ∀ c ∈ closing, ∀ {removed} {rest : List QueueId} {last},
      c.stage = .removing removed rest last → removed ≠ name) :
    (books.addQueue name).Sound closing := by
  have origin : Origin (fun _ => False) (· = name) books (books.addQueue name) := by
    constructor
    intro id queue' h
    rcases concat_cases h with hqueue | ⟨rfl, rfl⟩
    · exact .inl ⟨queue', hqueue, .refl queue'⟩
    · refine .inr ⟨List.getElem?_eq_none_iff.mpr le_rfl, rfl, rfl, rfl, fun _ => rfl⟩
  refine sound.change origin (sound.balanced.addQueue unlisted) (fun h => ⟨_, concat_old h⟩)
    (fun _ _ => not_false) other (fun _ mem => .inl mem) ?_
  intro id server h
  refine (sound.standing h).transport origin (fun _ => not_false) rfl rfl (fun _ mem => mem) ?_
  rintro - - n - ⟨i, queue, hqueue, rest⟩
  exact ⟨i, queue, concat_old hqueue, rest⟩

lemma Sound.addEphemeral {names}
    (ephemeral : ∀ name ∈ names, name ∈ books.ephemeralQueues ∨ Ephemeral name) :
    { books with ephemeralQueues := names }.Sound closing := by
  have origin : Shrinks books { books with ephemeralQueues := names } := .of_queues rfl
  have balanced := sound.balanced
  refine sound.change origin ⟨balanced.names, balanced.replicas, balanced.record,
    balanced.deliveries, balanced.remembered, balanced.inFlight, balanced.consumer,
    balanced.settled⟩ (fun h => ⟨_, h⟩) (fun _ _ => not_false) (fun _ _ _ _ _ _ => not_false)
    ephemeral ?_
  intro id server h
  exact (sound.standing h).transport origin (fun _ => not_false) rfl rfl
    (fun _ mem => mem) fun _ _ _ _ lists => lists

lemma Sound.running {replicaId consumer} (hqueue : books.queues[queueId]? = some queue)
    (hconsumer : queue.consumers.lookup replicaId = some consumer)
    (hserver : books.servers[consumer.server]? = some server) :
    server.status = .running ∧ ∀ c ∈ closing, c.server ≠ consumer.server := by
  refine ⟨?_, ?_⟩
  · by_contra other
    exact (sound.standing hserver).quiet other hqueue hconsumer rfl
  · intro c mem same
    exact (sound.halted c mem).quiet hqueue hconsumer same.symm

lemma Sound.put {replicaId} {consumer : Consumer} {record : DeliveryRecord}
    (hqueue : books.queues[queueId]? = some queue)
    (hconsumer : queue.consumers.lookup replicaId = some consumer)
    (hrecord : record.server = consumer.server) (fresh : record.delivery = books.nextDelivery)
    (hserver : books.servers[record.server]? = some server)
    (room : server.inFlight < server.prefetch) :
    (books.put queueId queue.name replicaId consumer record).Sound closing := by
  obtain ⟨running, others⟩ := sound.running hqueue hconsumer (hrecord ▸ hserver)
  have origin : Origin (· = record.server) (fun _ => False) books
      (books.put queueId queue.name replicaId consumer record) := by
    refine .modifyQueue rfl fun old _ => ⟨rfl, fun listed => listed, .inl, ?_, ?_⟩
    · intro other mem
      rcases List.mem_append.mp mem with mem | mem
      · exact .inl mem
      · exact .inr (List.mem_singleton.mp mem ▸ rfl)
    · intro key other h
      rcases Dict.insert_cases h with ⟨-, rfl⟩ | ⟨-, h⟩
      · exact .inr hrecord.symm
      · exact .inl ⟨other, h, rfl⟩
  refine sound.change origin (sound.balanced.put hqueue hconsumer hrecord fresh hserver room)
    modify_kept (fun c mem same => others c mem (same.trans hrecord))
    (fun _ _ _ _ _ _ => not_false) (fun _ mem => .inl mem) ?_
  intro other changed h
  have lists : ∀ name, books.Lists name →
      (books.put queueId queue.name replicaId consumer record).Lists name := by
    intro name lists
    exact lists.modify rfl fun _ _ => ⟨rfl, rfl⟩
  rcases modify_cases h with ⟨ne, hother⟩ | ⟨rfl, _, hother, rfl⟩
  · exact (sound.standing hother).transport origin (fun _ same => ne same.symm) rfl rfl
      (fun _ mem => mem) fun _ _ name _ => lists name
  · cases hserver.symm.trans hother
    exact (sound.standing hother).transport origin (fun stopped => absurd running stopped) rfl rfl
      (fun _ mem => mem) fun _ _ name _ => lists name

lemma Sound.take {g} {taken : List DeliveryRecord} {settled : List DeliveryId}
    (hqueue : books.queues[queueId]? = some queue) (hserver : books.servers[id]? = some server)
    (hf : Taken id taken queue (f queue)) (hg : Forgotten taken server (g server))
    (nodup : settled.Nodup) (sub : ∀ delivery ∈ settled, delivery ∈ taken.map (·.delivery)) :
    (books.take queueId f id g settled).Sound closing := by
  have origin : Shrinks books (books.take queueId f id g settled) := by
    refine .modifyQueue rfl fun old hold => ?_
    cases hqueue.symm.trans hold
    refine ⟨hf.name, fun listed => hf.listed ▸ listed, fun gone => .inl (hf.listed ▸ gone), ?_, ?_⟩
    · intro record mem
      exact .inl (hf.deliveries.mem_iff.mpr (List.mem_append_right _ mem))
    · intro key consumer' h
      obtain ⟨consumer, hconsumer, same, -⟩ := hf.consumers h
      exact .inl ⟨consumer, hconsumer, same.symm⟩
  refine sound.change origin (sound.balanced.take hqueue hserver hf hg nodup sub) modify_kept
    (fun _ _ => not_false) (fun _ _ _ _ _ _ => not_false) (fun _ mem => .inl mem) ?_
  intro other changed h
  have lists : ∀ name, books.Lists name → (books.take queueId f id g settled).Lists name := by
    intro name lists
    refine lists.modify rfl fun old hold => ?_
    cases hqueue.symm.trans hold
    exact ⟨hf.name, hf.listed⟩
  rcases modify_cases h with ⟨-, hother⟩ | ⟨rfl, _, hother, rfl⟩
  · exact (sound.standing hother).transport origin (fun _ => not_false) rfl rfl
      (fun _ mem => mem) fun _ _ name _ => lists name
  · cases hserver.symm.trans hother
    exact (sound.standing hother).transport origin (fun _ => not_false) hg.status hg.registered
      (fun _ mem => hg.queueNames ▸ mem) fun _ _ name _ => lists name

def hire (replicaId : String) (consumer : Consumer) (queue : QueueBook) : QueueBook :=
  { queue with consumers := queue.consumers.insert replicaId consumer }

lemma Sound.hire (hqueue : books.queues[queueId]? = some queue)
    (listed : queue.listed = true) (hserver : books.servers[id]? = some server)
    (running : server.status = .running) (owns : server.Owns queue.name) (idle : books.Idle id)
    (others : ∀ c ∈ closing, c.server ≠ id) :
    (books.modifyQueue queueId (Books.hire server.replicaId ⟨id, server.prefetch, 0, true⟩)).Sound
      closing := by
  have origin : Origin (· = id) (fun _ => False) books
      (books.modifyQueue queueId
        (Books.hire server.replicaId ⟨id, server.prefetch, 0, true⟩)) := by
    refine .modifyQueue rfl fun old _ => ⟨rfl, fun listed => listed, .inl, fun _ => .inl, ?_⟩
    intro key other h
    rcases Dict.insert_cases h with ⟨-, rfl⟩ | ⟨-, h⟩
    · exact .inr rfl
    · exact .inl ⟨other, h, rfl⟩
  refine sound.change origin (sound.balanced.modifyConsumers ?_) modify_kept others
    (fun _ _ _ _ _ _ => not_false) (fun _ mem => .inl mem) ?_
  · intro old replicaId consumer hold hconsumer
    cases hqueue.symm.trans hold
    rcases Dict.insert_cases hconsumer with ⟨same, rfl⟩ | ⟨-, hconsumer⟩
    · refine ⟨listed, ?_, server, hserver, owns, same.symm⟩
      have none : queue.deliveries.countP (·.server = id) = 0 := by
        rw [List.countP_eq_zero]
        intro record mem same
        exact idle record (mem_records.mpr ⟨queueId, queue, hqueue, mem⟩) (of_decide_eq_true same)
      rw [none]
      rfl
    · exact sound.balanced.consumer hqueue hconsumer
  · intro other changed h
    have lists : ∀ name, books.Lists name → (books.modifyQueue queueId
        (Books.hire server.replicaId ⟨id, server.prefetch, 0, true⟩)).Lists name := by
      intro name lists
      exact lists.modify rfl fun _ _ => ⟨rfl, rfl⟩
    refine (sound.standing h).transport origin ?_ rfl rfl (fun _ mem => mem)
      fun _ _ name _ => lists name
    intro stopped same
    subst same
    cases hserver.symm.trans h
    exact stopped running

lemma Sound.unlist (hqueue : books.queues[queueId]? = some queue)
    (ephemeral : queue.name ∈ books.ephemeralQueues)
    (empty : queue.deliveries = [] ∧ ∀ replicaId, queue.consumers.lookup replicaId = none)
    (unowned : ∀ {id : ServerId} {server}, books.servers[id]? = some server →
      server.Owns queue.name → ∃ c ∈ closing, c.server = id) :
    (books.modifyQueue queueId Books.unlist).Sound closing := by
  have origin : Shrinks books (books.modifyQueue queueId Books.unlist) := by
    refine .modifyQueue rfl fun old hold => ?_
    cases hqueue.symm.trans hold
    exact ⟨rfl, nofun, fun _ => .inr ephemeral, fun _ => .inl,
      fun h => .inl ⟨_, h, rfl⟩⟩
  refine sound.change origin (sound.balanced.unlist ?_) modify_kept
    (fun _ _ => not_false) (fun _ _ _ _ _ _ => not_false) (fun _ mem => .inl mem) ?_
  · intro old hold
    cases hqueue.symm.trans hold
    exact empty
  · intro id server h
    refine (sound.standing h).transport origin (fun _ => not_false) rfl rfl (fun _ mem => mem) ?_
    rintro registered others name mem ⟨i, listed, hlisted, here, rfl⟩
    by_cases same : queueId = i
    · subst same
      cases hqueue.symm.trans hlisted
      obtain ⟨c, hc, own⟩ := unowned h ⟨registered, mem⟩
      exact absurd own (others c hc)
    · exact ⟨i, listed, (modify_other same).trans hlisted, here, rfl⟩

lemma Sound.disown (unlisted : books.Unlisted name) :
    { books with servers := books.servers.map (Books.disown name) }.Sound closing := by
  have origin : Shrinks books { books with servers := books.servers.map (Books.disown name) } :=
    .of_queues rfl
  refine sound.change origin (sound.balanced.disown unlisted) (fun h => ⟨_, h⟩)
    (fun _ _ => not_false) (fun _ _ _ _ _ _ => not_false) (fun _ mem => .inl mem) ?_
  intro id server h
  rw [List.getElem?_map] at h
  obtain ⟨_, hold, rfl⟩ := Option.map_eq_some_iff.mp h
  refine (sound.standing hold).transport origin (fun _ => not_false) ?_ ?_ ?_
    fun _ _ _ _ lists => lists
  · unfold Books.disown
    split <;> rfl
  · unfold Books.disown
    split <;> rfl
  intro other mem
  unfold Books.disown at mem
  split at mem
  · exact List.mem_of_mem_erase mem
  · exact mem

end

end

end Books

end ToriPy.Microservices
