import ToriPy.EventSourcing.LostUpdates

/-!
# Upcasting

`decode` brings a stored payload to the current version of its schema, one upcaster for each
version in between. A schema has an upcaster for every source version and a registry takes no
schema with more of them than its limit, so two errors of the loop are never raised: it is the
fold of the upcasters over the versions that are left (`upcast_eq`).
-/

namespace ToriPy.EventSourcing

open List

variable {app : App}

/-- The test of `__post_init__` on the source versions. -/
def contiguousSources (version : ℕ+) (copied : List Nat) : Bool :=
  let sourceVersions := copied.mergeSort (· ≤ ·)
  sourceVersions.length = (version : Nat) - 1 &&
    (sourceVersions.zipIdx 1).all fun source => source.1 = source.2

lemma all_zipIdx_iff (sources : List Nat) (start : Nat) :
    ((sources.zipIdx start).all fun source => source.1 = source.2) ↔
      sources = range' start sources.length := by
  induction sources generalizing start with
  | nil => simp
  | cons source rest ih =>
    simp only [zipIdx_cons, all_cons, Bool.and_eq_true, ih, length_cons, range'_succ, cons.injEq,
      decide_eq_true_eq]

/-- The test is what a schema carries in its field `sources`. -/
lemma contiguousSources_iff (version : ℕ+) (copied : List Nat) :
    contiguousSources version copied ↔ copied.Perm (range' 1 (version - 1)) := by
  simp only [contiguousSources, Bool.and_eq_true, decide_eq_true_eq, all_zipIdx_iff]
  constructor
  · rintro ⟨length, same⟩
    rw [length] at same
    exact same ▸ (mergeSort_perm copied _).symm
  · intro perm
    rw [((mergeSort_perm copied (· ≤ ·)).trans perm).eq_of_pairwise'
      (pairwise_mergeSort' (· ≤ ·) copied) pairwise_le_range']
    simp

namespace EventSchema

/-- What the upcaster of version `k` makes of a payload. -/
def upcaster (schema : EventSchema app) (k : Nat) (payload : Bytes) : Option Bytes :=
  (schema.upcasters.lookup k).bind (· payload)

/-- One call of an upcaster, and the check of what it returns. -/
def upcastOnce (schema : EventSchema app) (limits : EventSourcingLimits) (payload : Bytes)
    (k : Nat) : Except EventSourcingError Bytes :=
  match schema.upcaster k payload with
  | none => .error (.upcasterFailed schema.eventAlias k)
  | some payload => do
    limits.validatePayload payload
    return payload

lemma exists_upcaster (schema : EventSchema app) {k : Nat} (pos : 1 ≤ k) (lt : k < schema.version) :
    ∃ upcaster, schema.upcasters.lookup k = some upcaster := by
  have source : k ∈ schema.upcasters.keys := by
    rw [schema.sources.mem_iff, mem_range'_1]
    omega
  exact Option.isSome_iff_exists.mp (AList.lookup_isSome.mpr source)

end EventSchema

namespace EventSchemaRegistry

variable {schemas : EventSchemaRegistry app} {schema : EventSchema app}

lemma upcast_eq (limits : EventSourcingLimits) (left version steps : Nat) (payload : Bytes)
    (pos : 1 ≤ version) (current : version + left = schema.version)
    (few : steps + left ≤ limits.maxUpcastSteps) :
    upcast limits schema left version steps payload =
      (range' version left).foldlM (schema.upcastOnce limits) payload := by
  induction left generalizing version steps payload with
  | zero => rfl
  | succ left ih =>
    obtain ⟨upcaster, found⟩ := schema.exists_upcaster pos (by omega)
    have step : steps + 1 ≤ (limits.maxUpcastSteps : Nat) := by omega
    simp only [upcast, require, step, found, range'_succ, foldlM_cons, EventSchema.upcastOnce,
      EventSchema.upcaster, Option.bind_some, if_true]
    cases upcaster payload with
    | none => rfl
    | some payload =>
      cases fits : limits.validatePayload payload with
      | error => simp [fits, bind, Except.bind]
      | ok =>
        have rest := ih (version + 1) (steps + 1) payload (by omega) (by omega) (by omega)
        simpa [fits, bind, Except.bind, pure, Except.pure] using rest

lemma foldlM_upcastOnce (limits : EventSourcingLimits) (payloads : Nat → Bytes) (left version : Nat)
    (calls : ∀ k, version ≤ k → k < version + left →
      schema.upcaster k (payloads k) = some (payloads (k + 1)) ∧
        limits.validatePayload (payloads (k + 1)) = .ok ()) :
    (range' version left).foldlM (schema.upcastOnce limits) (payloads version) =
      .ok (payloads (version + left)) := by
  induction left generalizing version with
  | zero => rfl
  | succ left ih =>
    obtain ⟨called, fits⟩ := calls version le_rfl (by omega)
    have rest := ih (version + 1) fun k from' before => calls k (by omega) (by omega)
    rw [Nat.add_right_comm] at rest
    simp only [range'_succ, foldlM_cons, EventSchema.upcastOnce, called, fits, ok_bind]
    exact rest

/-- An error that a step of `decode` can raise. -/
def Raisable (e : EventSourcingError) : Prop :=
  (∀ eventAlias k, e ≠ .missingUpcaster eventAlias k) ∧
    e ≠ .resourceLimit "event upcast step limit exceeded"

lemma validatePayload_raisable (limits : EventSourcingLimits) (payload : Bytes) :
    Ensures Raisable (fun _ => True) (limits.validatePayload payload) := by
  unfold EventSourcingLimits.validatePayload require
  split
  · exact .ok trivial
  · exact .error (by simp [Raisable])

lemma validateHeaders_raisable (limits : EventSourcingLimits) (headers : Dict String String) :
    Ensures Raisable (fun _ => True) (limits.validateHeaders headers) := by
  refine .require_bind (by simp [Raisable]) fun _ => .forM fun header _ => ?_
  refine .require_bind (by simp [Raisable]) fun _ => ?_
  unfold require
  split
  · exact .ok trivial
  · exact .error (by simp [Raisable])

lemma upcastOnce_raisable (limits : EventSourcingLimits) (payload : Bytes) (k : Nat) :
    Ensures Raisable (fun _ => True) (schema.upcastOnce limits payload k) := by
  unfold EventSchema.upcastOnce
  split
  · exact .error (by simp [Raisable])
  · exact (validatePayload_raisable limits _).bind fun _ _ => .ok trivial

/-- The record of a stored event with what was decoded from it. -/
def recorded (stored : StoredEvent) (schema : EventSchema app) (event : app.Event) :
    RecordedEvent app :=
  ⟨stored.streamId, stored.streamVersion, stored.globalPosition, schema.eventAlias, schema.version,
    event, stored.event.metadata⟩

/-- What `decode` does after it has found the schema. -/
def decodeWith (schemas : EventSchemaRegistry app) (schema : EventSchema app)
    (stored : StoredEvent) : Except EventSourcingError (RecordedEvent app) := do
  schemas.limits.validateHeaders stored.event.metadata.headers
  schemas.limits.validatePayload stored.event.encoded.payload
  let version : Nat := stored.event.encoded.schemaVersion
  let payload ← (range' version (schema.version - version)).foldlM
    (schema.upcastOnce schemas.limits) stored.event.encoded.payload
  match schema.decoder payload with
  | none => .error (.decoderFailed schema.eventAlias)
  | some event => do
    require (app.typeOf event = schema.eventType) (.decodedOtherType schema.eventAlias)
    return recorded stored schema event

section Decode

variable {stored : StoredEvent}
  (known : schemas.byAlias.lookup stored.event.encoded.eventType = some schema)
  (le : (stored.event.encoded.schemaVersion : Nat) ≤ schema.version)
include known le

lemma upcast_stored :
    upcast schemas.limits schema (schema.version - stored.event.encoded.schemaVersion)
      stored.event.encoded.schemaVersion 0 stored.event.encoded.payload =
    (range' stored.event.encoded.schemaVersion
      (schema.version - stored.event.encoded.schemaVersion)).foldlM
      (schema.upcastOnce schemas.limits) stored.event.encoded.payload := by
  have few := (schemas.aliased known).2
  have pos := stored.event.encoded.schemaVersion.pos
  exact upcast_eq _ _ _ _ _ pos (Nat.add_sub_of_le le) (by omega)

variable (frozen : schemas.frozen)
include frozen

lemma decode_eq : schemas.decode stored = schemas.decodeWith schema stored := by
  have current : stored.event.encoded.schemaVersion ≤ schema.version := le
  simp only [decode, requireFrozen, require, frozen, known, current, if_true, ok_bind,
    upcast_stored known le]
  rfl

lemma decode_raisable : Ensures Raisable (fun _ => True) (schemas.decode stored) := by
  rw [decode_eq known le frozen]
  refine (validateHeaders_raisable _ _).bind fun _ _ => (validatePayload_raisable _ _).bind fun _ _ =>
    (Ensures.foldlM (fun payload _ k _ => upcastOnce_raisable _ payload k) _ trivial).bind ?_
  intro payload _
  split
  · exact .error (by simp [Raisable])
  · exact .require_bind (by simp [Raisable]) fun _ => .ok trivial

end Decode

/-- A frozen registry decodes an event of a known alias and of any version up to the current one
with one call of the upcaster of each version that is left. Payloads that the upcasters make of
each other end in the one that is decoded, so events that the upcasters migrate are decoded as what
they were migrated to. -/
theorem decode_upcasts (schemas : EventSchemaRegistry app) (schema : EventSchema app)
    (stored : StoredEvent) (frozen : schemas.frozen)
    (known : schemas.byAlias.lookup stored.event.encoded.eventType = some schema)
    (le : (stored.event.encoded.schemaVersion : Nat) ≤ schema.version) :
    let encoded := stored.event.encoded
    let version : Nat := encoded.schemaVersion
    let current : Nat := schema.version
    (∀ eventAlias k, schemas.decode stored ≠ .error (.missingUpcaster eventAlias k)) ∧
    schemas.decode stored ≠ .error (.resourceLimit "event upcast step limit exceeded") ∧
    upcast schemas.limits schema (current - version) version 0 encoded.payload =
      (range' version (current - version)).foldlM (schema.upcastOnce schemas.limits)
        encoded.payload ∧
    (schemas.limits.validateHeaders stored.event.metadata.headers = .ok () →
      (∀ payloads : Nat → Bytes, payloads version = encoded.payload →
        (∀ k, version ≤ k → k ≤ current →
          schemas.limits.validatePayload (payloads k) = .ok ()) →
        (∀ k, version ≤ k → k < current →
          schema.upcaster k (payloads k) = some (payloads (k + 1))) →
        ∀ event, schema.decoder (payloads current) = some event →
          app.typeOf event = schema.eventType →
          schemas.decode stored = .ok (recorded stored schema event)) ∧
      ∀ (Version : Nat → Type) (encode : ∀ {k}, Version k → Bytes)
        (migrate : ∀ {k}, Version k → Version (k + 1)) (read : Version current → app.Event)
        (event : Version version), encode event = encoded.payload →
        (∀ k, version ≤ k → k < current → ∀ event : Version k,
          schema.upcaster k (encode event) = some (encode (migrate event))) →
        (∀ event : Version current, schema.decoder (encode event) = some (read event) ∧
          app.typeOf (read event) = schema.eventType) →
        (∀ k, (from' : version ≤ k) → k ≤ current →
          schemas.limits.validatePayload (encode (Nat.leRecOn (C := Version) from' migrate event)) =
            .ok ()) →
        schemas.decode stored =
          .ok (recorded stored schema (read (Nat.leRecOn (C := Version) le migrate event)))) := by
  intro encoded version current
  have raisable := decode_raisable known le frozen
  refine ⟨?_, ?_, ?_, fun headers => (fun chained => ⟨chained, ?_⟩) ?_⟩
  · intro eventAlias k h
    rw [h] at raisable
    cases raisable with
    | error free => exact free.1 eventAlias k rfl
  · intro h
    rw [h] at raisable
    cases raisable with
    | error free => exact free.2 rfl
  · exact upcast_stored known le
  · intro payloads first fits calls event decoded ofType
    have chain := foldlM_upcastOnce schemas.limits payloads (current - version) version
      fun k from' before => ⟨calls k from' (by omega), fits (k + 1) (by omega) (by omega)⟩
    have start := fits version le_rfl le
    rw [Nat.add_sub_of_le le, first] at chain
    rw [first] at start
    dsimp only [current, version, encoded] at start chain decoded
    simp only [decode_eq known le frozen, decodeWith, headers, start, ok_bind, chain, decoded,
      require, ofType, if_true]
    rfl
  · intro Version encode migrate read event written commutes decoder fits
    let payloads (k : Nat) : Bytes :=
      if from' : version ≤ k then encode (Nat.leRecOn (C := Version) from' migrate event) else []
    have at_ : ∀ k (from' : version ≤ k),
        payloads k = encode (Nat.leRecOn (C := Version) from' migrate event) :=
      fun k from' => dif_pos from'
    refine chained payloads ?_ ?_ ?_ _ ?_ (decoder _).2
    · rw [at_ version le_rfl, Nat.leRecOn_self, written]
    · intro k from' upTo
      rw [at_ k from']
      exact fits k from' upTo
    · intro k from' before
      rw [at_ k from', at_ (k + 1) (Nat.le_succ_of_le from'), Nat.leRecOn_succ from',
        commutes k from' before]
    · rw [at_ current le]
      exact (decoder _).1

/-- Deposits whose first version counted in units of two. -/
def redenominated : EventSchema accounts :=
  { deposited with
    version := 2
    upcasters := AList.singleton 1 fun payload => some (payload ++ payload)
    sources := .refl _ }

lemma redenominated_aliased {eventAlias schema} (h : (AList.singleton "account.deposited"
    redenominated : Dict String (EventSchema accounts)).lookup eventAlias = some schema) :
    schema.eventAlias = eventAlias ∧ (schema.version : Nat) - 1 ≤ 32 := by
  obtain ⟨rfl, rfl⟩ : eventAlias = "account.deposited" ∧ schema = redenominated := by
    simpa [eq_comm] using AList.mem_lookup_iff.mp h
  exact ⟨rfl, by decide⟩

lemma redenominated_classed {eventType : Unit} {schema}
    (h : (∅ : Dict Unit (EventSchema accounts)).lookup eventType = some schema) :
    schema.eventType = eventType ∧ (AList.singleton "account.deposited" redenominated :
      Dict String (EventSchema accounts)).lookup schema.eventAlias = some schema := by
  cases h

def redenominatedSchemas : EventSchemaRegistry accounts where
  byAlias := AList.singleton "account.deposited" redenominated
  frozen := true
  aliased := redenominated_aliased
  classed := redenominated_classed

/-- A deposit of three units that was written under the first version. -/
def oldDeposit : StoredEvent :=
  ⟨⟨"account", "a"⟩, 1, 1, ⟨"account.deposited", 1, List.replicate 3 0⟩, ⟨1, 0, none, none, ∅⟩⟩

theorem decode_upcasts_redenominated :
    redenominatedSchemas.decode oldDeposit = .ok (recorded oldDeposit redenominated 6) := by
  have decoded := decode_upcasts redenominatedSchemas redenominated oldDeposit rfl rfl (by decide)
  refine (decoded.2.2.2 rfl).2 (fun _ => Nat) (fun n => List.replicate n 0) (fun n => n + n) id 3 rfl
    ?_ ?_ ?_
  · intro k from' before n
    obtain rfl : k = 1 := Nat.le_antisymm (Nat.le_of_lt_succ before) from'
    exact congrArg some List.replicate_append_replicate
  · exact fun n => ⟨congrArg some List.length_replicate, rfl⟩
  · intro k from' upTo
    obtain before | rfl := Nat.lt_or_eq_of_le upTo
    · obtain rfl : k = 1 := Nat.le_antisymm (Nat.le_of_lt_succ before) from'
      rfl
    · rfl

end EventSchemaRegistry

end ToriPy.EventSourcing
