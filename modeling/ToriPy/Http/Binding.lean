import ToriPy.Base.Except
import ToriPy.Base.Text

/-!
# Binding arguments in both adapters

`_bind_arguments` of the native and of the Starlette adapter, over what each of them uses of a
request (`Adapter`). They differ in where the media type of a body comes from: Starlette takes the
first `content-type` header, while the native adapter takes the text of the Python list when there
are several. `adapters_bind_alike_iff` says that this is the only difference.
-/

namespace ToriPy.Http

open List

/-! ### Python texts, over the characters that a Latin-1 header can have -/

/-- `str.isspace` of a character. -/
def isWhitespace (c : Char) : Bool :=
  isSpace c || (28 ≤ c.toNat && c.toNat ≤ 31) || c.toNat = 133 || c.toNat = 160

/-- `str.casefold`. -/
def casefold (text : List Char) : List Char :=
  text.flatMap fun c =>
    if 'A' ≤ c ∧ c ≤ 'Z' ∨ 'À' ≤ c ∧ c ≤ 'Þ' ∧ c ≠ '×' then [Char.ofNat (c.toNat + 32)]
    else if c = 'ß' then ['s', 's']
    else if c = 'µ' then ['μ']
    else [c]

/-- A character in the `repr` of a text between quotes. -/
def reprChar (quote c : Char) : List Char :=
  if c = quote ∨ c = '\\' then ['\\', c]
  else if c = '\t' then ['\\', 't']
  else if c = '\n' then ['\\', 'n']
  else if c = '\r' then ['\\', 'r']
  else if c.toNat < 32 ∨ 127 ≤ c.toNat ∧ c.toNat ≤ 160 ∨ c.toNat = 173 then
    ['\\', 'x'] ++ fixedDigits 16 2 c.toNat
  else [c]

/-- `repr` of a text: in single quotes, unless it has those and no double ones. -/
def reprText (text : List Char) : List Char :=
  let quote := if Char.ofNat 39 ∈ text ∧ Char.ofNat 34 ∉ text then Char.ofNat 34 else Char.ofNat 39
  [quote] ++ text.flatMap (reprChar quote) ++ [quote]

/-- `str` of a list of texts. -/
def reprList (texts : List (List Char)) : List Char :=
  ['['] ++ [',', ' '].intercalate (texts.map reprText) ++ [']']

/-! ### Plans and requests -/

/-- Where a parameter comes from (`ParameterPlan.kind` and `source`). -/
inductive RequestBinding where
  | query (source : List Char)
  | header (source : List Char)
  | body
  | bodyStream (maxBytes : Nat)
deriving DecidableEq

def RequestBinding.kind : RequestBinding → String
  | .query _ => "query"
  | .header _ => "header"
  | .body => "body"
  | .bodyStream _ => "body_stream"

/-- A parameter that is bound from the request, with its default. -/
structure RequestParameter (D : Type) where
  name : String
  binding : RequestBinding
  default : Option D

/-- What `compile_controller_routes` makes of the bindings of a route: it rejects a second body and
a body in a route that takes none. -/
structure BindingPlan (D : Type) where
  parameters : List (RequestParameter D)
  rejectsBody : Bool
  one_body : parameters.Pairwise fun p p' => p.binding = .body → p'.binding ≠ .body
  no_body : rejectsBody = true → ∀ p ∈ parameters, p.binding ≠ .body

/-- A request: its headers by casefolded name, its query and the bodies of its messages. -/
structure BindingRequest where
  headers : List (List Char × List Char)
  query : List (List Char × List Char)
  messages : List Bytes
  messages_ne : messages ≠ []

def valuesOf (items : List (List Char × List Char)) (name : List Char) : List (List Char) :=
  (items.filter (·.1 = name)).map (·.2)

/-- What a parameter is bound to. -/
inductive Argument (V D : Type) where
  | text (value : List Char)
  | texts (values : List (List Char))
  | json (value : V)
  | stream (maxBytes : Nat)
  | default (value : D)

/-- What binding raises: an `HttpException`, or what `json.loads` raises beside decoding errors. -/
inductive BindError where
  | http (statusCode : Nat) (detail : String)
  | foreign

def BindError.status : BindError → Option Nat
  | .http statusCode _ => some statusCode
  | .foreign => none

/-- The two kinds of exceptions of `json.loads`. -/
inductive LoadsError where
  | malformed
  | foreign

/-- What an adapter uses of a request. -/
structure Adapter where
  headerValues : List Char → List (List Char)
  queryValues : List Char → List (List Char)
  contentType : List Char
  bodies : List Bytes

/-- `_collapse_values`. -/
def collapseValues {V D : Type} : List (List Char) → Option (Argument V D)
  | [] => none
  | [value] => some (.text value)
  | values => some (.texts values)

/-- The loop over the chunks of a body, with a limit on their size. -/
def collect (limit : Nat) (error : BindError) (size : Nat) (chunks : Bytes) :
    List Bytes → Except BindError Bytes
  | [] => .ok chunks
  | chunk :: rest =>
    if limit < size + chunk.length then .error error
    else collect limit error (size + chunk.length) (chunks ++ chunk) rest

/-- The test of the media type in `_read_json_body`. -/
def jsonMedia (contentType : List Char) : Bool :=
  let mediaType := casefold (stripChars isWhitespace (contentType.takeWhile (· ≠ ';')))
  mediaType = "application/json".toList || "+json".toList.isSuffixOf mediaType

namespace Adapter
variable {V D : Type} (adapter : Adapter) (loads : Bytes → Except LoadsError V) (limit : Nat)

/-- The body of the request, within the limit of the application. -/
def readBody : Except BindError Bytes :=
  collect limit (.http 413 "Request body exceeds the configured limit.") 0 [] adapter.bodies

/-- `_reject_request_body`. -/
def rejectRequestBody : Except BindError Unit := do
  let body ← adapter.readBody limit
  require (body.length = 0) (.http 400 "Request body is not allowed.")

/-- `_read_json_body`, where no body was read before. -/
def readJsonBody : Except BindError V := do
  require (jsonMedia adapter.contentType = true)
    (.http 415 "Request body must use a JSON media type.")
  let body ← adapter.readBody limit
  match loads body with
  | .ok value => return value
  | .error .malformed => .error (.http 400 "Request body contains malformed JSON.")
  | .error .foreign => .error .foreign

/-- A value of the request, or the default of its parameter. -/
def orDefault (parameter : RequestParameter D) (value : Option (Argument V D)) :
    Except BindError (Argument V D) :=
  match value, parameter.default with
  | some value, _ => .ok value
  | none, some value => .ok (.default value)
  | none, none =>
    .error (.http 400 ("Missing required " ++ parameter.binding.kind ++ " value '" ++
      parameter.name ++ "'."))

/-- The value of a parameter in `_bind_arguments`. What the adapters would do at a second body is
left out, since no plan has one. -/
def bindValue (parameter : RequestParameter D) : Except BindError (Argument V D) :=
  match parameter.binding with
  | .body => (adapter.readJsonBody loads limit).map .json
  | .bodyStream maxBytes => .ok (.stream maxBytes)
  | .query source => orDefault parameter (collapseValues (adapter.queryValues source))
  | .header source => orDefault parameter (collapseValues (adapter.headerValues source))

/-- `_bind_arguments`. -/
def bindArguments (plan : BindingPlan D) : Except BindError (List (String × Argument V D)) := do
  if plan.rejectsBody then adapter.rejectRequestBody limit
  plan.parameters.mapM fun parameter =>
    (adapter.bindValue loads limit parameter).map (parameter.name, ·)

end Adapter

def asgi (request : BindingRequest) : Adapter where
  headerValues name := valuesOf request.headers (casefold name)
  queryValues := valuesOf request.query
  contentType :=
    match valuesOf request.headers "content-type".toList with
    | [] => []
    | [value] => value
    | values => reprList values
  bodies := request.messages

/-- What the Starlette adapter uses of the library, as it is documented. -/
structure Starlette where
  headersGet : List (List Char × List Char) → List Char → Option (List Char)
  headersGetlist : List (List Char × List Char) → List Char → List (List Char)
  queryGetlist : List (List Char × List Char) → List Char → List (List Char)
  stream : List Bytes → List Bytes
  get_first : ∀ headers name, headersGet headers name = (headersGetlist headers name).head?
  getlist_all : ∀ headers name, headersGetlist headers name = valuesOf headers (casefold name)
  query_all : queryGetlist = valuesOf
  stream_all : ∀ messages, (stream messages).flatten = messages.flatten

def Starlette.adapter (lib : Starlette) (request : BindingRequest) : Adapter where
  headerValues := lib.headersGetlist request.headers
  queryValues := lib.queryGetlist request.query
  contentType := (lib.headersGet request.headers "content-type".toList).getD []
  bodies := lib.stream request.messages

/-- Draining a body stream. `_iterate` is the same code in `_AsgiBodyStream` and in
`_StarletteBodyStream`, which both take the messages of the server. -/
def drain (maxBytes : Nat) (request : BindingRequest) : Except BindError Bytes :=
  collect maxBytes (.http 413 "Request body exceeds the route limit.") 0 [] request.messages

def asgiDrain : Nat → BindingRequest → Except BindError Bytes := drain

def starletteDrain : Nat → BindingRequest → Except BindError Bytes := drain

/-! ### Where the adapters agree -/

/-- Both bind the same arguments, or both fail with the same status. -/
def SameOutcome {α : Type} : Except BindError α → Except BindError α → Prop
  | .ok a, .ok b => a = b
  | .error e, .error e' => e.status = e'.status
  | _, _ => False

/-- There is a body to bind, and every parameter before it has a value. -/
def ReadsBody {V D : Type} (loads : Bytes → Except LoadsError V) (limit : Nat)
    (request : BindingRequest) (parameters : List (RequestParameter D)) : Prop :=
  (∃ p ∈ parameters, p.binding = .body) ∧
    ∀ p ∈ parameters.takeWhile (·.binding ≠ .body),
      ∃ value, (asgi request).bindValue loads limit p = .ok value

/-- Of several content types, the text of their list is a JSON media type just if the first is. -/
def MediaAgrees (contentTypes : List (List Char)) : Prop :=
  2 ≤ contentTypes.length → jsonMedia (reprList contentTypes) = jsonMedia (contentTypes.headD [])

/-- An adapter gives access to the request. -/
structure Adapter.Serves (adapter : Adapter) (request : BindingRequest) : Prop where
  headers : ∀ name, adapter.headerValues name = valuesOf request.headers (casefold name)
  query : adapter.queryValues = valuesOf request.query
  bodies : adapter.bodies.flatten = request.messages.flatten

variable {V D α : Type} {loads : Bytes → Except LoadsError V} {limit : Nat} {a b : Adapter}
  {request : BindingRequest} {p : RequestParameter D} {plan : BindingPlan D}
  {request' : BindingRequest}

lemma collect_eq {error size} (within : size ≤ limit) (chunks : Bytes) (bodies : List Bytes) :
    collect limit error size chunks bodies =
      if limit < size + bodies.flatten.length then .error error
      else .ok (chunks ++ bodies.flatten) := by
  induction bodies generalizing size chunks with
  | nil => simp [collect, Nat.not_lt.mpr within]
  | cons chunk rest ih =>
    rw [collect]
    split
    · rw [if_pos (by simp; omega)]
    · rw [ih (by omega), flatten_cons, length_append, Nat.add_assoc, append_assoc]

lemma sameOutcome_self (x : Except BindError α) : SameOutcome x x := by
  cases x <;> rfl

lemma sameOutcome_comm {x y : Except BindError α} : SameOutcome x y ↔ SameOutcome y x := by
  cases x <;> cases y <;> first | exact eq_comm | exact Iff.rfl

namespace Adapter.Serves

lemma readBody (sa : a.Serves request) (sb : b.Serves request) :
    a.readBody limit = b.readBody limit := by
  rw [Adapter.readBody, Adapter.readBody, collect_eq (Nat.zero_le _), collect_eq (Nat.zero_le _),
    sa.bodies, sb.bodies]

lemma bindValue (sa : a.Serves request) (sb : b.Serves request)
    (media : p.binding = .body → jsonMedia a.contentType = jsonMedia b.contentType) :
    a.bindValue loads limit p = b.bindValue loads limit p := by
  unfold Adapter.bindValue
  cases hb : p.binding with
  | body => rw [Adapter.readJsonBody, Adapter.readJsonBody, media hb, sa.readBody sb]
  | bodyStream => rfl
  | query => rw [sa.query, sb.query]
  | header => simp only [sa.headers, sb.headers]

lemma bindArguments (sa : a.Serves request) (sb : b.Serves request)
    (media : (∃ p ∈ plan.parameters, p.binding = .body) →
      jsonMedia a.contentType = jsonMedia b.contentType) :
    a.bindArguments loads limit plan = b.bindArguments loads limit plan := by
  have values : ∀ p ∈ plan.parameters,
      (a.bindValue loads limit p).map (p.name, ·) = (b.bindValue loads limit p).map (p.name, ·) :=
    fun p hp => by rw [sa.bindValue sb fun body => media ⟨p, hp, body⟩]
  rw [Adapter.bindArguments, Adapter.bindArguments, Adapter.rejectRequestBody,
    Adapter.rejectRequestBody, sa.readBody sb, mapM_congr values]

end Adapter.Serves

lemma status_bindValue (media : jsonMedia a.contentType = true) {e}
    (h : a.bindValue loads limit p = .error e) : e.status ≠ some 415 := by
  have missing : ∀ values : List (List Char),
      Adapter.orDefault (V := V) p (collapseValues values) = .error e → e.status ≠ some 415 := by
    intro values raised
    unfold Adapter.orDefault at raised
    split at raised <;> cases raised
    exact fun same => absurd (Option.some.inj same) (by decide)
  unfold Adapter.bindValue at h
  cases hb : p.binding with
  | body =>
    simp only [hb, Adapter.readJsonBody, require, if_pos media, Adapter.readBody,
      collect_eq (Nat.zero_le _)] at h
    split at h
    · cases h
      decide
    · simp only [ok_bind] at h
      split at h <;> cases h <;> decide
  | bodyStream => simp [hb] at h
  | query | header => exact missing _ (by simpa only [hb] using h)

lemma mapM_refused {f g : RequestParameter D → Except BindError α} {e}
    {ps : List (RequestParameter D)} (agree : ∀ q, q.binding ≠ .body → f q = g q)
    (refuse : ∀ q, q.binding = .body → f q = .error e) (some : ∃ q ∈ ps, q.binding = .body) :
    ((∀ q ∈ ps.takeWhile (·.binding ≠ .body), ∃ value, f q = .ok value) → ps.mapM f = .error e) ∧
      ((¬ ∀ q ∈ ps.takeWhile (·.binding ≠ .body), ∃ value, f q = .ok value) →
        ps.mapM f = ps.mapM g) := by
  induction ps with
  | nil => simp at some
  | cons q ps ih =>
    rw [mapM_cons, mapM_cons]
    by_cases body : q.binding = .body
    · simp [body, refuse q body]
    have rest : ∃ q ∈ ps, q.binding = .body := by simpa [body] using some
    obtain ⟨stops, same⟩ := ih rest
    rw [takeWhile_cons_of_pos (by simpa using body), forall_mem_cons, ← agree q body]
    cases hq : f q with
    | error => exact ⟨fun h => absurd h.1 (by simp), fun _ => rfl⟩
    | ok value =>
      rw [ok_bind, ok_bind]
      refine ⟨fun h => by rw [stops h.2]; rfl, fun h => ?_⟩
      rw [same fun all => h ⟨⟨value, rfl⟩, all⟩]

lemma asgi_serves (headers : request'.headers = request.headers)
    (query : request'.query = request.query)
    (body : request'.messages.flatten = request.messages.flatten) :
    (asgi request').Serves request :=
  ⟨fun _ => by rw [← headers]; rfl, by rw [← query]; rfl, body⟩

lemma Adapter.Serves.apart (sa : a.Serves request) (sb : b.Serves request)
    (refused : jsonMedia a.contentType = false) (reads : jsonMedia b.contentType = true)
    (body : ∃ p ∈ plan.parameters, p.binding = .body) :
    SameOutcome (a.bindArguments loads limit plan) (b.bindArguments loads limit plan) ↔
      ¬ ReadsBody loads limit request plan.parameters := by
  have accepts : plan.rejectsBody = false := by
    refine Bool.eq_false_iff.mpr fun rejects => ?_
    obtain ⟨p, hp, isBody⟩ := body
    exact plan.no_body rejects p hp isBody
  obtain ⟨stops, same⟩ := mapM_refused
    (f := fun p => (a.bindValue loads limit p).map (p.name, ·))
    (g := fun p => (b.bindValue loads limit p).map (p.name, ·))
    (e := .http 415 "Request body must use a JSON media type.")
    (fun q ne => by rw [sa.bindValue sb fun isBody => absurd isBody ne])
    (fun q isBody => by
      simp [Adapter.bindValue, isBody, Adapter.readJsonBody, require, refused, Except.map]) body
  have supplied : ReadsBody loads limit request plan.parameters ↔
      ∀ q ∈ plan.parameters.takeWhile (·.binding ≠ .body),
        ∃ value, (a.bindValue loads limit q).map (q.name, ·) = .ok value := by
    rw [ReadsBody, and_iff_right body]
    refine forall₂_congr fun q hq => ?_
    have ne : q.binding ≠ .body := by simpa using mem_takeWhile_imp hq
    rw [sa.bindValue (asgi_serves rfl rfl rfl) fun isBody => absurd isBody ne]
    simp
  simp only [Adapter.bindArguments, accepts, supplied]
  by_cases h : ∀ q ∈ plan.parameters.takeWhile (·.binding ≠ .body),
      ∃ value, (a.bindValue loads limit q).map (q.name, ·) = .ok value
  · refine iff_of_false ?_ (not_not_intro h)
    -- what the other one raises comes from a value, and no value raises 415
    have other : ∀ e, plan.parameters.mapM
        (fun p => (b.bindValue loads limit p).map (p.name, ·)) = .error e →
          e.status ≠ some 415 := by
      intro e raised
      obtain ⟨q, -, raised⟩ := exists_of_mapM_error raised
      cases hq : b.bindValue loads limit q with
      | ok =>
        rw [hq] at raised
        cases raised
      | error =>
        rw [hq] at raised
        cases raised
        exact status_bindValue reads hq
    simp only [stops h]
    cases hb : plan.parameters.mapM fun p => (b.bindValue loads limit p).map (p.name, ·) with
    | ok => exact id
    | error e => exact fun eq => other e hb eq.symm
  · simp only [same h]
    exact iff_of_true (sameOutcome_self _) h

lemma Adapter.Serves.sameOutcome_iff (sa : a.Serves request) (sb : b.Serves request) :
    SameOutcome (a.bindArguments loads limit plan) (b.bindArguments loads limit plan) ↔
      (ReadsBody loads limit request plan.parameters →
        jsonMedia a.contentType = jsonMedia b.contentType) := by
  by_cases body : ∃ p ∈ plan.parameters, p.binding = .body
  · cases ha : jsonMedia a.contentType <;> cases hb : jsonMedia b.contentType
    · rw [sa.bindArguments sb fun _ => ha.trans hb.symm]
      exact iff_of_true (sameOutcome_self _) fun _ => rfl
    · simpa using sa.apart sb ha hb body
    · simpa using sameOutcome_comm.trans (sb.apart sa hb ha body)
    · rw [sa.bindArguments sb fun _ => ha.trans hb.symm]
      exact iff_of_true (sameOutcome_self _) fun _ => rfl
  · rw [sa.bindArguments sb fun some => absurd some body]
    exact iff_of_true (sameOutcome_self _) fun reads => absurd reads.1 body

lemma Starlette.serves (lib : Starlette) (headers : request'.headers = request.headers)
    (query : request'.query = request.query)
    (body : request'.messages.flatten = request.messages.flatten) :
    (lib.adapter request').Serves request :=
  ⟨fun _ => by rw [← headers]; exact lib.getlist_all _ _, by rw [← query, ← lib.query_all]; rfl,
    (lib.stream_all _).trans body⟩

lemma media_iff (lib : Starlette) (request : BindingRequest) :
    jsonMedia (asgi request).contentType = jsonMedia (lib.adapter request).contentType ↔
      MediaAgrees (valuesOf request.headers "content-type".toList) := by
  have folded : casefold "content-type".toList = "content-type".toList := by decide
  simp only [asgi, Starlette.adapter, lib.get_first, lib.getlist_all, folded, MediaAgrees]
  rcases valuesOf request.headers "content-type".toList with _ | ⟨_, _ | ⟨_, _⟩⟩ <;>
    simp

/-- Both adapters bind alike, drain alike and do not notice how a body is split, just if the request
has at most one content type, or its several ones pass for the same, or no body is bound. -/
theorem adapters_bind_alike_iff (lib : Starlette) (loads : Bytes → Except LoadsError V)
    (limit : Nat) (plan : BindingPlan D) (request : BindingRequest) :
    (SameOutcome ((asgi request).bindArguments loads limit plan)
        ((lib.adapter request).bindArguments loads limit plan) ∧
      (∀ maxBytes, asgiDrain maxBytes request = starletteDrain maxBytes request) ∧
      ∀ request' : BindingRequest, request'.headers = request.headers →
        request'.query = request.query → request'.messages.flatten = request.messages.flatten →
        (asgi request').bindArguments loads limit plan =
            (asgi request).bindArguments loads limit plan ∧
          (lib.adapter request').bindArguments loads limit plan =
            (lib.adapter request).bindArguments loads limit plan ∧
          ∀ maxBytes, asgiDrain maxBytes request' = asgiDrain maxBytes request) ↔
    (ReadsBody loads limit request plan.parameters →
      MediaAgrees (valuesOf request.headers "content-type".toList)) := by
  have sa : (asgi request).Serves request := asgi_serves rfl rfl rfl
  have sb : (lib.adapter request).Serves request := lib.serves rfl rfl rfl
  rw [← media_iff lib, ← sa.sameOutcome_iff sb, and_iff_left]
  refine ⟨fun _ => rfl, fun request' headers query body => ⟨?_, ?_, fun maxBytes => ?_⟩⟩
  · exact (asgi_serves headers query body).bindArguments sa fun _ => by simp only [asgi, headers]
  · exact (lib.serves headers query body).bindArguments sb fun _ => by
      simp only [Starlette.adapter, headers]
  · simp only [asgiDrain, drain, collect_eq (Nat.zero_le _), body]

def bodyPlan : BindingPlan Unit where
  parameters := [⟨"order", .body, none⟩]
  rejectsBody := false
  one_body := pairwise_singleton _ _
  no_body := fun h => by cases h

/-- With two equal content types the native adapter refuses a body that Starlette's takes. -/
theorem adapters_differ_two_headers : let request : BindingRequest :=
      { headers := List.replicate 2 ("content-type".toList, "application/json".toList)
        query := []
        messages := [[91], [93]]
        messages_ne := cons_ne_nil _ _ }
    let lib : Starlette :=
      ⟨fun headers name => (valuesOf headers (casefold name)).head?,
        fun headers name => valuesOf headers (casefold name), valuesOf, id,
        fun _ _ => rfl, fun _ _ => rfl, rfl, fun _ => rfl⟩
    (asgi request).bindArguments (fun _ => .ok ()) 8 bodyPlan =
        .error (.http 415 "Request body must use a JSON media type.") ∧
      (lib.adapter request).bindArguments (fun _ => .ok ()) 8 bodyPlan =
        .ok [("order", .json ())] ∧
      ¬ SameOutcome ((asgi request).bindArguments (fun _ => .ok ()) 8 bodyPlan)
        ((lib.adapter request).bindArguments (fun _ => .ok ()) 8 bodyPlan) :=
  ⟨rfl, rfl, id⟩

end ToriPy.Http
