import ToriPy.Base.Except
import ToriPy.Base.Uri

/-!
# Slash redirects of the native adapter

`AsgiRouter.match` answers a path that no route matches, while it does with its last slash toggled,
by a redirect to the toggled path. The text goes into the `location` header as it is, and a client
reads it as a reference. `slash_redirect_iff` says which requests get a redirect to where it is
meant: a `?`, `#`, `%` escape, dot segment or second slash in the decoded path leads elsewhere, the
query is lost, and a text that is no header value leads nowhere.
-/

namespace ToriPy.Http

open List

/-- A route of the router (`_CompiledRoute`). Every template begins with a slash (`_join_paths`). -/
structure CompiledRoute (Endpoint Params : Type) where
  endpoint : Endpoint
  matchPath : List Char → Option Params
  allowedMethods : List String
  rooted : matchPath [] = none

/-- What the router found (`RouteMatch`). -/
inductive RouteMatch (Endpoint Params : Type) where
  | endpoint (endpoint : Endpoint) (pathParams : Params)
  | notAllowed (allowedMethods : List String)
  | redirect (path : List Char)
  | notFound

variable {Endpoint Params : Type} {routes : List (CompiledRoute Endpoint Params)} {path : List Char}

/-- The path with its last slash taken away or put there. -/
def toggleSlash (path : List Char) : List Char :=
  if path.getLast? = some '/' then path.dropLast else path ++ ['/']

/-- The first loop of `match`: the endpoint it returns, or the methods it has collected. -/
def scanRoutes (path : List Char) (method : String) (allowedMethods : List String) :
    List (CompiledRoute Endpoint Params) → RouteMatch Endpoint Params ⊕ List String
  | [] => .inr allowedMethods
  | route :: routes =>
    match route.matchPath path with
    | none => scanRoutes path method allowedMethods routes
    | some pathParams =>
      if method ∈ route.allowedMethods then .inl (.endpoint route.endpoint pathParams)
      else
        let allowedMethods := route.allowedMethods.foldl
          (fun seen allowed => if allowed ∈ seen then seen else seen ++ [allowed]) allowedMethods
        scanRoutes path method allowedMethods routes

/-- Find the route of a request (`AsgiRouter.match`). -/
def matchRoute (routes : List (CompiledRoute Endpoint Params)) (path : List Char)
    (method : String) : RouteMatch Endpoint Params :=
  match scanRoutes path method [] routes with
  | .inl found => found
  | .inr allowedMethods =>
    if allowedMethods ≠ [] then .notAllowed allowedMethods
    else if toggleSlash path ≠ [] ∧ routes.any fun route =>
        method ∈ route.allowedMethods && (route.matchPath (toggleSlash path)).isSome then
      .redirect (toggleSlash path)
    else .notFound

def isBlank (c : Char) : Bool := c = ' ' || c = '\t'

/-- The checks of a header value (`_validate_header`). `location` passes those of the name, and the
one of media types is for `content-type`. -/
def validateHeader (value : List Char) : Except String Unit := do
  require (value.head?.any isBlank = false ∧ value.getLast?.any isBlank = false)
    "HttpResponse header values must not have surrounding whitespace"
  require ('\r' ∉ value ∧ '\n' ∉ value) "HttpResponse header values must not contain CR or LF"
  require (value.all fun c => !(c.toNat < 32 && c ≠ '\t' || c.toNat = 127))
    "HttpResponse header values must not contain control characters"
  require (value.all fun c => c.toNat < 256) "HttpResponse header values must be Latin-1 encodable"

/-- A response (`HttpResponse`). -/
structure HttpResponse where
  content : Bytes
  statusCode : Nat
  headers : List (String × List Char)

/-- The response to what the router found (`_response_for_match`). Endpoints and the pipeline's
answers to routing errors are `others`. -/
def responseForMatch (others : RouteMatch Endpoint Params → Except String HttpResponse) :
    RouteMatch Endpoint Params → Except String HttpResponse
  | .redirect path => do
    validateHeader path
    return { content := [], statusCode := 307, headers := [("location", path)] }
  | found => others found

/-- The first message of a response: its status and its headers. -/
structure ResponseStart where
  status : Nat
  headers : List (String × List Char)

/-- What is sent first (`_send_response`). A header value goes out in Latin-1, a byte for each
character. -/
def sendResponse (response : HttpResponse) (requestId : List Char) : ResponseStart where
  status := response.statusCode
  headers :=
    response.headers.filter (fun header => header.1.toLower ≠ "x-request-id") ++
      (if response.statusCode = 204 ∨ response.statusCode = 304 then []
        else [("content-length", (Nat.repr response.content.length).toList)]) ++
      [("x-request-id", requestId)]

/-- Answer a request (`_dispatch`): what is sent first, or what is raised. -/
def dispatchRequest (others : RouteMatch Endpoint Params → Except String HttpResponse)
    (routes : List (CompiledRoute Endpoint Params)) (path : List Char) (method : String)
    (requestId : List Char) : Except String ResponseStart := do
  let response ← responseForMatch others (matchRoute routes path method)
  return sendResponse response requestId

/-- A redirect that a client of a request to `base` follows to a path and a query on the same
site. -/
def RedirectsTo (base : Url) (path query : List Char) (start : ResponseStart) : Prop :=
  start.status = 307 ∧ ∃ location, start.headers.lookup "location" = some location ∧
    (base.resolve location).scheme = base.scheme ∧
    (base.resolve location).authority = base.authority ∧
    percentDecode (base.resolve location).path = path.flatMap String.utf8EncodeChar ∧
    (base.resolve location).query.getD [] = query

/-- A path that is the same as a header value and as a reference: visible ASCII, apart from blanks
inside, that a client takes as it is. -/
structure PlainPath (path : List Char) : Prop where
  reference : PlainReference path
  visible : ∀ c ∈ path, c.toNat < 127 ∧ (32 ≤ c.toNat ∨ c = '\t')
  closed : path.getLast?.any isBlank = false

lemma utf8_of_ascii {cs : List Char} (h : ∀ c ∈ cs, c.toNat ≤ 127) :
    cs.flatMap String.utf8EncodeChar = cs.map fun c => UInt8.ofNat c.toNat := by
  induction cs with
  | nil => rfl
  | cons c cs ih =>
    obtain ⟨first, rest⟩ := forall_mem_cons.mp h
    have single : String.utf8EncodeChar c = [UInt8.ofNat c.toNat] := if_pos first
    rw [flatMap_cons, single, ih rest]
    rfl

lemma length_le_utf8 (cs : List Char) : cs.length ≤ (cs.flatMap String.utf8EncodeChar).length := by
  induction cs with
  | nil => rfl
  | cons c cs ih =>
    have := c.utf8Size_pos
    rw [flatMap_cons, length_append, String.length_utf8EncodeChar, length_cons]
    omega

lemma ascii_of_length {cs : List Char}
    (h : (cs.flatMap String.utf8EncodeChar).length ≤ cs.length) : ∀ c ∈ cs, c.toNat ≤ 127 := by
  induction cs with
  | nil => exact forall_mem_nil _
  | cons c cs ih =>
    have := c.utf8Size_pos
    have := length_le_utf8 cs
    rw [flatMap_cons, length_append, String.length_utf8EncodeChar, length_cons] at h
    refine forall_mem_cons.mpr ⟨?_, ih (by omega)⟩
    exact UInt32.le_iff_toNat_le.mp (Char.utf8Size_eq_one_iff.mp (by omega))

lemma validateHeader_ok {rest} :
    validateHeader ('/' :: rest) = .ok () ↔
      ('/' :: rest).getLast?.any isBlank = false ∧
      ∀ c ∈ '/' :: rest, c.toNat < 256 ∧ c.toNat ≠ 127 ∧ (32 ≤ c.toNat ∨ c = '\t') := by
  simp only [validateHeader, then_ok, require_ok, all_eq_true]
  constructor
  · rintro ⟨⟨-, closed⟩, -, controls, latin⟩
    refine ⟨closed, fun c hc => ?_⟩
    have := controls c hc
    have := latin c hc
    grind
  · rintro ⟨closed, visible⟩
    refine ⟨⟨rfl, closed⟩, ⟨fun hc => ?_, fun hc => ?_⟩, fun c hc => ?_, fun c hc => ?_⟩
    · exact absurd (visible _ hc).2.2 (by decide)
    · exact absurd (visible _ hc).2.2 (by decide)
    · have := visible c hc
      grind
    · exact decide_eq_true (visible c hc).1

lemma scanRoutes_of_unmatched {method} (h : ∀ route ∈ routes, route.matchPath path = none)
    (allowedMethods : List String) :
    scanRoutes path method allowedMethods routes = .inr allowedMethods := by
  induction routes with
  | nil => rfl
  | cons route routes ih =>
    obtain ⟨first, rest⟩ := forall_mem_cons.mp h
    rw [scanRoutes, first]
    exact ih rest

lemma lookup_location (path requestId : List Char) :
    (sendResponse ⟨[], 307, [("location", path)]⟩ requestId).headers.lookup "location" =
      some path := by
  have other : "location".toLower ≠ "x-request-id" := by decide +kernel
  simp [sendResponse, other]

lemma matchRoute_redirect {method} (unmatched : ∀ route ∈ routes, route.matchPath path = none)
    (toggled : ∃ route ∈ routes, method ∈ route.allowedMethods ∧
      route.matchPath (toggleSlash path) ≠ none) :
    matchRoute routes path method = .redirect (toggleSlash path) := by
  obtain ⟨route, mem, allowed, found⟩ := toggled
  have ne : toggleSlash path ≠ [] := fun nil => found (nil ▸ route.rooted)
  have any : routes.any fun route =>
      method ∈ route.allowedMethods && (route.matchPath (toggleSlash path)).isSome :=
    any_eq_true.mpr ⟨route, mem, by simp [allowed, Option.isSome_iff_ne_none, found]⟩
  simp only [matchRoute, scanRoutes_of_unmatched unmatched]
  rw [if_neg (by simp), if_pos ⟨ne, any⟩]

lemma toggleSlash_cons (slash : path.head? = some '/')
    (ne : toggleSlash path ≠ []) : ∃ rest, toggleSlash path = '/' :: rest := by
  obtain ⟨rest, rfl⟩ := head?_eq_some_iff.mp slash
  by_cases last : ('/' :: rest).getLast? = some '/'
  · rw [toggleSlash, if_pos last] at ne ⊢
    cases rest with
    | nil => exact absurd rfl ne
    | cons => exact ⟨_, rfl⟩
  · rw [toggleSlash, if_neg last]
    exact ⟨_, rfl⟩

/-- For a path that no route matches while its toggled form matches one for the method: the adapter
sends a redirect that leads to the toggled path with the request's query on the same site if and only
if the toggled path is plain and there is no query. -/
theorem slash_redirect_iff (others : RouteMatch Endpoint Params → Except String HttpResponse)
    (routes : List (CompiledRoute Endpoint Params)) (base : Url) (path query : List Char)
    (method : String) (requestId : List Char) (slash : path.head? = some '/')
    (unmatched : ∀ route ∈ routes, route.matchPath path = none)
    (toggled : ∃ route ∈ routes, method ∈ route.allowedMethods ∧
      route.matchPath (toggleSlash path) ≠ none) :
    (∃ start, dispatchRequest others routes path method requestId = .ok start ∧
      RedirectsTo base (toggleSlash path) query start) ↔
    PlainPath (toggleSlash path) ∧ query = [] := by
  have ne : toggleSlash path ≠ [] := by
    obtain ⟨route, -, -, found⟩ := toggled
    exact fun nil => found (nil ▸ route.rooted)
  rw [dispatchRequest, matchRoute_redirect unmatched toggled]
  obtain ⟨rest, htoggle⟩ := toggleSlash_cons slash ne
  rw [htoggle]
  simp only [responseForMatch, bind_ok, RedirectsTo]
  constructor
  · rintro ⟨start, ⟨response, ⟨_, valid, made⟩, sent⟩, -, location, there, -, -, path_eq, query_eq⟩
    cases made
    cases sent
    obtain rfl := Option.some.inj ((lookup_location _ _).symm.trans there)
    obtain ⟨closed, visible⟩ := validateHeader_ok.mp valid
    have plain : PlainReference ('/' :: rest) :=
      .of_length (path_eq ▸ length_le_utf8 ('/' :: rest))
    rw [plain.resolve] at path_eq query_eq
    have ascii : ∀ c ∈ '/' :: rest, c.toNat ≤ 127 := by
      refine ascii_of_length ?_
      rw [← path_eq, percentDecode_of_unescaped plain.unescaped, length_map]
    refine ⟨⟨plain, fun c hc => ⟨?_, (visible c hc).2.2⟩, closed⟩, query_eq.symm⟩
    exact lt_of_le_of_ne (ascii c hc) (visible c hc).2.1
  · rintro ⟨⟨plain, visible, closed⟩, rfl⟩
    have valid : validateHeader ('/' :: rest) = .ok () :=
      validateHeader_ok.mpr ⟨closed, fun c hc => ⟨by have := visible c hc; omega,
        (visible c hc).1.ne, (visible c hc).2⟩⟩
    refine ⟨_, ⟨_, ⟨_, valid, rfl⟩, rfl⟩, rfl, '/' :: rest, lookup_location _ _, ?_⟩
    rw [plain.resolve, percentDecode_of_unescaped plain.unescaped,
      utf8_of_ascii fun c hc => (visible c hc).1.le.trans (by decide)]
    exact ⟨rfl, rfl, rfl, rfl⟩

/-- A route whose template is a path between two slashes. -/
def slashedRoute : CompiledRoute Unit Unit where
  endpoint := ()
  matchPath path :=
    if 2 ≤ path.length ∧ path.head? = some '/' ∧ path.getLast? = some '/' then some () else none
  allowedMethods := ["GET", "HEAD"]
  rooted := rfl

def shop : Url := ⟨"https".toList, "shop".toList, [], none⟩

theorem slash_redirect_iff_items :
    ∃ start, dispatchRequest (fun _ => .error "") [slashedRoute] "/items".toList "GET" [] =
      .ok start ∧ RedirectsTo shop "/items/".toList [] start := by
  refine (slash_redirect_iff (fun _ => .error "") [slashedRoute] shop "/items".toList [] "GET" []
    rfl (by decide) ⟨slashedRoute, mem_cons_self, by decide, by decide⟩).mpr ⟨?_, rfl⟩
  refine ⟨⟨by decide, @of_decide_eq_true _ (List.decidableBAll _ _) rfl, ?_, by decide +kernel⟩,
    @of_decide_eq_true _ (List.decidableBAll _ _) rfl, by decide⟩
  have split : "items/".toList.splitOn '/' = ["items".toList, []] := by decide +kernel
  change ∀ segment ∈ "items/".toList.splitOn '/', _
  rw [split]
  decide

/-- The path of a request names another site, and the redirect leads there. -/
theorem slash_redirect_leaves_site :
    (∀ route ∈ [slashedRoute], route.matchPath "//evil".toList = none) ∧
    (∃ route ∈ [slashedRoute], "GET" ∈ route.allowedMethods ∧
      route.matchPath (toggleSlash "//evil".toList) ≠ none) ∧
    (∃ start, dispatchRequest (fun _ => .error "") [slashedRoute] "//evil".toList "GET" [] =
        .ok start ∧ start.status = 307 ∧
      start.headers.lookup "location" = some "//evil/".toList) ∧
    (shop.resolve "//evil/".toList).authority = "evil".toList ∧
    ¬ ∃ start, dispatchRequest (fun _ => .error "") [slashedRoute] "//evil".toList "GET" [] =
        .ok start ∧ RedirectsTo shop (toggleSlash "//evil".toList) [] start := by
  have sent : dispatchRequest (fun _ => .error "") [slashedRoute] "//evil".toList "GET" [] =
      .ok (sendResponse ⟨[], 307, [("location", "//evil/".toList)]⟩ []) := rfl
  refine ⟨by decide, ⟨slashedRoute, mem_cons_self, by decide, by decide⟩,
    ⟨_, sent, rfl, lookup_location _ _⟩, by decide, ?_⟩
  rintro ⟨_, made, -, _, there, -, authority, -⟩
  cases sent.symm.trans made
  obtain rfl := Option.some.inj ((lookup_location _ _).symm.trans there)
  exact absurd authority (by decide)

end ToriPy.Http
