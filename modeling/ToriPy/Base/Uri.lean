import ToriPy.Base.Text

/-!
# References to a site

What a client makes of a reference that begins with a slash (RFC 3986, sections 3, 5.2 and 2.1): two
slashes name another authority, the path ends at the first `?` or `#`, dot segments are carried out,
and `%` with two hexadecimal digits stands for a byte. None of these steps makes a path longer, so a
reference whose decoded path is as long as itself went through all of them unchanged
(`PlainReference.of_length`).
-/

namespace ToriPy

open List

/-- The parts of a URL that a reference is resolved against. -/
structure Url where
  scheme : List Char
  authority : List Char
  path : List Char
  query : Option (List Char)

/-- Carry the segments out onto the path so far, the last of it first. A last segment of dots leaves
a slash. -/
def removeDots (out : List (List Char)) : List (List Char) → List (List Char)
  | [] => out.reverse
  | segment :: rest =>
    if segment = ['.'] then removeDots (if rest = [] then [] :: out else out) rest
    else if segment = ['.', '.'] then
      removeDots (if rest = [] then [] :: out.tail else out.tail) rest
    else removeDots (segment :: out) rest

/-- `remove_dot_segments` of a path that is empty or begins with a slash. -/
def removeDotSegments : List Char → List Char
  | [] => []
  | _ :: rest => (removeDots [] (rest.splitOn '/')).flatMap ('/' :: ·)

def endsPath (c : Char) : Bool := c = '?' || c = '#'

/-- The path of a reference behind its authority. -/
def pathOf (reference : List Char) : List Char := reference.takeWhile (!endsPath ·)

def queryOf (reference : List Char) : Option (List Char) :=
  match reference.dropWhile (!endsPath ·) with
  | '?' :: rest => some (rest.takeWhile (· ≠ '#'))
  | _ => none

/-- Resolve a reference that begins with a slash. -/
def Url.resolve (base : Url) : List Char → Url
  | '/' :: '/' :: rest =>
    let behind := rest.dropWhile fun c => !(c = '/' || endsPath c)
    { scheme := base.scheme
      authority := rest.takeWhile fun c => !(c = '/' || endsPath c)
      path := removeDotSegments (pathOf behind)
      query := queryOf behind }
  | reference =>
    { base with path := removeDotSegments (pathOf reference), query := queryOf reference }

/-- The byte that a text begins with in percent-encoding. -/
def escape? : List Char → Option UInt8
  | '%' :: high :: low :: _ => (readDigits 16 [high, low]).map UInt8.ofNat
  | _ => none

/-- Decode a text behind `skip` characters that belong to an escape. -/
def percentDecodeFrom : Nat → List Char → Bytes
  | _, [] => []
  | skip + 1, _ :: cs => percentDecodeFrom skip cs
  | 0, c :: cs =>
    match escape? (c :: cs) with
    | some byte => byte :: percentDecodeFrom 2 cs
    | none => UInt8.ofNat c.toNat :: percentDecodeFrom 0 cs

/-- The bytes that a percent-encoded text stands for. -/
def percentDecode (cs : List Char) : Bytes := percentDecodeFrom 0 cs

/-- A reference that a client takes as it is. -/
structure PlainReference (reference : List Char) : Prop where
  sameAuthority : ¬ ['/', '/'] <+: reference
  unended : ∀ c ∈ reference, endsPath c = false
  undotted : ∀ segment ∈ reference.tail.splitOn '/', segment ≠ ['.'] ∧ segment ≠ ['.', '.']
  unescaped : ∀ rest ∈ reference.tails, escape? rest = none

/-- The length of the path that the segments make. -/
def weight (segments : List (List Char)) : Nat := (segments.map (·.length + 1)).sum

@[simp] lemma weight_nil : weight [] = 0 := rfl

@[simp] lemma weight_cons (segment : List Char) (segments : List (List Char)) :
    weight (segment :: segments) = segment.length + 1 + weight segments := by
  simp [weight]

variable {segments : List (List Char)} {cs : List Char}

lemma flatMap_slash (ne : segments ≠ []) :
    segments.flatMap ('/' :: ·) = '/' :: ['/'].intercalate segments := by
  induction segments with
  | nil => exact absurd rfl ne
  | cons first rest ih =>
    cases rest with
    | nil => simp
    | cons next rest => simp [ih (cons_ne_nil next rest), intercalate_cons_cons]

lemma flatMap_splitOn (cs : List Char) : (cs.splitOn '/').flatMap ('/' :: ·) = '/' :: cs := by
  rw [flatMap_slash (splitOn_ne_nil _ _), intercalate_splitOn]

lemma length_flatMap_slash : (segments.flatMap ('/' :: ·)).length = weight segments := by
  simp [length_flatMap, weight]

/-- Dot segments only take away. -/
lemma weight_removeDots (out segments : List (List Char)) :
    weight (removeDots out segments) ≤ weight out + weight segments ∧
      (weight out + weight segments ≤ weight (removeDots out segments) →
        ∀ segment ∈ segments, segment ≠ ['.'] ∧ segment ≠ ['.', '.']) := by
  induction segments generalizing out with
  | nil => simp [removeDots, weight]
  | cons segment rest ih =>
    -- where a segment of dots is carried out, the path so far grows by a slash at most
    have carried : ∀ out', weight out' ≤ weight out + 1 → segment ≠ [] →
        weight (removeDots out' rest) < weight out + weight (segment :: rest) := by
      intro out' le ne
      have := (ih out').1
      have := length_pos_of_ne_nil ne
      rw [weight_cons]
      omega
    have tail_le : weight out.tail ≤ weight out := by cases out <;> simp
    rw [removeDots]
    split
    · have lt := carried (if rest = [] then [] :: out else out)
        (by split <;> simp [Nat.add_comm]) (by simp_all)
      exact ⟨lt.le, fun ge => absurd ge lt.not_ge⟩
    split
    · have lt := carried (if rest = [] then [] :: out.tail else out.tail)
        (by split <;> simp [Nat.add_comm] <;> omega) (by simp_all)
      exact ⟨lt.le, fun ge => absurd ge lt.not_ge⟩
    · rename_i dot dots
      obtain ⟨le, undotted⟩ := ih (segment :: out)
      rw [weight_cons] at le undotted ⊢
      refine ⟨by omega, fun ge => forall_mem_cons.mpr ⟨⟨dot, dots⟩, undotted (by omega)⟩⟩

lemma removeDots_of_undotted (out : List (List Char))
    (h : ∀ segment ∈ segments, segment ≠ ['.'] ∧ segment ≠ ['.', '.']) :
    removeDots out segments = out.reverse ++ segments := by
  induction segments generalizing out with
  | nil => simp [removeDots]
  | cons segment rest ih =>
    obtain ⟨⟨dot, dots⟩, rest_undotted⟩ := forall_mem_cons.mp h
    rw [removeDots, if_neg dot, if_neg dots, ih _ rest_undotted]
    simp

lemma removeDotSegments_of_undotted
    (h : ∀ segment ∈ cs.splitOn '/', segment ≠ ['.'] ∧ segment ≠ ['.', '.']) :
    removeDotSegments ('/' :: cs) = '/' :: cs := by
  rw [removeDotSegments, removeDots_of_undotted [] h]
  exact flatMap_splitOn cs

lemma length_removeDotSegments_le (cs : List Char) : (removeDotSegments cs).length ≤ cs.length := by
  cases cs with
  | nil => rfl
  | cons c rest =>
    have same := congrArg List.length (flatMap_splitOn rest)
    have le := (weight_removeDots [] (rest.splitOn '/')).1
    rw [length_flatMap_slash] at same
    rw [weight_nil, Nat.zero_add, same] at le
    rw [removeDotSegments, length_flatMap_slash]
    exact le

lemma length_percentDecodeFrom_le (skip : Nat) (cs : List Char) :
    (percentDecodeFrom skip cs).length ≤ cs.length - skip := by
  induction cs generalizing skip with
  | nil => simp [percentDecodeFrom]
  | cons c cs ih =>
    cases skip with
    | zero =>
      have := ih 0
      have := ih 2
      rw [percentDecodeFrom]
      split <;> simp <;> omega
    | succ skip =>
      have := ih skip
      simp only [percentDecodeFrom, length_cons]
      omega

/-- A text that is decoded to as many bytes has no escapes. -/
lemma unescaped_of_length (h : cs.length ≤ (percentDecode cs).length) :
    ∀ rest ∈ cs.tails, escape? rest = none := by
  unfold percentDecode at h
  induction cs with
  | nil => simp [escape?]
  | cons c cs ih =>
    rw [percentDecodeFrom] at h
    have shorter := length_percentDecodeFrom_le 2 cs
    split at h
    · simp only [length_cons] at h
      have : cs = [] := eq_nil_of_length_eq_zero (by omega)
      simp_all [escape?]
    · rename_i none
      rw [tails_cons, forall_mem_cons]
      exact ⟨none, ih (by simpa using h)⟩

lemma percentDecode_of_unescaped (h : ∀ rest ∈ cs.tails, escape? rest = none) :
    percentDecode cs = cs.map fun c => UInt8.ofNat c.toNat := by
  unfold percentDecode
  induction cs with
  | nil => rfl
  | cons c cs ih =>
    rw [tails_cons, forall_mem_cons] at h
    rw [percentDecodeFrom, h.1, map_cons, ih h.2]

lemma Url.resolve_of_not_prefix (base : Url) {reference} (h : ¬ ['/', '/'] <+: reference) :
    base.resolve reference =
      { base with path := removeDotSegments (pathOf reference), query := queryOf reference } := by
  unfold Url.resolve
  split
  · exact absurd ⟨_, rfl⟩ h
  · rfl

lemma length_path_le (cs : List Char) : (removeDotSegments (pathOf cs)).length ≤ cs.length :=
  (length_removeDotSegments_le _).trans (takeWhile_sublist _).length_le

/-- The decoded path has the reference's length only if the client takes it as it is. -/
lemma PlainReference.of_length {base : Url} {rest : List Char}
    (h : rest.length < (percentDecode (base.resolve ('/' :: rest)).path).length) :
    PlainReference ('/' :: rest) := by
  have path_lt : rest.length < (base.resolve ('/' :: rest)).path.length :=
    h.trans_le (length_percentDecodeFrom_le 0 _)
  have sameAuthority : ¬ ['/', '/'] <+: '/' :: rest := by
    rintro ⟨cs, same⟩
    obtain rfl : '/' :: cs = rest := by simpa using same
    have le := (length_path_le (cs.dropWhile fun c => !(c = '/' || endsPath c))).trans
      (dropWhile_sublist _).length_le
    exact absurd (path_lt.trans_le le) (by simp)
  rw [base.resolve_of_not_prefix sameAuthority] at h path_lt
  dsimp only at h path_lt
  have whole : pathOf ('/' :: rest) = '/' :: rest :=
    (takeWhile_sublist _).eq_of_length_le (path_lt.trans_le (length_removeDotSegments_le _))
  rw [whole] at h path_lt
  have undotted : ∀ segment ∈ rest.splitOn '/', segment ≠ ['.'] ∧ segment ≠ ['.', '.'] := by
    refine (weight_removeDots [] _).2 ?_
    rw [weight_nil, Nat.zero_add, ← length_flatMap_slash, flatMap_splitOn, ← length_flatMap_slash]
    exact path_lt
  rw [removeDotSegments_of_undotted undotted] at h
  refine ⟨sameAuthority, fun c hc => ?_, undotted, unescaped_of_length h⟩
  simpa using takeWhile_eq_self_iff.mp whole c hc

/-- What a client takes as it is. -/
lemma PlainReference.resolve {base : Url} {rest} (plain : PlainReference ('/' :: rest)) :
    base.resolve ('/' :: rest) = { base with path := '/' :: rest, query := none } := by
  have kept : ∀ c ∈ '/' :: rest, (!endsPath c) = true := fun c hc => by rw [plain.unended c hc]; rfl
  have whole : pathOf ('/' :: rest) = '/' :: rest := takeWhile_eq_self_iff.mpr kept
  have unqueried : queryOf ('/' :: rest) = none := by
    rw [queryOf, dropWhile_eq_nil_iff.mpr kept]
  rw [base.resolve_of_not_prefix plain.sameAuthority, whole, unqueried,
    @removeDotSegments_of_undotted rest plain.undotted]

end ToriPy
