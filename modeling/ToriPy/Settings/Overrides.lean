import ToriPy.Base.Except
import ToriPy.Base.Names
import ToriPy.Base.Nested

/-!
# Settings and bootstrap overrides

`load_settings` of `settings/runtime.py` up to its decoder: the sources are merged into one mapping,
and then every override of the bootstrap context is checked against the secret paths of the model,
looked up in the model, and assigned. The three steps read a dotted path in three ways. The secret
paths come from a walk that does not enter optional models and are compared as they are spelled; the
lookup ignores case and enters optional models; and the assignment uses the path as it is spelled.

An override is therefore rejected if it names a secret and takes effect if it is accepted exactly
under the conditions of `Clean`, which `honoured_iff` proves to be the weakest: no path hides the
secret that it names, and a path that is the last for its field is spelled as the model spells it
and is not covered by a later one.

`casefold` stands for `str.casefold`; nothing is used of it.
-/

namespace ToriPy.Settings

open List

/-- `SettingsError`. -/
structure SettingsError where
  message : String
  code : String
  details : List (String × String) := []
deriving DecidableEq

/-- A field of a model: its name, whether it is annotated `Secret`, and what it holds. Names are
identifiers. -/
structure FieldOf (σ : Type) where
  name : String
  secret : Bool
  shape : σ
  name_ne : name ≠ "" := by decide

/-- What a field holds: a value, a nested model, or an optional nested model. -/
inductive Shape where
  | plain
  | nested (fields : List (FieldOf Shape))
  | optional (fields : List (FieldOf Shape))

abbrev Field := FieldOf Shape

def Shape.fields : Shape → List Field
  | .plain => []
  | .nested fields => fields
  | .optional fields => fields

/-! ### Secret paths -/

/-- The path of a field in the walk of `secret_paths`. -/
def joinPath (base name : String) : String :=
  if base = "" then name else base ++ "." ++ name

mutual

/-- The walk of `secret_paths` below a field. It enters a class and no other annotation. -/
def Shape.secretPaths : Shape → String → List String
  | .plain, _ => []
  | .nested fields, path => walk fields path
  | .optional _, _ => []

def FieldOf.secretPaths : FieldOf Shape → String → List String
  | ⟨name, secret, shape, _⟩, base =>
    (if secret then [joinPath base name] else []) ++ shape.secretPaths (joinPath base name)

/-- `walk`. -/
def walk : List (FieldOf Shape) → String → List String
  | [], _ => []
  | field :: fields, base => field.secretPaths base ++ walk fields base

end

/-- `secret_paths`. -/
def secretPaths (model : List Field) : List String := walk model ""

/-- The check of an override against the secret paths. -/
def isProtected (secrets : List String) (path : String) : Bool :=
  path ∈ secrets || secrets.any fun secret => (secret ++ ".").toList.isPrefixOf path.toList

/-! ### Lookup -/

section
variable (casefold : String → String)

/-- The first field with the name of a part, up to case. -/
def findField (fields : List Field) (part : String) : Option Field :=
  fields.find? fun field => casefold field.name = casefold part

/-- `_canonical_path`. -/
def canonicalPath : List Field → List String → Option (List String)
  | _, [] => some []
  | fields, part :: parts =>
    match findField casefold fields part with
    | none => none
    | some field => (canonicalPath field.shape.fields parts).map (field.name :: ·)

/-! ### Sources -/

mutual

/-- One round of `_merge_into`. -/
def mergeValue : Mapping → String → Nested → Mapping
  | target, key, .text value => target.assign key (.text value)
  | target, key, .mapping entries =>
    match target.lookup key with
    | some (.mapping existing) => target.assign key (.mapping (mergeInto existing entries))
    | _ => target.assign key (.mapping entries)

def mergeEntry : Mapping → String × Nested → Mapping
  | target, (key, value) => mergeValue target key value

/-- `_merge_into`. -/
def mergeInto : Mapping → List (String × Nested) → Mapping
  | target, [] => target
  | target, entry :: rest => mergeInto (mergeEntry target entry) rest

end

/-- One round of `_environment_mapping`. -/
def environmentEntry (model : List Field) (start : String) (result : Mapping)
    (entry : String × String) : Mapping :=
  if start.toList.isPrefixOf entry.1.toList then
    match canonicalPath casefold model
        ((String.ofList (entry.1.toList.drop start.toList.length)).splitOn "__") with
    | none => result
    | some path => result.set path (.text entry.2)
  else result

/-- `_environment_mapping`. -/
def environmentMapping (model : List Field) (start : String) (values : List (String × String)) :
    Mapping :=
  values.foldl (environmentEntry casefold model start) []

/-- What the sources hold: each file and each dotenv file as it was read, and the environment. -/
structure Sources where
  files : List (Except SettingsError Mapping) := []
  dotenvFiles : List (Except SettingsError (List (String × String))) := []
  environment : List (String × String) := []
  envPrefix : String := ""

def mergeSources (model : List Field) (sources : Sources) : Except SettingsError Mapping := do
  let merged ← sources.files.foldlM (fun merged file => do
    let content ← file
    .ok (mergeInto merged content)) []
  let merged ← sources.dotenvFiles.foldlM (fun merged file => do
    let values ← file
    .ok (mergeInto merged (environmentMapping casefold model "" values))) merged
  .ok (mergeInto merged (environmentMapping casefold model sources.envPrefix sources.environment))

/-! ### Overrides -/

def applyOverride (model : List Field) (merged : Mapping) (override : String × Nested) :
    Except SettingsError Mapping := do
  let path := override.1
  require (isProtected (secretPaths model) path = false)
    ⟨"bootstrap override targets a secret settings path", "settings.source_error",
      [("path", path), ("value", "<redacted>")]⟩
  require ((canonicalPath casefold model (words path)).isSome = true)
    ⟨"bootstrap override targets an unknown settings path", "settings.source_error",
      [("path", path)]⟩
  .ok (merged.set (words path) override.2)

/-- `load_settings`, up to the mapping that is handed to the decoder. -/
def loadSettings (model : List Field) (sources : Sources) (overrides : List (String × Nested)) :
    Except SettingsError Mapping := do
  let merged ← mergeSources casefold model sources
  overrides.foldlM (applyOverride casefold model) merged

/-! ### The statement -/

/-- The path names a secret field, or something below one, under the lookup. -/
def namesSecret : List Field → List String → Bool
  | _, [] => false
  | fields, part :: parts =>
    match findField casefold fields part with
    | none => false
    | some field => field.secret || namesSecret field.shape.fields parts

/-- Every override stays clear of secrets and determines the value at the path of its field, the
last one for a field. -/
structure Honoured (model : List Field) (overrides : List (String × Nested)) (merged : Mapping) :
    Prop where
  secrets : ∀ override ∈ overrides, namesSecret casefold model (words override.1) = false
  effective : ∀ {before after : List (String × Nested)} {path : String} {value : Nested}
    {canonical : List String}, overrides = before ++ (path, value) :: after →
    (∀ later ∈ after, canonicalPath casefold model (words later.1) ≠ some canonical) →
    canonicalPath casefold model (words path) = some canonical →
    merged.get canonical = some value

/-- The path names a secret field in another spelling, or behind an optional model. -/
def hidesSecret : List Field → List String → Bool
  | _, [] => false
  | fields, part :: parts =>
    match findField casefold fields part with
    | none => false
    | some field =>
      if field.name = part then
        match field.shape with
        | .optional inner => namesSecret casefold inner parts
        | .nested inner => hidesSecret inner parts
        | .plain => false
      else field.secret || namesSecret casefold field.shape.fields parts

def Rejected (model : List Field) (path : String) : Prop :=
  isProtected (secretPaths model) path = true ∨ canonicalPath casefold model (words path) = none

/-- One of the paths is rejected; or none hides a secret, and each path but those that a later one
repeats is spelled as the model spells it and has no later one above or below it. -/
def Clean (model : List Field) (paths : List String) : Prop :=
  (∃ path ∈ paths, Rejected casefold model path) ∨
    (∀ path ∈ paths, hidesSecret casefold model (words path) = false) ∧
      ∀ before path after, paths = before ++ path :: after →
        (∃ later ∈ after, canonicalPath casefold model (words later) =
          canonicalPath casefold model (words path)) ∨
        canonicalPath casefold model (words path) = some (words path) ∧
          ∀ later ∈ after, ∀ canonical,
            canonicalPath casefold model (words later) = some canonical →
              ¬ words path <+: canonical ∧ ¬ canonical <+: words path

end

/-! ### Lookup lemmas -/

section
variable {casefold : String → String} {fields model : List Field} {parts canonical : List String}

lemma canonicalPath_cons {part} (h : canonicalPath casefold fields (part :: parts) =
    some canonical) : ∃ field rest, findField casefold fields part = some field ∧
      canonicalPath casefold field.shape.fields parts = some rest ∧
      canonical = field.name :: rest := by
  rw [canonicalPath] at h
  split at h
  · cases h
  · rename_i field found
    obtain ⟨rest, hrest, rfl⟩ := Option.map_eq_some_iff.mp h
    exact ⟨field, rest, found, hrest, rfl⟩

lemma canonicalPath_initial {more longer} (pre : parts <+: more)
    (h : canonicalPath casefold fields more = some longer) :
    ∃ shorter, canonicalPath casefold fields parts = some shorter ∧ shorter <+: longer := by
  induction parts generalizing fields more longer with
  | nil => exact ⟨[], rfl, nil_prefix⟩
  | cons part parts ih =>
    cases more with
    | nil => exact absurd (prefix_nil.mp pre) (cons_ne_nil _ _)
    | cons =>
      obtain ⟨rfl, initial⟩ := cons_prefix_cons.mp pre
      obtain ⟨field, _, found, hrest, rfl⟩ := canonicalPath_cons h
      obtain ⟨shorter, hshorter, sub⟩ := ih initial hrest
      refine ⟨field.name :: shorter, ?_, cons_prefix_cons.mpr ⟨rfl, sub⟩⟩
      rw [canonicalPath, found]
      dsimp only
      rw [hshorter]
      rfl

lemma words_ne_nil (name : String) : words name ≠ [] := by
  intro h
  exact splitOn_ne_nil _ _ (map_eq_nil_iff.mp h)

/-! ### Secrets -/

lemma namesSecret_of_hidesSecret (h : hidesSecret casefold fields parts = true) :
    namesSecret casefold fields parts = true := by
  induction parts generalizing fields with
  | nil => cases h
  | cons part parts ih =>
    rw [hidesSecret] at h
    rw [namesSecret]
    split at h
    · cases h
    rename_i field found
    rw [Bool.or_eq_true]
    split at h
    · right
      split at h
      · rename_i inner shape
        rw [shape]
        exact h
      · rename_i inner shape
        rw [shape]
        exact ih h
      · cases h
    · exact Bool.or_eq_true_iff.mp h

variable {overrides : List (String × Nested)} {override : String × Nested} {merged : Mapping}
  {path : String} {before after : List String}

lemma mem_walk {field base} (mem : field ∈ fields)
    (h : path ∈ field.secretPaths base) : path ∈ walk fields base := by
  induction fields with
  | nil => cases mem
  | cons first fields ih =>
    rw [walk, mem_append]
    rcases mem_cons.mp mem with rfl | mem
    · exact .inl h
    · exact .inr (ih mem)

lemma joinPath_ne {base name} (ne : name ≠ "") : joinPath base name ≠ "" := by
  unfold joinPath
  split
  · exact ne
  · intro h
    have texts := congrArg String.toList h
    simp at texts

lemma joinPath_dotted {base name rest} (ne : name ≠ "") (more : rest ≠ []) :
    joinPath base (dotted (name :: rest)) = joinPath (joinPath base name) (dotted rest) := by
  have names : dotted (name :: rest) = name ++ "." ++ dotted rest :=
    dotted_append (cons_ne_nil name []) more
  rw [joinPath, joinPath, if_neg (joinPath_ne ne), names]
  unfold joinPath
  split
  · rfl
  · simp only [String.append_assoc]

lemma exists_secretPath (base : String) (named : namesSecret casefold fields parts = true)
    (shown : hidesSecret casefold fields parts = false) :
    ∃ front, front ≠ [] ∧ front <+: parts ∧ joinPath base (dotted front) ∈ walk fields base := by
  induction parts generalizing fields base with
  | nil => cases named
  | cons part parts ih =>
    rw [namesSecret] at named
    rw [hidesSecret] at shown
    split at named
    · cases named
    rename_i field found
    have mem : field ∈ fields := mem_of_find?_eq_some found
    obtain ⟨name, secret, shape, name_ne⟩ := field
    rw [found] at shown
    dsimp only at named shown
    by_cases same : name = part
    · subst same
      rw [if_pos rfl] at shown
      by_cases here : secret = true
      · subst here
        refine ⟨[name], cons_ne_nil _ _, cons_prefix_cons.mpr ⟨rfl, nil_prefix⟩, ?_⟩
        apply mem_walk mem
        rw [FieldOf.secretPaths, if_pos rfl]
        exact mem_append_left _ (mem_singleton_self _)
      · rw [Bool.or_eq_true, or_iff_right here] at named
        cases shape with
        | plain =>
          cases parts with
          | nil | cons => cases named
        | optional =>
          exact absurd (shown.symm.trans named) Bool.false_ne_true
        | nested =>
          -- The rest of the path is walked below this field.
          obtain ⟨front, ne, pre, below⟩ := ih (joinPath base name) named shown
          refine ⟨name :: front, cons_ne_nil _ _, cons_prefix_cons.mpr ⟨rfl, pre⟩, ?_⟩
          apply mem_walk mem
          rw [FieldOf.secretPaths, Shape.secretPaths]
          apply mem_append_right
          rw [joinPath_dotted name_ne ne]
          exact below
    · rw [if_neg same] at shown
      rw [shown] at named
      cases named

lemma isProtected_of_namesSecret (named : namesSecret casefold model (words path) = true)
    (shown : hidesSecret casefold model (words path) = false) :
    isProtected (secretPaths model) path = true := by
  obtain ⟨front, ne, ⟨rest, split⟩, found⟩ := exists_secretPath "" named shown
  rw [joinPath, if_pos rfl] at found
  have spelled := dotted_words path
  rw [← split] at spelled
  rw [isProtected, Bool.or_eq_true]
  by_cases last : rest = []
  · left
    rw [last, append_nil] at spelled
    rw [← spelled]
    exact decide_eq_true found
  · right
    rw [dotted_append ne last] at spelled
    rw [any_eq_true]
    refine ⟨dotted front, found, ?_⟩
    rw [ isPrefixOf_iff_prefix, ← spelled]
    exact ⟨(dotted rest).toList, String.toList_append.symm⟩

/-! ### The loop over the overrides -/

def assigned (merged : Mapping) (overrides : List (String × Nested)) : Mapping :=
  overrides.foldl (fun merged override => merged.set (words override.1) override.2) merged

lemma applyOverride_ok {merged'} :
    applyOverride casefold model merged override = .ok merged' ↔
      ¬ Rejected casefold model override.1 ∧ merged' = merged.set (words override.1) override.2 := by
  have accepted : ¬ Rejected casefold model override.1 ↔
      isProtected (secretPaths model) override.1 = false ∧
        (canonicalPath casefold model (words override.1)).isSome = true := by
    rw [Rejected, not_or, Bool.not_eq_true, Option.isSome_iff_ne_none]
  rw [accepted, applyOverride, then_ok, then_ok, require_ok, require_ok, Except.ok.injEq, and_assoc,
    eq_comm (a := merged')]

lemma foldlM_applyOverride {merged'} :
    overrides.foldlM (applyOverride casefold model) merged = .ok merged' ↔
      (∀ override ∈ overrides, ¬ Rejected casefold model override.1) ∧
        merged' = assigned merged overrides := by
  induction overrides generalizing merged with
  | nil =>
    constructor
    · intro h
      cases h
      exact ⟨fun _ mem => absurd mem not_mem_nil, rfl⟩
    · rintro ⟨-, rfl⟩
      rfl
  | cons override overrides ih =>
    rw [foldlM_cons, forall_mem_cons]
    constructor
    · intro h
      obtain ⟨_, applied, h⟩ := bind_ok.mp h
      obtain ⟨accepted, rfl⟩ := applyOverride_ok.mp applied
      obtain ⟨rest, rfl⟩ := ih.mp h
      exact ⟨⟨accepted, rest⟩, rfl⟩
    · rintro ⟨⟨accepted, rest⟩, rfl⟩
      rw [applyOverride_ok.mpr ⟨accepted, rfl⟩, ok_bind]
      exact ih.mpr ⟨rest, rfl⟩

lemma loadSettings_ok {sources} (h : loadSettings casefold model sources overrides = .ok merged) :
    (∀ override ∈ overrides, ¬ Rejected casefold model override.1) ∧
      ∃ start, merged = assigned start overrides := by
  obtain ⟨start, -, run⟩ := bind_ok.mp h
  obtain ⟨accepted, result⟩ := foldlM_applyOverride.mp run
  exact ⟨accepted, start, result⟩

lemma loadSettings_empty (accepted : ∀ override ∈ overrides, ¬ Rejected casefold model override.1) :
    loadSettings casefold model {} overrides = .ok (assigned [] overrides) :=
  foldlM_applyOverride.mpr ⟨accepted, rfl⟩

lemma assigned_append (merged : Mapping) (before after : List (String × Nested)) :
    assigned merged (before ++ after) = assigned (assigned merged before) after :=
  foldl_append

lemma get_assigned_other {path}
    (h : ∀ override ∈ overrides, ¬ words override.1 <+: path ∧ ¬ path <+: words override.1) :
    (assigned merged overrides).get path = merged.get path := by
  induction overrides generalizing merged with
  | nil => rfl
  | cons override overrides ih =>
    obtain ⟨⟨above, below⟩, rest⟩ := forall_mem_cons.mp h
    show (assigned (merged.set _ _) overrides).get path = _
    rw [ih rest, Mapping.get_set_other above below]

lemma get_assigned_text {path text}
    (texts : ∀ override ∈ overrides, ∃ given, override.2 = .text given)
    (h : (assigned merged overrides).get path = some (.text text)) :
    (∃ override ∈ overrides, words override.1 = path ∧ override.2 = .text text) ∨
      merged.get path = some (.text text) := by
  induction overrides generalizing merged with
  | nil => exact .inr h
  | cons override overrides ih =>
    obtain ⟨⟨_, hgiven⟩, rest⟩ := forall_mem_cons.mp texts
    rcases ih rest h with ⟨later, mem, found⟩ | here
    · exact .inl ⟨later, mem_cons_of_mem _ mem, found⟩
    dsimp only at here
    rw [hgiven] at here
    rcases Mapping.get_set_text here with ⟨rfl, rfl⟩ | earlier
    · exact .inl ⟨override, mem_cons_self, rfl, hgiven⟩
    · exact .inr earlier

/-! ### Honoured overrides -/

lemma honoured_of_clean {sources} (clean : Clean casefold model (overrides.map Prod.fst))
    (h : loadSettings casefold model sources overrides = .ok merged) :
    Honoured casefold model overrides merged := by
  obtain ⟨accepted, start, rfl⟩ := loadSettings_ok h
  rcases clean with ⟨path, mem, rejected⟩ | ⟨shown, spelled⟩
  · obtain ⟨override, given, rfl⟩ := mem_map.mp mem
    exact absurd rejected (accepted override given)
  refine ⟨?_, ?_⟩
  · intro override mem
    by_contra named
    apply accepted override mem
    left
    exact isProtected_of_namesSecret (eq_true_of_ne_false named)
      (shown override.1 (mem_map_of_mem mem))
  · rintro before after path value canonical rfl last hcanonical
    have split := spelled (before.map Prod.fst) path (after.map Prod.fst) (by
      rw [map_append, map_cons])
    rw [hcanonical] at split
    rcases split with ⟨later, mem, same⟩ | ⟨same, clear⟩
    · obtain ⟨override, given, rfl⟩ := mem_map.mp mem
      exact absurd same (last override given)
    obtain rfl := Option.some.inj same
    have apart : ∀ later ∈ after,
        ¬ words later.1 <+: words path ∧ ¬ words path <+: words later.1 := by
      intro later mem
      have clear' := clear later.1 (mem_map_of_mem mem)
      refine ⟨?_, ?_⟩
      · intro above
        obtain ⟨shorter, found, sub⟩ := canonicalPath_initial above hcanonical
        exact (clear' shorter found).2 sub
      · intro below
        have known : canonicalPath casefold model (words later.1) ≠ none := by
          intro unknown
          exact accepted later
            (mem_append_right _ (mem_cons_of_mem _ mem)) (.inr unknown)
        obtain ⟨longer, hlonger⟩ := Option.ne_none_iff_exists'.mp known
        obtain ⟨_, found, sub⟩ := canonicalPath_initial below hlonger
        rw [hcanonical] at found
        obtain rfl := Option.some.inj found
        exact (clear' longer hlonger).1 sub
    rw [assigned_append]
    show (assigned ((assigned start before).set (words path) value) after).get _ = _
    rw [get_assigned_other apart, Mapping.get_set_self (words_ne_nil path)]

lemma exists_last {α : Type*} {P : α → Prop} {l : List α} (h : ∃ a ∈ l, P a) :
    ∃ front a back, l = front ++ a :: back ∧ P a ∧ ∀ b ∈ back, ¬ P b := by
  induction l with
  | nil =>
    obtain ⟨a, mem, -⟩ := h
    cases mem
  | cons a l ih =>
    by_cases later : ∃ b ∈ l, P b
    · obtain ⟨front, b, back, rfl, hb, rest⟩ := ih later
      exact ⟨a :: front, b, back, rfl, hb, rest⟩
    · obtain ⟨b, mem, hb⟩ := h
      rcases mem_cons.mp mem with rfl | mem
      · exact ⟨[], b, l, rfl, hb, fun c hc hP => later ⟨c, hc, hP⟩⟩
      · exact absurd ⟨b, mem, hb⟩ later

/-- Overrides that differ from the one that is tried. -/
def others (paths : List String) : List (String × Nested) := paths.map (·, .text "other")

def trial (before : List String) (path : String) (after : List String) : List (String × Nested) :=
  others before ++ (path, .text "this") :: others after

lemma others_paths (paths : List String) : (others paths).map Prod.fst = paths := by
  simp [others, Function.comp_def]

lemma mem_others {paths} (h : override ∈ others paths) :
    override.1 ∈ paths ∧ override.2 = .text "other" := by
  obtain ⟨_, mem, rfl⟩ := mem_map.mp h
  exact ⟨mem, rfl⟩

lemma trial_paths (before : List String) (path : String) (after : List String) :
    (trial before path after).map Prod.fst = before ++ path :: after := by
  rw [trial, map_append, map_cons, others_paths, others_paths]

lemma trial_split (before : List String) (path : String) (front : List String) (final : String)
    (back : List String) : trial before path (front ++ final :: back) =
      (others before ++ (path, .text "this") :: others front) ++
        (final, .text "other") :: others back := by
  simp [trial, others]

lemma mem_trial (h : override ∈ trial before path after) :
    override = (path, .text "this") ∨ override.2 = .text "other" := by
  rcases mem_append.mp h with mem | mem
  · exact .inr (mem_others mem).2
  · rcases mem_cons.mp mem with here | mem
    · exact .inl here
    · exact .inr (mem_others mem).2

lemma get_trial {start}
    (h : (assigned [] (trial before path after)).get start = some (.text "this")) :
    words path = start := by
  have texts : ∀ override ∈ trial before path after, ∃ given, override.2 = .text given := by
    intro override mem
    rcases mem_trial mem with rfl | text
    · exact ⟨_, rfl⟩
    · exact ⟨_, text⟩
  rcases get_assigned_text texts h with ⟨_, mem, rfl, same⟩ | old
  · rcases mem_trial mem with rfl | text
    · rfl
    · rw [text] at same
      exact absurd (Nested.text.inj same) (by decide)
  · rw [Mapping.get_nil] at old
    cases old

lemma clean_of_honoured {paths : List String}
    (h : ∀ overrides merged, overrides.map Prod.fst = paths →
      loadSettings casefold model {} overrides = .ok merged →
        Honoured casefold model overrides merged) : Clean casefold model paths := by
  by_cases rejected : ∃ path ∈ paths, Rejected casefold model path
  · exact .inl rejected
  have accepted : ∀ {overrides}, overrides.map Prod.fst = paths →
      Honoured casefold model overrides (assigned [] overrides) := by
    rintro overrides rfl
    apply h _ _ rfl
    apply loadSettings_empty
    intro override mem bad
    exact rejected ⟨override.1, mem_map_of_mem mem, bad⟩
  refine .inr ⟨?_, ?_⟩
  · intro path mem
    obtain ⟨before, after, rfl⟩ := append_of_mem mem
    have honoured := accepted (trial_paths before path after)
    by_contra hidden
    have clear := honoured.secrets (path, .text "this")
      (mem_append_right _ mem_cons_self)
    rw [namesSecret_of_hidesSecret (eq_true_of_ne_false hidden)] at clear
    cases clear
  · rintro before path after rfl
    by_cases repeated : ∃ later ∈ after, canonicalPath casefold model (words later) =
        canonicalPath casefold model (words path)
    · exact .inl repeated
    right
    have known : canonicalPath casefold model (words path) ≠ none := by
      intro unknown
      exact rejected ⟨path, mem_append_right _ mem_cons_self, .inr unknown⟩
    obtain ⟨canonical, hcanonical⟩ := Option.ne_none_iff_exists'.mp known
    have honoured := accepted (trial_paths before path after)
    have this := honoured.effective rfl (by
      intro later mem same
      exact repeated ⟨later.1, (mem_others mem).1, same.trans hcanonical.symm⟩) hcanonical
    obtain rfl := get_trial this
    refine ⟨hcanonical, ?_⟩
    intro later mem canonical hlater
    -- The last override of the later field leaves its text, above or below the text of this one.
    obtain ⟨front, final, back, split, same, rest⟩ :=
      exists_last (P := fun name => canonicalPath casefold model (words name) = some canonical)
        ⟨later, mem, hlater⟩
    subst split
    have other := honoured.effective (trial_split before path front final back)
      (fun last mem => rest last.1 (mem_others mem).1) same
    have differ : canonical ≠ words path := by
      rintro rfl
      exact repeated ⟨later, mem, hlater.trans hcanonical.symm⟩
    refine ⟨?_, ?_⟩
    · rintro ⟨more, rfl⟩
      have proper : more ≠ [] := by
        rintro rfl
        exact differ (append_nil _)
      rw [Mapping.get_below_text this proper] at other
      cases other
    · rintro ⟨more, longer⟩
      have proper : more ≠ [] := by
        rintro rfl
        exact differ (by rw [← longer, append_nil])
      rw [← longer, Mapping.get_below_text other proper] at this
      cases this

end

/-- Every run over the paths honours the overrides exactly if the paths are clean. -/
theorem honoured_iff (casefold : String → String) (model : List Field) (paths : List String) :
    (∀ sources overrides merged, overrides.map Prod.fst = paths →
      loadSettings casefold model sources overrides = .ok merged →
        Honoured casefold model overrides merged) ↔
      Clean casefold model paths := by
  constructor
  · intro h
    exact clean_of_honoured (h {})
  · rintro clean sources overrides merged rfl run
    exact honoured_of_clean clean run

/-- `str.casefold` on ASCII. -/
def asciiCasefold (text : String) : String := String.ofList (text.toList.map Char.toLower)

/-- A model with a secret, and one more behind an optional model. -/
def service : List Field :=
  [⟨"token", true, .plain, by decide⟩,
   ⟨"database", false, .optional [⟨"password", true, .plain, by decide⟩], by decide⟩]

/-- Both secrets are reached: the one behind the optional model is set, and the one in another
spelling is accepted and leaves the field as it was. -/
theorem secrets_reached :
    namesSecret asciiCasefold service (words "database.password") = true ∧
    loadSettings asciiCasefold service {} [("database.password", .text "hunter2")] =
      .ok [("database", .mapping [("password", .text "hunter2")])] ∧
    namesSecret asciiCasefold service (words "TOKEN") = true ∧
    canonicalPath asciiCasefold service (words "TOKEN") = some ["token"] ∧
    loadSettings asciiCasefold service {} [("TOKEN", .text "hunter2")] =
      .ok [("TOKEN", .text "hunter2")] := by
  refine ⟨by decide +kernel, rfl, by decide +kernel, by decide +kernel, rfl⟩

end ToriPy.Settings
