import ToriPy.Base.Except

/-!
# Depth-first search with a cycle check

The search of a graph that is discovered while it is searched: a node has links, and following a
link gives a node and may change what is known or fail. A node is under way while it is on the stack
and finished once all of its links are; to come to a node that is under way is a cycle. The finished
nodes are kept in their order, each with the nodes that its links led to.

What a search finishes is in dependency-first order: every node comes once, after the nodes that it
leads to, so that positions in the order go down along the links.
-/

namespace ToriPy

open List

variable {α : Type}

/-! ### Orders -/

/-- Every node comes once, after the nodes that it leads to. -/
inductive DependencyFirst : List (α × List α) → Prop
  | nil : DependencyFirst []
  | snoc {order : List (α × List α)} {node : α} {successors : List α} :
    DependencyFirst order → node ∉ order.map Prod.fst →
    (∀ successor ∈ successors, successor ∈ order.map Prod.fst) →
    DependencyFirst (order ++ [(node, successors)])

namespace DependencyFirst

variable {order : List (α × List α)}

lemma nodup (h : DependencyFirst order) : (order.map Prod.fst).Nodup := by
  induction h with
  | nil => exact nodup_nil
  | snoc _ fresh _ ih =>
    rw [map_append, map_singleton]
    exact nodup_append.mpr ⟨ih, nodup_cons.mpr ⟨not_mem_nil, nodup_nil⟩, by
      intro a mem b here same
      obtain rfl := mem_singleton.mp here
      exact fresh (same ▸ mem)⟩

/-- A link leads to an earlier position. -/
lemma idxOf_lt [DecidableEq α] (h : DependencyFirst order) {node successor successors}
    (mem : (node, successors) ∈ order) (link : successor ∈ successors) :
    (order.map Prod.fst).idxOf successor < (order.map Prod.fst).idxOf node := by
  induction h with
  | nil => cases mem
  | @snoc order last others _ fresh known ih =>
    rw [map_append]
    rcases mem_append.mp mem with mem | mem
    · have here : node ∈ order.map Prod.fst := mem_map_of_mem mem
      have lt := ih mem
      have bound := idxOf_lt_length_of_mem here
      rw [idxOf_append_of_mem here, idxOf_append_of_mem]
      · exact lt
      · exact idxOf_lt_length_iff.mp (Nat.lt_trans lt bound)
    · cases mem_singleton.mp mem
      rw [idxOf_append_of_mem (known successor link), idxOf_append_of_notMem fresh]
      have bound := idxOf_lt_length_of_mem (known successor link)
      exact Nat.lt_of_lt_of_le bound (Nat.le_add_right _ _)

lemma mem_of_link (h : DependencyFirst order) {node successor successors}
    (mem : (node, successors) ∈ order) (link : successor ∈ successors) :
    successor ∈ order.map Prod.fst := by
  induction h with
  | nil => cases mem
  | snoc _ _ known ih =>
    rw [map_append]
    apply mem_append_left
    rcases mem_append.mp mem with mem | mem
    · exact ih mem
    · cases mem_singleton.mp mem
      exact known successor link

end DependencyFirst

/-! ### Search -/

namespace DepthFirst

variable {σ ι ε : Type}

/-- Why a search stops early. -/
inductive Stop (α ε : Type) where
  | failed (error : ε)
  | cycle (path : List α)
  | exhausted

/-- A graph that is discovered while it is searched. -/
structure Explorer (σ ι α ε : Type) where
  links : σ → α → List ι
  follow : σ → ι → Except ε (α × σ)

/-- What is known, and what is finished. -/
structure Progress (σ α : Type) where
  state : σ
  finished : List (α × List α) := []

def Progress.nodes (progress : Progress σ α) : List α := progress.finished.map Prod.fst

/-- One link of a node: it is followed, and the node that it leads to is searched. -/
def visitLink (explorer : Explorer σ ι α ε)
    (visit : Progress σ α → α → Except (Stop α ε) (Progress σ α)) :
    Progress σ α × List α → ι → Except (Stop α ε) (Progress σ α × List α)
  | (progress, successors), link => do
    let (child, state) ← (explorer.follow progress.state link).mapError Stop.failed
    let progress ← visit { progress with state } child
    .ok (progress, successors ++ [child])

/-- What a search does to its progress. -/
structure Extends (stack : List α) (progress progress' : Progress σ α) : Prop where
  keeps : ∀ node ∈ progress.nodes, node ∈ progress'.nodes
  clear : ∀ node ∈ progress'.nodes, node ∈ stack → node ∈ progress.nodes
  ordered : DependencyFirst progress.finished → DependencyFirst progress'.finished

namespace Extends

variable {stack : List α} {progress progress' progress'' : Progress σ α}

lemma refl (h : progress'.finished = progress.finished) : Extends stack progress progress' := by
  have nodes : progress'.nodes = progress.nodes := congrArg (List.map Prod.fst) h
  refine ⟨?_, ?_, ?_⟩
  · intro node mem
    exact nodes ▸ mem
  · intro node mem _
    exact nodes ▸ mem
  · intro ordered
    exact h ▸ ordered

lemma trans (h : Extends stack progress progress') (h' : Extends stack progress' progress'') :
    Extends stack progress progress'' := by
  refine ⟨?_, ?_, ?_⟩
  · intro node mem
    exact h'.keeps node (h.keeps node mem)
  · intro node mem on
    exact h.clear node (h'.clear node mem on) on
  · intro ordered
    exact h'.ordered (h.ordered ordered)

end Extends

variable {explorer : Explorer σ ι α ε} {successors successors' : List α}

/-- The loop over the links, for a search that is known to extend. -/
lemma foldlM_visitLink {stack : List α} {links : List ι}
    {visit : Progress σ α → α → Except (Stop α ε) (Progress σ α)}
    (visited : ∀ {progress node progress'}, visit progress node = .ok progress' →
      Extends stack progress progress' ∧ node ∈ progress'.nodes) {progress progress'}
    (known : ∀ successor ∈ successors, successor ∈ progress.nodes)
    (h : links.foldlM (visitLink explorer visit) (progress, successors) =
      .ok (progress', successors')) :
    Extends stack progress progress' ∧ ∀ successor ∈ successors', successor ∈ progress'.nodes := by
  induction links generalizing progress successors with
  | nil =>
    cases h
    exact ⟨.refl rfl, known⟩
  | cons link links ih =>
    rw [foldlM_cons] at h
    obtain ⟨⟨_, _⟩, followed, rest⟩ := bind_ok.mp h
    obtain ⟨⟨_, state⟩, -, followed⟩ := bind_ok.mp followed
    obtain ⟨_, found, followed⟩ := bind_ok.mp followed
    cases followed
    obtain ⟨first, here⟩ := visited found
    have start : Extends stack progress { progress with state } := .refl rfl
    have first := start.trans first
    obtain ⟨others, all⟩ := ih (by
      intro successor mem
      rcases mem_append.mp mem with mem | mem
      · exact first.keeps successor (known successor mem)
      · obtain rfl := mem_singleton.mp mem
        exact here) rest
    exact ⟨first.trans others, all⟩

/-- A graph that is known beforehand. -/
def static (next : α → List α) : Explorer Unit α α Empty where
  links _ node := next node
  follow _ link := .ok (link, ())

/-- The nodes of a known graph are finished with their successors. -/
def Faithful (next : α → List α) (progress : Progress Unit α) : Prop :=
  ∀ edge ∈ progress.finished, edge.2 = next edge.1

variable {next : α → List α}

lemma foldlM_visitLink_static {links visit}
    (visited : ∀ {progress node progress'}, visit progress node = .ok progress' →
      Faithful next progress → Faithful next progress') {progress progress'}
    (h : links.foldlM (visitLink (static next) visit) (progress, successors) =
      .ok (progress', successors')) (faithful : Faithful next progress) :
    Faithful next progress' ∧ successors' = successors ++ links := by
  induction links generalizing progress successors with
  | nil =>
    cases h
    exact ⟨faithful, (append_nil _).symm⟩
  | cons link links ih =>
    rw [foldlM_cons] at h
    obtain ⟨⟨_, _⟩, followed, rest⟩ := bind_ok.mp h
    obtain ⟨⟨_, _⟩, child_eq, followed⟩ := bind_ok.mp followed
    cases child_eq
    obtain ⟨_, found, followed⟩ := bind_ok.mp followed
    cases followed
    obtain ⟨last, rfl⟩ := ih rest (visited found faithful)
    exact ⟨last, by rw [append_assoc]; rfl⟩

variable [DecidableEq α] {fuel : Nat}

/-- The search below a node, with the stack of the nodes that are under way. -/
def visit (explorer : Explorer σ ι α ε) (fuel : Nat) (stack : List α) (progress : Progress σ α)
    (node : α) : Except (Stop α ε) (Progress σ α) :=
  if node ∈ progress.nodes then .ok progress
  else if node ∈ stack then .error (.cycle (stack ++ [node]))
  else
    match fuel with
    | 0 => .error .exhausted
    | fuel + 1 => do
      let (progress, successors) ← (explorer.links progress.state node).foldlM
        (visitLink explorer (visit explorer fuel (stack ++ [node]))) (progress, [])
      .ok { progress with finished := progress.finished ++ [(node, successors)] }

/-- A search that comes to its end has finished the node, and everything below it first. -/
lemma visit_ok {stack : List α} {progress progress' node}
    (h : visit explorer fuel stack progress node = .ok progress') :
    Extends stack progress progress' ∧ node ∈ progress'.nodes := by
  induction fuel generalizing stack progress node progress' with
  | zero =>
    unfold visit at h
    split at h
    · cases h
      exact ⟨.refl rfl, ‹_›⟩
    · split at h <;> cases h
  | succ fuel ih =>
    unfold visit at h
    split at h
    · cases h
      exact ⟨.refl rfl, ‹_›⟩
    rename_i fresh
    split at h
    · cases h
    obtain ⟨⟨below, successors⟩, loop, h⟩ := bind_ok.mp h
    cases h
    obtain ⟨inner, known⟩ := foldlM_visitLink ih
      (fun _ mem => absurd mem not_mem_nil) loop
    have still : node ∉ below.nodes := by
      intro mem
      exact fresh (inner.clear node mem (mem_append_right _ (mem_singleton_self _)))
    have nodes : ∀ other, other ∈ Progress.nodes
        { below with finished := below.finished ++ [(node, successors)] } ↔
          other ∈ below.nodes ∨ other = node := by
      intro other
      simp [Progress.nodes]
    refine ⟨⟨?_, ?_, ?_⟩, (nodes node).mpr (.inr rfl)⟩
    · intro other mem
      exact (nodes other).mpr (.inl (inner.keeps other mem))
    · intro other mem on
      rcases (nodes other).mp mem with mem | rfl
      · exact inner.clear other mem (mem_append_left _ on)
      · exact absurd on ‹_›
    · intro ordered
      exact .snoc (inner.ordered ordered) still known

lemma visit_static {stack progress progress' node}
    (h : visit (static next) fuel stack progress node = .ok progress')
    (faithful : Faithful next progress) : Faithful next progress' := by
  induction fuel generalizing stack progress node progress' with
  | zero =>
    unfold visit at h
    split at h
    · cases h
      exact faithful
    · split at h <;> cases h
  | succ fuel ih =>
    unfold visit at h
    split at h
    · cases h
      exact faithful
    split at h
    · cases h
    obtain ⟨⟨below, _⟩, loop, h⟩ := bind_ok.mp h
    cases h
    obtain ⟨below_faithful, rfl⟩ := foldlM_visitLink_static ih loop faithful
    intro edge mem
    rcases mem_append.mp mem with mem | mem
    · exact below_faithful edge mem
    · obtain rfl := mem_singleton.mp mem
      exact nil_append _

/-- A known graph that is searched from all of some nodes is ordered below them. -/
lemma foldlM_visit_static {nodes : List α} {progress progress'}
    (h : nodes.foldlM (visit (static next) fuel []) progress = .ok progress')
    (faithful : Faithful next progress) (ordered : DependencyFirst progress.finished) :
    Faithful next progress' ∧ DependencyFirst progress'.finished ∧
      (∀ node ∈ progress.nodes, node ∈ progress'.nodes) ∧ ∀ node ∈ nodes, node ∈ progress'.nodes := by
  induction nodes generalizing progress with
  | nil =>
    cases h
    exact ⟨faithful, ordered, fun _ mem => mem, fun _ mem => absurd mem not_mem_nil⟩
  | cons node nodes ih =>
    rw [foldlM_cons] at h
    obtain ⟨_, found, rest⟩ := bind_ok.mp h
    obtain ⟨extended, here⟩ := visit_ok found
    obtain ⟨faithful', ordered', keeps, all⟩ :=
      ih rest (visit_static found faithful) (extended.ordered ordered)
    refine ⟨faithful', ordered', ?_, ?_⟩
    · intro other mem
      exact keeps other (extended.keeps other mem)
    · intro other mem
      rcases mem_cons.mp mem with rfl | mem
      · exact keeps other here
      · exact all other mem

/-- The successors of a finished node come earlier. -/
lemma Faithful.idxOf_lt {progress} (faithful : Faithful next progress)
    (ordered : DependencyFirst progress.finished) {node successor} (mem : node ∈ progress.nodes)
    (link : successor ∈ next node) :
    progress.nodes.idxOf successor < progress.nodes.idxOf node := by
  obtain ⟨⟨found, successors⟩, here, rfl⟩ := mem_map.mp mem
  have same : successors = next found := faithful _ here
  exact ordered.idxOf_lt here (same ▸ link)

end DepthFirst

end ToriPy
