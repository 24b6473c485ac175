import ToriPy.Base.Dict

/-!
# Render trees

`rendering.py` builds values of `Rendered`: static texts and dynamic ones in turns, where a dynamic
one is a text, another rendered value or a component. `_rendered_tree` turns such a value into the
tree of a message. The bodies of components are moved out of the tree, into a table that the same
traversal fills.

A client puts the page together again: it interleaves the statics of a node with its entries, and
replaces a number by the body of that component. It gets the HTML of the value (`message_expands`).
Streams are left out.
-/

namespace ToriPy.LiveView

open List

mutual

/-- `_RenderedDynamic`. -/
inductive Dynamic
  | text (value : String)
  | rendered (value : Rendered)
  | component (cid : Int) (value : Rendered)

/-- `Rendered`: one static more than there are dynamic parts. -/
inductive Rendered
  | last (static : String)
  | part (static : String) (dynamic : Dynamic) (rest : Rendered)

end

mutual

/-- `_dynamic_html`. -/
def Dynamic.toHtml : Dynamic → String
  | .text value => value
  | .rendered value | .component _ value => value.toHtml

/-- `to_html`. -/
def Rendered.toHtml : Rendered → String
  | .last static => static
  | .part static dynamic rest => static ++ dynamic.toHtml ++ rest.toHtml

end

def Rendered.statics : Rendered → List String
  | .last static => [static]
  | .part static _ rest => static :: rest.statics

/-- A part of a message: a text, the number of a component, or a node with its statics, the mark of
a root and the entries under the keys `"0"`, `"1"` and so on. -/
inductive Tree
  | text (value : String)
  | cid (cid : Int)
  | node (statics : List String) (root : Bool) (entries : List Tree)

mutual

/-- The entry of one dynamic part in `_rendered_tree`, with the table of components. -/
def Dynamic.tree : Dynamic → Dict Int Tree → Tree × Dict Int Tree
  | .text value, components => (.text value, components)
  | .rendered value, components =>
    let (entries, components) := value.entries components
    (.node value.statics false entries, components)
  | .component cid value, components =>
    let (entries, components) := value.entries components
    (.cid cid, components.insert cid (.node value.statics true entries))

/-- The loop of `_rendered_tree`. -/
def Rendered.entries : Rendered → Dict Int Tree → List Tree × Dict Int Tree
  | .last _, components => ([], components)
  | .part _ dynamic rest, components =>
    let (entry, components) := dynamic.tree components
    let (entries, components) := rest.entries components
    (entry :: entries, components)

end

structure Message where
  payload : Tree
  components : Dict Int Tree
  title : String

/-- A component on its own is put into a page. -/
def page (cid : Option Int) (rendered : Rendered) : Rendered :=
  match cid with
  | some cid => .part "" (.component cid rendered) (.last "")
  | none => rendered

/-- `_render_message`. -/
def renderMessage (cid : Option Int) (rendered : Rendered) (title : Option String) : Message :=
  let rendered := page cid rendered
  let (entries, components) := rendered.entries ∅
  { payload := .node rendered.statics false entries, components, title := title.getD "" }

/-! ### The client -/

def interleave : List String → List String → String
  | [], _ => ""
  | static :: statics, [] => static ++ interleave statics []
  | static :: statics, dynamic :: dynamics => static ++ dynamic ++ interleave statics dynamics

/-- What a client makes of a tree, if the fuel is enough. -/
def expand (components : Dict Int Tree) : Nat → Tree → Option String
  | 0, _ => none
  | _ + 1, .text value => some value
  | fuel + 1, .cid cid => (components.lookup cid).bind (expand components fuel)
  | fuel + 1, .node statics _ entries =>
    (entries.mapM (expand components fuel)).map (interleave statics)

/-! ### What the traversal leaves behind -/

/-- The body of a component in the table. -/
def Rendered.body (rendered : Rendered) : Tree :=
  .node rendered.statics true (rendered.entries ∅).1

mutual

/-- The components of a value, each behind those inside of it. -/
def Dynamic.components : Dynamic → List (Int × Rendered)
  | .text _ => []
  | .rendered value => value.components
  | .component cid value => value.components ++ [(cid, value)]

def Rendered.components : Rendered → List (Int × Rendered)
  | .last _ => []
  | .part _ dynamic rest => dynamic.components ++ rest.components

end

def fill (table : Dict Int Tree) (components : List (Int × Rendered)) : Dict Int Tree :=
  components.foldl (fun table component => table.insert component.1 component.2.body) table

mutual

lemma Dynamic.tree_eq : ∀ (dynamic : Dynamic) (table : Dict Int Tree),
    dynamic.tree table = ((dynamic.tree ∅).1, fill table dynamic.components)
  | .text _, _ => rfl
  | .rendered value, table => by
    simp only [Dynamic.tree, Dynamic.components]
    rw [value.entries_eq table]
  | .component cid value, table => by
    simp only [Dynamic.tree, Dynamic.components, fill, foldl_append, foldl_cons, foldl_nil]
    rw [value.entries_eq table]
    rfl

/-- The entries do not depend on the table, and the table gets the bodies of the components. -/
lemma Rendered.entries_eq : ∀ (rendered : Rendered) (table : Dict Int Tree),
    rendered.entries table = ((rendered.entries ∅).1, fill table rendered.components)
  | .last _, _ => rfl
  | .part _ dynamic rest, table => by
    simp only [Rendered.entries, Rendered.components, fill, foldl_append]
    rw [dynamic.tree_eq table, rest.entries_eq, rest.entries_eq (dynamic.tree ∅).2]
    rfl

end

/-- The number of a component denotes its content. -/
def Denoting (components : List (Int × Rendered)) : Prop :=
  ∀ a ∈ components, ∀ b ∈ components, a.1 = b.1 → a.2 = b.2

lemma lookup_fill {components} (denoting : Denoting components) {cid value}
    (mem : (cid, value) ∈ components) : (fill ∅ components).lookup cid = some value.body := by
  -- A body that is overwritten is overwritten by itself.
  induction components using reverseRecOn with
  | nil => cases mem
  | append_singleton components last ih =>
    have here := denoting _ mem last (mem_append_right _ mem_cons_self)
    rw [fill, foldl_append, foldl_cons, foldl_nil, Dict.lookup_insert_ite]
    split
    · rename_i same
      have content : value = last.2 := here same
      rw [content]
    · rename_i other
      obtain mem | same := mem_append.mp mem
      · exact ih (fun a ha b hb => denoting a (mem_append_left _ ha) b (mem_append_left _ hb)) mem
      · cases mem_singleton.mp same
        exact absurd rfl other

variable {table : Dict Int Tree}

mutual

lemma Dynamic.expands : ∀ (dynamic : Dynamic),
    (∀ component ∈ dynamic.components, table.lookup component.1 = some component.2.body) →
    ∃ enough, ∀ fuel ≥ enough, expand table fuel (dynamic.tree ∅).1 = some dynamic.toHtml
  | .text _, _ => by
    refine ⟨1, fun fuel more => ?_⟩
    obtain ⟨fuel, rfl⟩ := Nat.exists_eq_add_of_le' more
    rfl
  | .rendered value, filled => by
    obtain ⟨enough, expands⟩ := value.expands filled
    refine ⟨enough + 1, fun fuel more => ?_⟩
    obtain ⟨fuel, rfl⟩ := Nat.exists_eq_add_of_le' more
    exact expands (fuel + enough) (Nat.le_add_left _ _)
  | .component cid value, filled => by
    obtain ⟨inner, own⟩ := forall_mem_append.mp filled
    obtain ⟨enough, expands⟩ := value.expands inner
    refine ⟨enough + 2, fun fuel more => ?_⟩
    obtain ⟨fuel, rfl⟩ := Nat.exists_eq_add_of_le' more
    simp only [Dynamic.tree, expand, own (cid, value) mem_cons_self, Option.bind_some]
    exact expands (fuel + enough) (Nat.le_add_left _ _)

lemma Rendered.expands : ∀ (rendered : Rendered),
    (∀ component ∈ rendered.components, table.lookup component.1 = some component.2.body) →
    ∃ enough, ∀ fuel ≥ enough, ((rendered.entries ∅).1.mapM (expand table fuel)).map
      (interleave rendered.statics) = some rendered.toHtml
  | .last _, _ => ⟨0, fun _ _ => by
    simp [Rendered.entries, Rendered.statics, interleave, Rendered.toHtml]⟩
  | .part _ dynamic rest, filled => by
    obtain ⟨here, there⟩ := forall_mem_append.mp filled
    obtain ⟨enough, expands⟩ := dynamic.expands here
    obtain ⟨enough', expands'⟩ := rest.expands there
    refine ⟨max enough enough', fun fuel more => ?_⟩
    obtain ⟨texts, each, joined⟩ := Option.map_eq_some_iff.mp
      (expands' fuel (le_of_max_le_right more))
    simp only [Rendered.entries, rest.entries_eq (dynamic.tree ∅).2, mapM_cons,
      expands fuel (le_of_max_le_left more), each]
    simp [Rendered.statics, interleave, Rendered.toHtml, joined]

end

/-- A client that expands a message gets the HTML of the value that was rendered, at any depth. -/
theorem message_expands (cid : Option Int) (rendered : Rendered) (title : Option String)
    (denoting : Denoting (page cid rendered).components) :
    let message := renderMessage cid rendered title
    ∃ enough, ∀ fuel ≥ enough,
      expand message.components fuel message.payload = some rendered.toHtml := by
  obtain ⟨enough, expands⟩ := (page cid rendered).expands fun _ mem => lookup_fill denoting mem
  have html : (page cid rendered).toHtml = rendered.toHtml := by
    cases cid with
    | none => rfl
    | some => simp [page, Rendered.toHtml, Dynamic.toHtml]
  refine ⟨enough + 1, fun fuel more => ?_⟩
  obtain ⟨fuel, rfl⟩ := Nat.exists_eq_add_of_le' more
  have filled := congrArg Prod.snd ((page cid rendered).entries_eq ∅)
  dsimp only [renderMessage]
  rw [filled, ← html]
  exact expands (fuel + enough) (Nat.le_add_left _ _)

/-- A row with a component in it, which is shown twice on a page. -/
def row : Rendered :=
  .part "<li>" (.component 2 (.last "<b>&amp;</b>")) (.last "</li>")

def rows : Rendered :=
  .part "<ul>" (.component 1 row) (.part "" (.rendered (.part "" (.component 1 row) (.last "")))
    (.last "</ul>"))

theorem rows_expands : ∃ enough, ∀ fuel ≥ enough,
    expand (renderMessage none rows none).components fuel (renderMessage none rows none).payload =
      some "<ul><li><b>&amp;</b></li><li><b>&amp;</b></li></ul>" := by
  refine message_expands none rows none ?_
  simp [Denoting, page, rows, row, Rendered.components, Dynamic.components]

end ToriPy.LiveView
