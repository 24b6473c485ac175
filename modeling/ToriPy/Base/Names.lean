import Mathlib

/-!
# Dotted names and topics

Names that are composed of words with dots between them, as message brokers use them for queues and
routing keys. A name whose words hold no dot gives them back (`words_dotted`), so two names are
equal only if they are composed of the same words (`dotted_inj`). `topicMatches` is the matching of
AMQP topic exchanges, where `*` stands for one word and `#` for any number of them.
-/

namespace ToriPy

open List

/-- A word of a dotted name. -/
def Word (w : String) : Prop := '.' ∉ w.toList

instance (w : String) : Decidable (Word w) := inferInstanceAs (Decidable (_ ∉ _))

/-- A word that holds no wildcard. -/
def Literal (w : String) : Prop := ∀ c ∈ w.toList, c ≠ '.' ∧ c ≠ '#' ∧ c ≠ '*'

instance (w : String) : Decidable (Literal w) := List.decidableBAll _ _

variable {ws ps key : List String} {w : String}

lemma Literal.word (h : Literal w) : Word w := fun dot => (h '.' dot).1 rfl

lemma Literal.ne_hash (h : Literal w) : w ≠ "#" := by
  rintro rfl
  exact (h '#' (by decide)).2.1 rfl

lemma Literal.ne_star (h : Literal w) : w ≠ "*" := by
  rintro rfl
  exact (h '*' (by decide)).2.2 rfl

lemma Literal.append {v} (hw : Literal w) (hv : Literal v) : Literal (w ++ v) := by
  intro c mem
  rw [String.toList_append] at mem
  rcases mem_append.mp mem with mem | mem
  · exact hw c mem
  · exact hv c mem

/-- The words with dots between them. -/
def dotted : List String → String
  | [] => ""
  | [w] => w
  | w :: ws => w ++ "." ++ dotted ws

/-- The words of a dotted name. -/
def words (name : String) : List String :=
  (name.toList.splitOn '.').map String.ofList

lemma words_word (h : Word w) : words w = [w] := by
  rw [words, splitOn_eq_singleton h]
  simp

lemma words_cons (name : String) (h : Word w) : words (w ++ "." ++ name) = w :: words name := by
  have split : (w ++ "." ++ name).toList = w.toList ++ '.' :: name.toList := by simp
  rw [words, split, splitOn_append_cons_self_of_not_mem h]
  simp [words]

/-- A dotted name gives back the words it is composed of. -/
lemma words_dotted (h : ∀ w ∈ ws, Word w) (ne : ws ≠ []) : words (dotted ws) = ws := by
  induction ws with
  | nil => exact absurd rfl ne
  | cons w ws ih =>
    cases ws with
    | nil => exact words_word (h w mem_cons_self)
    | cons =>
      rw [dotted, words_cons _ (h w mem_cons_self)]
      · rw [ih (fun v hv => h v (mem_cons_of_mem _ hv)) (cons_ne_nil _ _)]
      · exact cons_ne_nil _ _

/-- The words of a name that goes on behind a dotted name. -/
lemma words_append (h : ∀ w ∈ ws, Word w) (ne : ws ≠ []) (name : String) :
    words (dotted ws ++ "." ++ name) = ws ++ words name := by
  induction ws with
  | nil => exact absurd rfl ne
  | cons w ws ih =>
    cases ws with
    | nil => exact words_cons name (h w mem_cons_self)
    | cons w' ws =>
      have assoc : dotted (w :: w' :: ws) ++ "." ++ name =
          w ++ "." ++ (dotted (w' :: ws) ++ "." ++ name) := by
        change w ++ "." ++ dotted (w' :: ws) ++ "." ++ name = _
        simp only [String.append_assoc]
      rw [assoc, words_cons _ (h w mem_cons_self)]
      rw [ih (fun v hv => h v (mem_cons_of_mem _ hv)) (cons_ne_nil _ _)]
      rfl

/-- Dotted names are equal only if their words are. -/
lemma dotted_inj {vs} (hw : ∀ w ∈ ws, Word w) (hv : ∀ v ∈ vs, Word v) (wne : ws ≠ [])
    (vne : vs ≠ []) (h : dotted ws = dotted vs) : ws = vs := by
  rw [← words_dotted hw wne, ← words_dotted hv vne, h]

/-- A name that starts with whole words is longer by the words that follow. -/
lemma dotted_append {vs} (wne : ws ≠ []) (vne : vs ≠ []) :
    dotted (ws ++ vs) = dotted ws ++ "." ++ dotted vs := by
  induction ws with
  | nil => exact absurd rfl wne
  | cons w ws ih =>
    cases ws with
    | nil =>
      cases vs with
      | nil => exact absurd rfl vne
      | cons => rfl
    | cons w' ws =>
      change w ++ "." ++ dotted (w' :: ws ++ vs) = w ++ "." ++ dotted (w' :: ws) ++ "." ++ dotted vs
      rw [ih (cons_ne_nil _ _)]
      simp only [String.append_assoc]

/-- The words of a name with dots between them are the name. -/
lemma dotted_words (name : String) : dotted (words name) = name := by
  have joined : ∀ parts : List (List Char), parts ≠ [] →
      (dotted (parts.map String.ofList)).toList = List.intercalate ['.'] parts := by
    intro parts ne
    induction parts with
    | nil => exact absurd rfl ne
    | cons part parts ih =>
      cases parts with
      | nil => simp [dotted]
      | cons =>
        rw [intercalate_cons_cons, ← ih (cons_ne_nil _ _)]
        simp [dotted]
  apply String.ext
  rw [words, joined _ (splitOn_ne_nil _ _), intercalate_splitOn]

/-- Topic matching, word by word. -/
def topicMatches : List String → List String → Bool
  | [], key => key.isEmpty
  | p :: ps, key =>
    if p = "#" then key.tails.any (topicMatches ps)
    else match key with
      | [] => false
      | w :: key => (p = "*" || p = w) && topicMatches ps key

lemma topicMatches_word {p} (literal : Literal p) :
    topicMatches (p :: ps) (w :: key) = true ↔ p = w ∧ topicMatches ps key = true := by
  simp [topicMatches, literal.ne_hash, literal.ne_star]

/-- A pattern without wildcards matches itself only. -/
lemma topicMatches_exact (h : ∀ p ∈ ps, Literal p) : topicMatches ps key = true ↔ ps = key := by
  induction ps generalizing key with
  | nil => cases key <;> simp [topicMatches]
  | cons p ps ih =>
    have literal := h p mem_cons_self
    cases key with
    | nil => simp [topicMatches, literal.ne_hash]
    | cons =>
      rw [topicMatches_word literal, ih fun p hp => h p (mem_cons_of_mem _ hp), List.cons.injEq]

/-- A pattern that ends in `*` matches its other words followed by one more. -/
lemma topicMatches_star (h : ∀ p ∈ ps, Literal p) :
    topicMatches (ps ++ ["*"]) key = true ↔ ∃ w, key = ps ++ [w] := by
  induction ps generalizing key with
  | nil =>
    cases key with
    | nil => simp [topicMatches]
    | cons w key => cases key <;> simp [topicMatches]
  | cons p ps ih =>
    have literal := h p mem_cons_self
    cases key with
    | nil => simp [topicMatches, literal.ne_hash]
    | cons =>
      rw [cons_append, topicMatches_word literal, ih fun p hp => h p (mem_cons_of_mem _ hp)]
      constructor
      · rintro ⟨rfl, v, rfl⟩
        exact ⟨v, rfl⟩
      · rintro ⟨v, h⟩
        cases h
        exact ⟨rfl, v, rfl⟩

/-- A separator that stands in neither front part divides two equal texts at the same place. -/
lemma append_cons_inj {α : Type*} {a} {front front' back back' : List α} (h : a ∉ front)
    (h' : a ∉ front') (same : front ++ a :: back = front' ++ a :: back') :
    front = front' ∧ back = back' := by
  induction front generalizing front' with
  | nil =>
    cases front' with
    | nil => exact ⟨rfl, (List.cons.inj same).2⟩
    | cons => exact absurd ((List.cons.inj same).1 ▸ mem_cons_self) h'
  | cons c front ih =>
    cases front' with
    | nil => exact absurd ((List.cons.inj same).1 ▸ mem_cons_self) h
    | cons =>
      obtain ⟨rfl, rest⟩ := List.cons.inj same
      obtain ⟨rfl, rfl⟩ := ih (fun mem => h (mem_cons_of_mem _ mem))
        (fun mem => h' (mem_cons_of_mem _ mem)) rest
      exact ⟨rfl, rfl⟩

/-- A separator that stands in neither back part divides two equal texts at the same place. -/
lemma append_cons_inj' {α : Type*} {a} {front front' back back' : List α} (h : a ∉ back)
    (h' : a ∉ back') (same : front ++ a :: back = front' ++ a :: back') :
    front = front' ∧ back = back' := by
  have reversed := congrArg List.reverse same
  simp only [reverse_append, reverse_cons, append_assoc, singleton_append]
    at reversed
  obtain ⟨backs, fronts⟩ := append_cons_inj (by rwa [mem_reverse])
    (by rwa [mem_reverse]) reversed
  exact ⟨reverse_inj.mp fronts, reverse_inj.mp backs⟩

/-- A decimal numeral is a word of digits. -/
lemma isDigit_of_mem_repr {n c} (h : c ∈ (Nat.repr n).toList) : c.isDigit = true := by
  rw [Nat.repr, String.toList_ofList] at h
  exact Nat.isDigit_of_mem_toDigits (by decide) (by decide) h

/-- Decimal numerals are equal only if the numbers are. -/
lemma eq_of_repr_eq {n m} (h : Nat.repr n = Nat.repr m) : n = m := by
  rw [Nat.repr, Nat.repr, String.ofList_inj] at h
  rw [← Nat.ofDigitChars_ten_toDigits (n := n), h, Nat.ofDigitChars_ten_toDigits]

end ToriPy
