import ToriPy.Base.Values

/-!
# Texts

The operations of Python's `str`, `int` and `uuid.UUID` that the packages use on texts, over lists of
characters. `fixedDigits` writes a number with a fixed number of digits and `readDigits` reads it
back; `replaceAll` is `str.replace`. The canonical text of a UUID reads back as that UUID
(`parse_text`).
-/

namespace ToriPy

open List

/-! ### Digits -/

/-- The value of a digit. -/
def digitValue (c : Char) : Option Nat :=
  if '0' ≤ c ∧ c ≤ '9' then some (c.toNat - 48)
  else if 'a' ≤ c ∧ c ≤ 'f' then some (c.toNat - 87)
  else if 'A' ≤ c ∧ c ≤ 'F' then some (c.toNat - 55)
  else none

/-- The last `width` digits of a number, the most significant first. -/
def fixedDigits (base : Nat) : Nat → Nat → List Char
  | 0, _ => []
  | width + 1, n => fixedDigits base width (n / base) ++ [Nat.digitChar (n % base)]

/-- One more digit behind a number. -/
def readDigit (base n : Nat) (c : Char) : Option Nat :=
  (digitValue c).bind fun d => if d < base then some (base * n + d) else none

/-- The number that a sequence of digits stands for. -/
def readDigits (base : Nat) (cs : List Char) : Option Nat := cs.foldlM (readDigit base) 0

lemma digitValue_digitChar {d} (h : d < 16) : digitValue (Nat.digitChar d) = some d := by
  have all : ∀ d < 16, digitValue (Nat.digitChar d) = some d := by decide
  exact all d h

@[simp] lemma length_fixedDigits (base width n : Nat) :
    (fixedDigits base width n).length = width := by
  induction width generalizing n with
  | zero => rfl
  | succ width ih => rw [fixedDigits, length_append, ih, length_singleton]

/-- Every digit written is a digit below the base. -/
lemma mem_fixedDigits {base width n} (pos : 0 < base) {c}
    (h : c ∈ fixedDigits base width n) : ∃ d < base, c = Nat.digitChar d := by
  induction width generalizing n with
  | zero => cases h
  | succ width ih =>
    rcases mem_append.mp h with mem | mem
    · exact ih mem
    · exact ⟨n % base, Nat.mod_lt _ pos, mem_singleton.mp mem⟩

/-- What is written with enough digits reads back. -/
lemma readDigits_fixedDigits {base width n} (pos : 0 < base) (le : base ≤ 16)
    (h : n < base ^ width) : readDigits base (fixedDigits base width n) = some n := by
  induction width generalizing n with
  | zero =>
    obtain rfl : n = 0 := by simpa using h
    rfl
  | succ width ih =>
    have small : n / base < base ^ width := by
      apply Nat.div_lt_of_lt_mul
      rw [← Nat.pow_succ']
      exact h
    have digit : n % base < base := Nat.mod_lt _ pos
    have last : readDigit base (n / base) (Nat.digitChar (n % base)) = some n := by
      rw [readDigit, digitValue_digitChar (Nat.lt_of_lt_of_le digit le), Option.bind_some,
        if_pos digit, Nat.div_add_mod]
    have rest := ih small
    rw [readDigits] at rest ⊢
    rw [fixedDigits, foldlM_append, rest]
    simpa [foldlM_cons] using last

/-! ### Replacing -/

/-- `str.replace`: the occurrences of `pat` from left to right, `skip` characters of the last one
being left. -/
def replaceFrom (pat new : List Char) : Nat → List Char → List Char
  | _, [] => []
  | skip + 1, _ :: cs => replaceFrom pat new skip cs
  | 0, c :: cs =>
    if pat.isPrefixOf (c :: cs) then new ++ replaceFrom pat new (pat.length - 1) cs
    else c :: replaceFrom pat new 0 cs

/-- `str.replace` with a pattern that is not empty. -/
def replaceAll (pat new cs : List Char) : List Char := replaceFrom pat new 0 cs

variable {cs : List Char}

/-- A text without the first character of the pattern stays as it is, whatever follows it. -/
lemma replaceAll_append {p ps new ds} (h : p ∉ cs) :
    replaceAll (p :: ps) new (cs ++ ds) = cs ++ replaceAll (p :: ps) new ds := by
  induction cs with
  | nil => rfl
  | cons c cs ih =>
    have other : p ≠ c := fun same => h (same ▸ mem_cons_self)
    have rest := ih fun mem => h (mem_cons_of_mem _ mem)
    rw [replaceAll] at rest ⊢
    rw [cons_append, replaceFrom, if_neg, rest]
    · rfl
    · simp [List.isPrefixOf, other]

lemma replaceAll_of_not_mem {p ps new} (h : p ∉ cs) : replaceAll (p :: ps) new cs = cs := by
  have rest : replaceAll (p :: ps) new (cs ++ []) = cs ++ replaceAll (p :: ps) new [] :=
    replaceAll_append h
  rw [append_nil] at rest
  rw [rest]
  exact append_nil cs

/-- `str.strip` with the given characters. -/
def stripChars (drop : Char → Bool) (cs : List Char) : List Char :=
  ((cs.dropWhile drop).reverse.dropWhile drop).reverse

lemma stripChars_of_not_mem {drop} (h : ∀ c ∈ cs, drop c = false) : stripChars drop cs = cs := by
  have keeps : ∀ ds : List Char, (∀ c ∈ ds, drop c = false) → ds.dropWhile drop = ds := by
    intro ds hds
    cases ds with
    | nil => rfl
    | cons d => simp [hds d mem_cons_self]
  rw [stripChars, keeps cs h, keeps, reverse_reverse]
  intro c hc
  exact h c (mem_reverse.mp hc)

/-! ### Integers -/

/-- The digits of an integer literal, single underscores allowed between them. -/
def readUnderscored (base : Nat) : Bool → Nat → List Char → Option Nat
  | afterDigit, n, [] => if afterDigit then some n else none
  | afterDigit, n, c :: cs =>
    if c = '_' then if afterDigit then readUnderscored base false n cs else none
    else (readDigit base n c).bind fun n => readUnderscored base true n cs

/-- A literal without underscores is read digit by digit. -/
lemma readUnderscored_eq {base n afterDigit} (h : '_' ∉ cs) (ne : afterDigit = true ∨ cs ≠ []) :
    readUnderscored base afterDigit n cs = cs.foldlM (readDigit base) n := by
  induction cs generalizing n afterDigit with
  | nil =>
    obtain rfl : afterDigit = true := by simpa using ne
    rfl
  | cons c cs ih =>
    have other : c ≠ '_' := fun same => h (same ▸ mem_cons_self)
    rw [readUnderscored, if_neg other, foldlM_cons]
    cases readDigit base n c with
    | none => rfl
    | some => exact ih (fun mem => h (mem_cons_of_mem _ mem)) (.inl rfl)

/-- The ASCII characters that `int` ignores around a literal. -/
def isSpace (c : Char) : Bool := c = ' ' || ('\t' ≤ c && c ≤ '\r')

/-- The literal without `0x`, behind which one underscore may stand. -/
def dropHexMark : List Char → List Char
  | '0' :: 'x' :: '_' :: cs => cs
  | '0' :: 'X' :: '_' :: cs => cs
  | '0' :: 'x' :: cs => cs
  | '0' :: 'X' :: cs => cs
  | cs => cs

/-- `int(text, 16)` on ASCII texts. -/
def readHex (cs : List Char) : Option Int :=
  match stripChars isSpace cs with
  | '-' :: ds => (readUnderscored 16 false 0 (dropHexMark ds)).map fun n => -(n : Int)
  | '+' :: ds => (readUnderscored 16 false 0 (dropHexMark ds)).map fun n => (n : Int)
  | ds => (readUnderscored 16 false 0 (dropHexMark ds)).map fun n => (n : Int)

/-- What `int` meets in a number that was written digit by digit: neither blanks nor marks. -/
lemma plain_of_mem_fixedDigits {base width n} (pos : 0 < base) (le : base ≤ 16) {c}
    (h : c ∈ fixedDigits base width n) : isSpace c = false ∧ c.toNat < 128 ∧
      c ≠ '-' ∧ c ≠ '+' ∧ c ≠ '_' ∧ c ≠ 'x' ∧ c ≠ 'X' := by
  obtain ⟨d, hd, rfl⟩ := mem_fixedDigits pos h
  have all : ∀ d < 16, isSpace (Nat.digitChar d) = false ∧ (Nat.digitChar d).toNat < 128 ∧
      Nat.digitChar d ≠ '-' ∧ Nat.digitChar d ≠ '+' ∧ Nat.digitChar d ≠ '_' ∧
      Nat.digitChar d ≠ 'x' ∧ Nat.digitChar d ≠ 'X' := by decide
  exact all d (Nat.lt_of_lt_of_le hd le)

/-- Digits alone are read digit by digit. -/
lemma readUnderscored_fixedDigits {base width n} (pos : 0 < base) (le : base ≤ 16)
    (wide : 0 < width) (h : n < base ^ width) :
    readUnderscored base false 0 (fixedDigits base width n) = some n := by
  have plain : '_' ∉ fixedDigits base width n := fun mem =>
    (plain_of_mem_fixedDigits pos le mem).2.2.2.2.1 rfl
  have ne : fixedDigits base width n ≠ [] := by
    rw [← length_pos_iff, length_fixedDigits]
    exact wide
  rw [readUnderscored_eq plain (.inr ne)]
  exact readDigits_fixedDigits pos le h

lemma readHex_fixedDigits {width n} (pos : 0 < width) (h : n < 16 ^ width) :
    readHex (fixedDigits 16 width n) = some (n : Int) := by
  have value := readUnderscored_fixedDigits (by decide) (by decide) pos h
  have plain : ∀ c ∈ fixedDigits 16 width n, _ := fun c =>
    plain_of_mem_fixedDigits (by decide) (by decide)
  have marked : dropHexMark (fixedDigits 16 width n) = fixedDigits 16 width n := by
    unfold dropHexMark
    split
    · rename_i eq
      exact absurd rfl (plain 'x' (by simp [eq])).2.2.2.2.2.1
    · rename_i eq
      exact absurd rfl (plain 'X' (by simp [eq])).2.2.2.2.2.2
    · rename_i eq
      exact absurd rfl (plain 'x' (by simp [eq])).2.2.2.2.2.1
    · rename_i eq
      exact absurd rfl (plain 'X' (by simp [eq])).2.2.2.2.2.2
    · rfl
  unfold readHex
  rw [stripChars_of_not_mem fun c hc => (plain c hc).1]
  split
  · rename_i eq
    exact absurd rfl (plain '-' (by simp [eq])).2.2.1
  · rename_i eq
    exact absurd rfl (plain '+' (by simp [eq])).2.2.2.1
  · rw [marked, value]
    rfl

/-! ### UUIDs -/

/-- `UUID.hex`. -/
def uuidHex (id : UUID) : List Char := fixedDigits 16 32 id.toNat

/-- `str(uuid)`: the digits in groups of 8, 4, 4, 4 and 12. -/
def uuidText (id : UUID) : String :=
  let hex := uuidHex id
  String.ofList (hex.take 8 ++ '-' :: ((hex.drop 8).take 4 ++ '-' :: ((hex.drop 12).take 4 ++
    '-' :: ((hex.drop 16).take 4 ++ '-' :: hex.drop 20))))

/-- `UUID(text)`, which ignores the marks of a URN, braces and hyphens. -/
def parseUuid (text : String) : Option UUID :=
  let cs := replaceAll "uuid:".toList [] (replaceAll "urn:".toList [] text.toList)
  let hex := replaceAll ['-'] [] (stripChars (fun c => c = '\x7b' || c = '\x7d') cs)
  if hex.length = 32 then
    (readHex hex).bind fun n =>
      if 0 ≤ n ∧ n < 2 ^ 128 then some (BitVec.ofInt 128 n) else none
  else none

/-- Removing the hyphen behind a text without one. -/
lemma removeHyphen {ds} (h : '-' ∉ cs) :
    replaceAll ['-'] [] (cs ++ '-' :: ds) = cs ++ replaceAll ['-'] [] ds := by
  rw [replaceAll_append h]
  simp [replaceAll, replaceFrom, List.isPrefixOf]

/-- The canonical text of a UUID reads back. -/
lemma parseUuid_text (id : UUID) : parseUuid (uuidText id) = some id := by
  have digits : ∀ c ∈ uuidHex id, c ≠ 'u' ∧ c ≠ '-' ∧ c ≠ '\x7b' ∧ c ≠ '\x7d' := by
    intro c hc
    obtain ⟨d, hd, rfl⟩ := mem_fixedDigits (by decide) hc
    have all : ∀ d < 16, Nat.digitChar d ≠ 'u' ∧ Nat.digitChar d ≠ '-' ∧
        Nat.digitChar d ≠ '\x7b' ∧ Nat.digitChar d ≠ '\x7d' := by decide
    exact all d hd
  have chars : ∀ c ∈ (uuidText id).toList, c ∈ uuidHex id ∨ c = '-' := by
    intro c hc
    simp only [uuidText, String.toList_ofList, mem_append, mem_cons] at hc
    grind [mem_of_mem_take, mem_of_mem_drop]
  have noMark : 'u' ∉ (uuidText id).toList := by
    intro mem
    rcases chars _ mem with mem | eq
    · exact (digits _ mem).1 rfl
    · cases eq
  have noBrace : ∀ c ∈ (uuidText id).toList, (c = '\x7b' || c = '\x7d') = false := by
    intro c hc
    rcases chars c hc with mem | rfl
    · obtain ⟨-, -, opening, closing⟩ := digits c mem
      simp [opening, closing]
    · decide
  have noHyphen : ∀ cs : List Char, (∀ c ∈ cs, c ∈ uuidHex id) → '-' ∉ cs :=
    fun cs sub mem => (digits _ (sub _ mem)).2.1 rfl
  have hex : replaceAll ['-'] [] (uuidText id).toList = uuidHex id := by
    rw [uuidText, String.toList_ofList, removeHyphen (noHyphen _ fun c hc => mem_of_mem_take hc),
      removeHyphen (noHyphen _ fun c hc => mem_of_mem_drop (mem_of_mem_take hc)),
      removeHyphen (noHyphen _ fun c hc => mem_of_mem_drop (mem_of_mem_take hc)),
      removeHyphen (noHyphen _ fun c hc => mem_of_mem_drop (mem_of_mem_take hc)),
      replaceAll_of_not_mem (noHyphen _ fun c hc => mem_of_mem_drop hc)]
    have groups : ∀ n m : Nat, ((uuidHex id).drop n).take m ++ (uuidHex id).drop (n + m) =
        (uuidHex id).drop n := by
      intro n m
      rw [← drop_drop, take_append_drop]
    rw [groups 16 4, groups 12 4, groups 8 4, take_append_drop]
  have value : readHex (uuidHex id) = some (id.toNat : Int) :=
    readHex_fixedDigits (by decide) id.isLt
  have small : (id.toNat : Int) < 2 ^ 128 := by exact_mod_cast id.isLt
  unfold parseUuid
  dsimp only
  rw [show "urn:".toList = 'u' :: ['r', 'n', ':'] by rfl,
    show "uuid:".toList = 'u' :: ['u', 'i', 'd', ':'] by rfl, replaceAll_of_not_mem noMark,
    replaceAll_of_not_mem noMark, stripChars_of_not_mem noBrace, hex, value]
  have length : (uuidHex id).length = 32 := length_fixedDigits 16 32 _
  rw [if_pos length, Option.bind_some, if_pos ⟨Int.natCast_nonneg _, small⟩]
  simp

end ToriPy
