import ToriPy.Base.Except
import ToriPy.Base.Values

/-!
# Binary layouts

`struct.Struct` of the standard library. A `Struct α` is a layout of fixed size: which values it can
hold, the bytes of such a value, and the value that stands in a byte string of that size, together
with the two round trips. Layouts are built from big-endian unsigned integers (`Struct.uint`), byte
strings of a fixed length (`Struct.raw`) and pairs. `pack` raises on a value that does not fit, and
`unpackFrom`, which reads the value at the start of a buffer, on a buffer that is too short; `pack_ok`
and `unpackFrom_ok` say when they do not.

A field of variable length is read with `takeBytes`, a text with `decodeUtf8`.
-/

namespace ToriPy

open List

/-! ### Big-endian integers -/

/-- The last `width` bytes of a number, the most significant first. -/
def bigEndian : Nat → Nat → Bytes
  | 0, _ => []
  | width + 1, n => bigEndian width (n / 256) ++ [UInt8.ofNat n]

/-- The number that a byte string stands for, the most significant byte first. -/
def ofBigEndian (data : Bytes) : Nat := data.foldl (fun n b => 256 * n + b.toNat) 0

@[simp] lemma length_bigEndian {width n} : (bigEndian width n).length = width := by
  induction width generalizing n with
  | zero => rfl
  | succ width ih => rw [bigEndian, length_append, ih, length_singleton]

lemma ofBigEndian_concat {data b} :
    ofBigEndian (data ++ [b]) = 256 * ofBigEndian data + b.toNat := by
  rw [ofBigEndian, foldl_append]
  rfl

lemma ofBigEndian_bigEndian {width n} (h : n < 256 ^ width) :
    ofBigEndian (bigEndian width n) = n := by
  induction width generalizing n with
  | zero =>
    have zero : n = 0 := by simpa using h
    rw [zero]
    rfl
  | succ width ih =>
    have quotient : n / 256 < 256 ^ width := by
      rw [Nat.div_lt_iff_lt_mul (by decide), ← pow_succ]
      exact h
    rw [bigEndian, ofBigEndian_concat, ih quotient, UInt8.toNat_ofNat']
    exact Nat.div_add_mod n 256

lemma ofBigEndian_lt (data : Bytes) : ofBigEndian data < 256 ^ data.length := by
  induction data using List.reverseRecOn with
  | nil => decide
  | append_singleton data b ih =>
    have byte : b.toNat < 256 := b.toNat_lt
    rw [ofBigEndian_concat, length_append, length_singleton, pow_succ]
    omega

lemma bigEndian_ofBigEndian (data : Bytes) : bigEndian data.length (ofBigEndian data) = data := by
  induction data using List.reverseRecOn with
  | nil => rfl
  | append_singleton data b ih =>
    have byte : b.toNat < 256 := b.toNat_lt
    have quotient : (256 * ofBigEndian data + b.toNat) / 256 = ofBigEndian data := by omega
    have last : UInt8.ofNat (256 * ofBigEndian data + b.toNat) = b := by
      apply UInt8.toNat_inj.mp
      rw [UInt8.toNat_ofNat']
      omega
    rw [ofBigEndian_concat, length_append, length_singleton, bigEndian, quotient, ih, last]

/-! ### Layouts -/

/-- A layout of fixed size for the values of a type. -/
structure Struct (α : Type) where
  size : Nat
  Fits : α → Prop
  put : α → Bytes
  get : Bytes → α
  length_put : ∀ {a}, Fits a → (put a).length = size
  get_put : ∀ {a}, Fits a → get (put a) = a
  fits_get : ∀ {data : Bytes}, data.length = size → Fits (get data)
  put_get : ∀ {data : Bytes}, data.length = size → put (get data) = data

namespace Struct

variable {ε α β : Type} {s : Struct α}

/-- An unsigned integer of `width` bytes (the formats `B`, `H`, `I` and `Q`). -/
def uint (width : Nat) : Struct Nat where
  size := width
  Fits n := n < 256 ^ width
  put := bigEndian width
  get := ofBigEndian
  length_put _ := length_bigEndian
  get_put := ofBigEndian_bigEndian
  fits_get h := h ▸ ofBigEndian_lt _
  put_get h := h ▸ bigEndian_ofBigEndian _

/-- A byte string of a fixed length (the format `4s`). -/
def raw (length : Nat) : Struct Bytes where
  size := length
  Fits data := data.length = length
  put data := data
  get data := data
  length_put h := h
  get_put _ := rfl
  fits_get h := h
  put_get _ := rfl

/-- One layout behind another. -/
def pair (s : Struct α) (t : Struct β) : Struct (α × β) where
  size := s.size + t.size
  Fits p := s.Fits p.1 ∧ t.Fits p.2
  put p := s.put p.1 ++ t.put p.2
  get data := (s.get (data.take s.size), t.get (data.drop s.size))
  length_put h := by rw [length_append, s.length_put h.1, t.length_put h.2]
  get_put h := by
    rw [← s.length_put h.1, take_left, drop_left, s.get_put h.1, t.get_put h.2]
  fits_get h := by
    refine ⟨s.fits_get ?_, t.fits_get ?_⟩
    · rw [length_take, h, Nat.min_eq_left (Nat.le_add_right _ _)]
    · rw [length_drop, h, Nat.add_sub_cancel_left]
  put_get h := by
    rw [s.put_get, t.put_get, take_append_drop]
    · rw [length_drop, h, Nat.add_sub_cancel_left]
    · rw [length_take, h, Nat.min_eq_left (Nat.le_add_right _ _)]

instance {width n : Nat} : Decidable ((uint width).Fits n) :=
  inferInstanceAs (Decidable (n < 256 ^ width))

instance {length : Nat} {data : Bytes} : Decidable ((raw length).Fits data) :=
  inferInstanceAs (Decidable (data.length = length))

instance {s : Struct α} {t : Struct β} {p : α × β} [Decidable (s.Fits p.1)]
    [Decidable (t.Fits p.2)] : Decidable ((s.pair t).Fits p) :=
  inferInstanceAs (Decidable (s.Fits p.1 ∧ t.Fits p.2))

/-- The bytes of a value (`Struct.pack`); a value that does not fit raises. -/
def pack (s : Struct α) (e : ε) (a : α) [Decidable (s.Fits a)] : Except ε Bytes :=
  if s.Fits a then .ok (s.put a) else .error e

/-- The value at the start of a buffer, with what follows it (`Struct.unpack_from`); a buffer that is
too short raises. -/
def unpackFrom (s : Struct α) (e : ε) (data : Bytes) : Except ε (α × Bytes) :=
  if s.size ≤ data.length then .ok (s.get (data.take s.size), data.drop s.size) else .error e

@[simp] lemma pack_ok {e : ε} {a : α} [Decidable (s.Fits a)] {out : Bytes} :
    s.pack e a = .ok out ↔ s.Fits a ∧ s.put a = out := by
  unfold pack
  split <;> simp_all

/-- A buffer that starts with a value is long enough for it. -/
lemma size_le {a rest} (fits : s.Fits a) : s.size ≤ (s.put a ++ rest).length := by
  rw [length_append, s.length_put fits]
  exact Nat.le_add_right _ _

/-- The value read from a buffer is the one that the buffer starts with. -/
@[simp] lemma unpackFrom_ok {e : ε} {data rest : Bytes} {a : α} :
    s.unpackFrom e data = .ok (a, rest) ↔ s.Fits a ∧ data = s.put a ++ rest := by
  unfold unpackFrom
  constructor
  · intro read
    split at read
    · rename_i long
      have taken : (data.take s.size).length = s.size := by
        rw [length_take, Nat.min_eq_left long]
      cases read
      exact ⟨s.fits_get taken, by rw [s.put_get taken, take_append_drop]⟩
    · cases read
  · rintro ⟨fits, rfl⟩
    rw [if_pos (size_le fits), ← s.length_put fits, take_left, drop_left, s.get_put fits]

end Struct

/-! ### Fields of variable length -/

variable {ε : Type}

/-- The next `length` bytes of a buffer, with what follows them. -/
def takeBytes (e : ε) (length : Nat) (data : Bytes) : Except ε (Bytes × Bytes) :=
  if data.length < length then .error e else .ok (data.take length, data.drop length)

lemma takeBytes_ok {e : ε} {length : Nat} {data field rest : Bytes} :
    takeBytes e length data = .ok (field, rest) ↔ field.length = length ∧ data = field ++ rest := by
  unfold takeBytes
  constructor
  · intro h
    split at h
    · cases h
    rename_i long
    cases h
    refine ⟨?_, (take_append_drop _ _).symm⟩
    rw [length_take]
    exact Nat.min_eq_left (Nat.le_of_not_lt long)
  · rintro ⟨rfl, rfl⟩
    rw [if_neg (by rw [length_append]; omega), take_left, drop_left]

/-! ### Texts -/

/-- The bytes of a text (`str.encode("utf-8")`). -/
def encodeUtf8 (s : String) : Bytes := s.toUTF8.data.toList

/-- The text of a byte string (`bytes.decode("utf-8")`). -/
def decodeUtf8 (data : Bytes) : Option String := String.fromUTF8? ⟨data.toArray⟩

@[simp] lemma length_encodeUtf8 {s} : (encodeUtf8 s).length = s.utf8ByteSize := by
  rw [← String.size_toByteArray]
  rfl

lemma decodeUtf8_eq_some {data s} : decodeUtf8 data = some s ↔ data = encodeUtf8 s := by
  unfold decodeUtf8 String.fromUTF8?
  constructor
  · intro h
    split at h
    · cases h
      rfl
    · cases h
  · rintro rfl
    exact dif_pos s.isValidUTF8

lemma encodeUtf8_injective : Function.Injective encodeUtf8 := by
  intro s t same
  have decoded := decodeUtf8_eq_some.mpr same
  rw [decodeUtf8_eq_some.mpr rfl] at decoded
  exact Option.some.inj decoded

lemma encodeUtf8_eq_nil {s} : encodeUtf8 s = [] ↔ s = "" :=
  ⟨fun h => encodeUtf8_injective h, fun h => h ▸ rfl⟩

/-- The bytes of a text are those of its characters. -/
lemma utf8ByteSize_ofList (cs : List Char) :
    (String.ofList cs).utf8ByteSize = (cs.map Char.utf8Size).sum := by
  rw [← String.size_toByteArray, String.toByteArray_ofList, List.utf8Encode, size_toByteArray,
    length_flatMap]
  exact congrArg List.sum (map_congr_left fun c _ => String.length_utf8EncodeChar c)

/-- No character takes more than four bytes. -/
lemma utf8ByteSize_le (s : String) : s.utf8ByteSize ≤ 4 * s.length := by
  have bounded := sum_le_card_nsmul (s.toList.map Char.utf8Size) 4 (by
    intro size mem
    obtain ⟨c, -, rfl⟩ := mem_map.mp mem
    exact c.utf8Size_le_four)
  rw [← utf8ByteSize_ofList, String.ofList_toList, length_map, String.length_toList] at bounded
  rw [Nat.mul_comm]
  exact bounded

end ToriPy
