import Mathlib.Data.List.Basic
import Mathlib.Data.Vector.Basic
import Mathlib.Tactic.Ring
import Mathlib.Tactic.NormNum

/-!
# Fixed width binary codecs

A codec writes a value as a fixed number of bytes and reads it back, and carries
the proof that reading undoes writing. Records are built from the little-endian
words and from byte arrays with `pair`, `vector` and `imap`, so a record's round
trip is never proved on its own.

Reading is total: it looks at the first `width` bytes only, and whoever reads
has to make sure that there are that many. Tables of records and sections of a
longer byte sequence follow at the end.
-/

namespace Foundation

/-- A byte sequence. -/
abbrev Bytes : Type := List UInt8

/-! ## Little-endian numbers -/

/-- The `width` low digits of a number in base 256, the lowest first. -/
def littleEndian : ℕ → ℕ → Bytes
  | 0, _ => []
  | width + 1, number => UInt8.ofNat number :: littleEndian width (number / 256)

/-- The number with these base 256 digits, the lowest first. -/
def ofLittleEndian : Bytes → ℕ
  | [] => 0
  | byte :: rest => byte.toNat + 256 * ofLittleEndian rest

@[simp]
theorem length_littleEndian (width number : ℕ) :
    (littleEndian width number).length = width := by
  induction width generalizing number with
  | zero => rfl
  | succ width ih => simp [littleEndian, ih]

theorem ofLittleEndian_littleEndian (width number : ℕ) :
    ofLittleEndian (littleEndian width number) = number % 256 ^ width := by
  induction width generalizing number with
  | zero => simp [littleEndian, ofLittleEndian, Nat.mod_one]
  | succ width ih =>
      have split : number % 256 ^ (width + 1) =
          number % 256 + 256 * (number / 256 % 256 ^ width) := by
        rw [pow_succ', Nat.mod_mul]
      simp only [littleEndian, ofLittleEndian, ih, split]
      simp

theorem ofLittleEndian_lt (bytes : Bytes) : ofLittleEndian bytes < 256 ^ bytes.length := by
  induction bytes with
  | nil => simp [ofLittleEndian]
  | cons byte rest ih =>
      have := byte.toNat_lt
      simp only [ofLittleEndian, List.length_cons, pow_succ']
      omega

theorem littleEndian_ofLittleEndian (bytes : Bytes) :
    littleEndian bytes.length (ofLittleEndian bytes) = bytes := by
  induction bytes with
  | nil => rfl
  | cons byte rest ih =>
      have bound := byte.toNat_lt
      have low : UInt8.ofNat (byte.toNat + 256 * ofLittleEndian rest) = byte := by
        apply UInt8.toNat_inj.mp
        simp only [UInt8.toNat_ofNat']
        omega
      have high : (byte.toNat + 256 * ofLittleEndian rest) / 256 = ofLittleEndian rest := by
        omega
      simp only [List.length_cons, ofLittleEndian, littleEndian, low, high, ih]

/-! ## Codecs -/

/-- A fixed width binary format, with the proof that reading undoes writing. -/
structure Codec (α : Type) where
  width : ℕ
  encode : α → Bytes
  decode : Bytes → α
  length_encode : ∀ value, (encode value).length = width
  decode_encode : ∀ value rest, decode (encode value ++ rest) = value

namespace Codec

variable {α β : Type}

attribute [simp] length_encode decode_encode

/-- The width of a codec bounds the bytes that its reading depends on. -/
@[simp]
theorem decode_encode_self (codec : Codec α) (value : α) :
    codec.decode (codec.encode value) = value := by
  simpa using codec.decode_encode value []

/-- Four bytes, the lowest first. -/
def word32 : Codec UInt32 where
  width := 4
  encode := fun value => littleEndian 4 value.toNat
  decode := fun bytes => UInt32.ofNat (ofLittleEndian (bytes.take 4))
  length_encode := by simp
  decode_encode := by
    intro value rest
    rw [List.take_left' (length_littleEndian 4 _), ofLittleEndian_littleEndian,
      Nat.mod_eq_of_lt (by simpa using value.toNat_lt)]
    simp

/-- Eight bytes, the lowest first. -/
def word64 : Codec UInt64 where
  width := 8
  encode := fun value => littleEndian 8 value.toNat
  decode := fun bytes => UInt64.ofNat (ofLittleEndian (bytes.take 8))
  length_encode := by simp
  decode_encode := by
    intro value rest
    rw [List.take_left' (length_littleEndian 8 _), ofLittleEndian_littleEndian,
      Nat.mod_eq_of_lt (by simpa using value.toNat_lt)]
    simp

/-- An array of bytes. A sequence that is too short is read as if zeros followed. -/
def bytes (count : ℕ) : Codec (List.Vector UInt8 count) where
  width := count
  encode := fun value => value.toList
  decode := fun raw =>
    ⟨raw.take count ++ List.replicate (count - raw.length) 0, by simp; omega⟩
  length_encode := by simp
  decode_encode := by
    intro value rest
    apply Subtype.ext
    simp [List.Vector.toList]

/-- One value after the other. -/
def pair (first : Codec α) (second : Codec β) : Codec (α × β) where
  width := first.width + second.width
  encode := fun value => first.encode value.1 ++ second.encode value.2
  decode := fun raw => (first.decode raw, second.decode (raw.drop first.width))
  length_encode := by simp
  decode_encode := by
    intro value rest
    rw [List.append_assoc]
    rw [List.drop_left' (first.length_encode value.1)]
    simp

/-- The same bytes for a record that is taken apart and put together. -/
def imap (codec : Codec α) (build : α → β) (parts : β → α)
    (build_parts : ∀ value, build (parts value) = value) : Codec β where
  width := codec.width
  encode := fun value => codec.encode (parts value)
  decode := fun raw => build (codec.decode raw)
  length_encode := by simp
  decode_encode := by simp [build_parts]

/-! ## Tables -/

/-- A table of values, one after the other. -/
def encodeAll (codec : Codec α) (values : List α) : Bytes :=
  values.flatMap codec.encode

/-- The first `count` values of a table. -/
def decodeAll (codec : Codec α) : ℕ → Bytes → List α
  | 0, _ => []
  | count + 1, raw => codec.decode raw :: decodeAll codec count (raw.drop codec.width)

@[simp]
theorem length_encodeAll (codec : Codec α) (values : List α) :
    (codec.encodeAll values).length = values.length * codec.width := by
  induction values with
  | nil => simp [encodeAll]
  | cons value values ih =>
      simp only [encodeAll, List.flatMap_cons, List.length_append, length_encode,
        List.length_cons] at ih ⊢
      rw [ih]
      ring

@[simp]
theorem length_decodeAll (codec : Codec α) (count : ℕ) (raw : Bytes) :
    (codec.decodeAll count raw).length = count := by
  induction count generalizing raw with
  | zero => rfl
  | succ count ih => simp [decodeAll, ih]

theorem getElem?_decodeAll (codec : Codec α) {count index : ℕ} (inside : index < count)
    (raw : Bytes) :
    (codec.decodeAll count raw)[index]? =
      some (codec.decode (raw.drop (index * codec.width))) := by
  induction index generalizing count raw with
  | zero =>
      cases count with
      | zero => exact absurd inside (Nat.lt_irrefl 0)
      | succ count => simp [decodeAll]
  | succ index ih =>
      cases count with
      | zero => exact absurd inside (Nat.not_lt_zero _)
      | succ count =>
          rw [decodeAll, List.getElem?_cons_succ, ih (Nat.lt_of_succ_lt_succ inside),
            List.drop_drop, Nat.succ_mul, Nat.add_comm]

theorem decodeAll_encodeAll (codec : Codec α) (values : List α) (rest : Bytes) :
    codec.decodeAll values.length (codec.encodeAll values ++ rest) = values := by
  induction values with
  | nil => rfl
  | cons value values ih =>
      simp only [encodeAll, List.flatMap_cons, List.length_cons, decodeAll,
        List.append_assoc, decode_encode, List.cons.injEq, true_and] at ih ⊢
      rw [List.drop_left' (codec.length_encode value)]
      exact ih

/-- A vector of values, one after the other. -/
def vector (codec : Codec α) (count : ℕ) : Codec (List.Vector α count) where
  width := count * codec.width
  encode := fun value => codec.encodeAll value.toList
  decode := fun raw => ⟨codec.decodeAll count raw, by simp⟩
  length_encode := by simp
  decode_encode := by
    intro value rest
    apply Subtype.ext
    have length : value.toList.length = count := value.toList_length
    have read := codec.decodeAll_encodeAll value.toList rest
    rw [length] at read
    exact read

end Codec

/-! ## Sections -/

/-- The bytes from an offset on, as many as asked for or as many as there are. -/
def slice (raw : Bytes) (offset count : ℕ) : Bytes :=
  (raw.drop offset).take count

@[simp]
theorem length_slice (raw : Bytes) (offset count : ℕ) :
    (slice raw offset count).length = min count (raw.length - offset) := by
  simp [slice]

theorem slice_append_right {before after : Bytes} {offset : ℕ} (count : ℕ)
    (length : before.length = offset) :
    slice (before ++ after) offset count = after.take count := by
  rw [slice, List.drop_left' length]

/-- A section that starts where another part ends and is followed by more. -/
theorem slice_append_append {before middle after : Bytes} {offset count : ℕ}
    (start : before.length = offset) (length : middle.length = count) :
    slice (before ++ (middle ++ after)) offset count = middle := by
  rw [slice_append_right count start, List.take_left' length]

end Foundation
