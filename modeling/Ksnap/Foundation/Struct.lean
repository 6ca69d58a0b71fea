import Ksnap.Foundation.Codec

/-!
# Packed records

Python's `struct` module for little endian formats without padding: a format is a text
of counts and codes, and unpacking gives one flat tuple of numbers and byte strings.

`Describes` says that a list of items is the layout of a codec. It is composed in the
way codecs are, so the tuple of a whole record follows from those of its parts.
-/

namespace Foundation

/-- One field of a packed record. -/
inductive PackedItem : Type where
  | bytes (count : ℕ)
  | uint32
  | uint64
  deriving DecidableEq

/-- One value of an unpacked tuple. -/
inductive PackedField : Type where
  | bytes (raw : Bytes)
  | number (value : ℕ)
  deriving DecidableEq

namespace PackedItem

def width : PackedItem → ℕ
  | .bytes count => count
  | .uint32 => 4
  | .uint64 => 8

def read : PackedItem → Bytes → PackedField
  | .bytes count, raw => .bytes (raw.take count)
  | .uint32, raw => .number (ofLittleEndian (raw.take 4))
  | .uint64, raw => .number (ofLittleEndian (raw.take 8))

end PackedItem

/-! ## Formats -/

/-- The items of a format behind its byte order. A count repeats the code that follows
it, but for `s`, which it makes that long. -/
def formatItems : Option ℕ → List Char → Option (List PackedItem)
  | _, [] => some []
  | count, 's' :: codes => (formatItems none codes).map (.bytes (count.getD 1) :: ·)
  | count, 'I' :: codes =>
      (formatItems none codes).map (List.replicate (count.getD 1) .uint32 ++ ·)
  | count, 'Q' :: codes =>
      (formatItems none codes).map (List.replicate (count.getD 1) .uint64 ++ ·)
  | count, code :: codes =>
      if code.isDigit then formatItems (some (count.getD 0 * 10 + (code.toNat - 48))) codes
      else none

/-- The items of a little endian format, which begins with `<`. -/
def parseFormat : List Char → Option (List PackedItem)
  | '<' :: codes => formatItems none codes
  | _ => none

/-- `struct.calcsize` -/
def calcsize (items : List PackedItem) : ℕ :=
  (items.map PackedItem.width).sum

/-- The values of the items, one after the other. -/
def unpackItems : List PackedItem → Bytes → List PackedField
  | [], _ => []
  | item :: items, raw => item.read raw :: unpackItems items (raw.drop item.width)

/-- `struct.unpack`, which wants as many bytes as the format has. -/
def unpack (items : List PackedItem) (raw : Bytes) : Option (List PackedField) :=
  if raw.length = calcsize items then some (unpackItems items raw) else none

theorem unpackItems_append (first second : List PackedItem) (raw : Bytes) :
    unpackItems (first ++ second) raw =
      unpackItems first raw ++ unpackItems second (raw.drop (calcsize first)) := by
  induction first generalizing raw with
  | nil => simp [unpackItems, calcsize]
  | cons item first ih =>
      simp [unpackItems, ih, calcsize, List.drop_drop]

theorem PackedItem.read_take (item : PackedItem) {raw : Bytes} {count : ℕ}
    (fits : item.width ≤ count) : item.read (raw.take count) = item.read raw := by
  have reads : ∀ width, width ≤ count → (raw.take count).take width = raw.take width := by
    intro width inside
    rw [List.take_take, Nat.min_eq_left inside]
  cases item with
  | bytes size => exact congrArg PackedField.bytes (reads size fits)
  | uint32 => exact congrArg (PackedField.number ∘ ofLittleEndian) (reads 4 fits)
  | uint64 => exact congrArg (PackedField.number ∘ ofLittleEndian) (reads 8 fits)

/-- What follows the record does not matter. -/
theorem unpackItems_take {items : List PackedItem} {raw : Bytes} {count : ℕ}
    (fits : calcsize items ≤ count) :
    unpackItems items (raw.take count) = unpackItems items raw := by
  induction items generalizing raw count with
  | nil => rfl
  | cons item items ih =>
      have both : item.width + calcsize items ≤ count := by
        simpa [calcsize] using fits
      rw [unpackItems, unpackItems, item.read_take (by omega), List.drop_take, ih (by omega)]

/-! ## Layouts of codecs -/

/-- The items are the layout of the codec, and its values unpack to these fields. -/
structure Describes {α : Type} (items : List PackedItem) (codec : Codec α)
    (fields : α → List PackedField) : Prop where
  size : calcsize items = codec.width
  read : ∀ raw, codec.width ≤ raw.length → unpackItems items raw = fields (codec.decode raw)

namespace Describes

variable {α β : Type} {items more : List PackedItem} {first : Codec α} {second : Codec β}
  {fields : α → List PackedField} {moreFields : β → List PackedField}

theorem word32 : Describes [.uint32] Codec.word32 fun value => [.number value.toNat] where
  size := rfl
  read := by
    intro raw fits
    have bound := ofLittleEndian_lt (raw.take 4)
    rw [List.length_take_of_le (show 4 ≤ raw.length from fits)] at bound
    simp only [unpackItems, PackedItem.read, Codec.word32, UInt32.toNat_ofNat']
    rw [Nat.mod_eq_of_lt (by simpa using bound)]

theorem word64 : Describes [.uint64] Codec.word64 fun value => [.number value.toNat] where
  size := rfl
  read := by
    intro raw fits
    have bound := ofLittleEndian_lt (raw.take 8)
    rw [List.length_take_of_le (show 8 ≤ raw.length from fits)] at bound
    simp only [unpackItems, PackedItem.read, Codec.word64, UInt64.toNat_ofNat']
    rw [Nat.mod_eq_of_lt (by simpa using bound)]

theorem bytes (count : ℕ) :
    Describes [.bytes count] (Codec.bytes count) fun value => [.bytes value.toList] where
  size := by simp [calcsize, PackedItem.width, Codec.bytes]
  read := by
    intro raw fits
    have nothing : count - raw.length = 0 := Nat.sub_eq_zero_of_le fits
    simp [unpackItems, PackedItem.read, Codec.bytes, List.Vector.toList, nothing]

theorem pair (one : Describes items first fields) (two : Describes more second moreFields) :
    Describes (items ++ more) (first.pair second)
      fun value => fields value.1 ++ moreFields value.2 where
  size := by
    have sizes := congrArg₂ (· + ·) one.size two.size
    simpa [calcsize, Codec.pair] using sizes
  read := by
    intro raw fits
    have both : first.width + second.width ≤ raw.length := fits
    rw [unpackItems_append, one.size, one.read raw (by omega),
      two.read (raw.drop first.width) (by rw [List.length_drop]; omega)]
    rfl

theorem imap (described : Describes items first fields) {build : α → β} {parts : β → α}
    {build_parts : ∀ value, build (parts value) = value} {recordFields : β → List PackedField}
    (same : ∀ value, recordFields (build value) = fields value) :
    Describes items (first.imap build parts build_parts) recordFields where
  size := described.size
  read := by
    intro raw fits
    rw [described.read raw fits]
    exact (same _).symm

/-- The fields of a table, record by record. -/
theorem decodeAll (described : Describes items first fields) (count : ℕ) {raw : Bytes}
    (fits : count * first.width ≤ raw.length) :
    unpackItems (List.replicate count items).flatten raw =
      (first.decodeAll count raw).flatMap fields := by
  induction count generalizing raw with
  | zero => rfl
  | succ count ih =>
      rw [Nat.succ_mul] at fits
      rw [List.replicate_succ, List.flatten_cons, unpackItems_append, described.size,
        described.read raw (by omega), ih (by rw [List.length_drop]; omega)]
      rfl

theorem vector (described : Describes items first fields) (count : ℕ) :
    Describes (List.replicate count items).flatten (first.vector count)
      fun value => value.toList.flatMap fields where
  size := by
    have size := described.size
    rw [calcsize] at size
    simp [calcsize, Codec.vector, List.map_flatten, List.sum_flatten, size]
  read := by
    intro raw fits
    exact described.decodeAll count fits

end Describes

end Foundation
