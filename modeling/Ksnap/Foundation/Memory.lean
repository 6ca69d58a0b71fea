import Ksnap.Foundation.Codec

/-!
# Memory addressed by 64 bit words

A memory gives every address a cell. A range is a start and a number of cells, and
goes on around the end of the address space. A write replaces the cells of a range
and nothing else, so putting back what was read undoes every write to the same range.
-/

namespace Foundation

/-- A cell for every address. -/
abbrev Memory (β : Type) : Type := UInt64 → β

/-- The address is in the range of so many cells from the start on. -/
def Within (start : UInt64) (size : ℕ) (address : UInt64) : Prop :=
  (address - start).toNat < size

instance (start : UInt64) (size : ℕ) (address : UInt64) : Decidable (Within start size address) :=
  inferInstanceAs (Decidable (_ < _))

variable {β : Type}

/-- The cells of a range. -/
def readRange (memory : Memory β) (start : UInt64) (count : ℕ) : List β :=
  (List.range count).map fun index => memory (start + UInt64.ofNat index)

/-- Replace the cells of a range. -/
def writeRange (memory : Memory β) (start : UInt64) (cells : List β) : Memory β :=
  fun address => cells[(address - start).toNat]?.getD (memory address)

@[simp]
theorem length_readRange (memory : Memory β) (start : UInt64) (count : ℕ) :
    (readRange memory start count).length = count := by
  simp [readRange]

/-! ## Addresses of a range -/

theorem toNat_sub_start (start : UInt64) {index : ℕ} (small : index < 2 ^ 64) :
    (start + UInt64.ofNat index - start).toNat = index := by
  rw [UInt64.add_comm, UInt64.add_sub_cancel, UInt64.toNat_ofNat']
  exact Nat.mod_eq_of_lt small

theorem within_add (start : UInt64) {size index : ℕ} (small : size ≤ 2 ^ 64)
    (inside : index < size) : Within start size (start + UInt64.ofNat index) := by
  rw [Within, toNat_sub_start start (by omega)]
  exact inside

/-- An address of a range is a number of cells after the start. -/
theorem Within.exists_index {start : UInt64} {size : ℕ} {address : UInt64}
    (within : Within start size address) :
    ∃ index, index < size ∧ address = start + UInt64.ofNat index := by
  refine ⟨(address - start).toNat, within, ?_⟩
  rw [UInt64.ofNat_toNat, UInt64.add_comm, UInt64.sub_add_cancel]

theorem Within.mono {start : UInt64} {size larger : ℕ} {address : UInt64}
    (within : Within start size address) (le : size ≤ larger) : Within start larger address :=
  lt_of_lt_of_le within le

/-- A range that starts inside another one and ends before it is inside. -/
theorem Within.of_add {start : UInt64} {offset size whole : ℕ} {address : UInt64}
    (within : Within (start + UInt64.ofNat offset) size address) (fits : offset + size ≤ whole)
    (small : whole ≤ 2 ^ 64) : Within start whole address := by
  rcases within.exists_index with ⟨index, inside, rfl⟩
  rw [UInt64.add_assoc, ← UInt64.ofNat_add]
  exact within_add start small (by omega)

/-- What is before a range that does not go around is not in it. -/
theorem not_within_of_lt (start : UInt64) {offset size index : ℕ} (fits : offset + size < 2 ^ 64)
    (before : index < offset) :
    ¬Within (start + UInt64.ofNat offset) size (start + UInt64.ofNat index) := by
  have startBelow := start.toNat_lt
  have small : index < 2 ^ 64 := by omega
  have offsetSmall : offset < 2 ^ 64 := by omega
  rw [Within, UInt64.toNat_sub, UInt64.toNat_add, UInt64.toNat_add, UInt64.toNat_ofNat',
    UInt64.toNat_ofNat', Nat.mod_eq_of_lt small, Nat.mod_eq_of_lt offsetSmall]
  omega

/-- Without a wrap, the addresses of a range are an interval. -/
theorem within_iff_of_noWrap {start : UInt64} {size : ℕ} {address : UInt64}
    (noWrap : start.toNat + size ≤ 2 ^ 64) :
    Within start size address ↔ start.toNat ≤ address.toNat ∧
      address.toNat < start.toNat + size := by
  have below := address.toNat_lt
  have startBelow := start.toNat_lt
  rw [Within, UInt64.toNat_sub]
  omega

/-! ## Writes -/

theorem writeRange_of_not_within {memory : Memory β} {start : UInt64} {cells : List β}
    {address : UInt64} (outside : ¬Within start cells.length address) :
    writeRange memory start cells address = memory address := by
  rw [Within, not_lt] at outside
  simp [writeRange, outside]

theorem writeRange_add {memory : Memory β} {start : UInt64} {cells : List β} {index : ℕ}
    (small : index < 2 ^ 64) (inside : index < cells.length) :
    writeRange memory start cells (start + UInt64.ofNat index) = cells[index] := by
  rw [writeRange, toNat_sub_start start small, List.getElem?_eq_getElem inside]
  rfl

/-- The cells of a write that starts inside a range, counted from the start of the range. -/
theorem writeRange_add_add {memory : Memory β} {start : UInt64} {cells : List β}
    {offset index : ℕ} (small : index < 2 ^ 64) (inside : index < cells.length) :
    writeRange memory (start + UInt64.ofNat offset) cells (start + UInt64.ofNat (offset + index)) =
      cells[index] := by
  rw [UInt64.ofNat_add, ← UInt64.add_assoc]
  exact writeRange_add small inside

/-- What was read from a range and is written there gives the cells of that memory back. -/
theorem writeRange_readRange (memory other : Memory β) (start : UInt64) (count : ℕ)
    (address : UInt64) :
    writeRange other start (readRange memory start count) address =
      if Within start count address then memory address else other address := by
  split
  · rename_i within
    have cell : (readRange memory start count)[(address - start).toNat]? =
        some (memory (start + UInt64.ofNat (address - start).toNat)) := by
      rw [readRange, List.getElem?_map, List.getElem?_range within]
      rfl
    rw [writeRange, cell, UInt64.ofNat_toNat, UInt64.add_comm, UInt64.sub_add_cancel]
    rfl
  · rename_i outside
    apply writeRange_of_not_within
    rw [length_readRange]
    exact outside

/-! ## Words -/

/-- The eight bytes of a word, the lowest first. -/
def wordBytes (word : UInt64) : Bytes :=
  littleEndian 8 word.toNat

/-- The word in eight bytes. -/
def readWord (memory : Memory UInt8) (address : UInt64) : UInt64 :=
  UInt64.ofNat (ofLittleEndian (readRange memory address 8))

def writeWord (memory : Memory UInt8) (address word : UInt64) : Memory UInt8 :=
  writeRange memory address (wordBytes word)

@[simp]
theorem length_wordBytes (word : UInt64) : (wordBytes word).length = 8 :=
  length_littleEndian 8 _

theorem wordBytes_readWord (memory : Memory UInt8) (address : UInt64) :
    wordBytes (readWord memory address) = readRange memory address 8 := by
  have bound := ofLittleEndian_lt (readRange memory address 8)
  have inverse := littleEndian_ofLittleEndian (readRange memory address 8)
  rw [length_readRange] at bound inverse
  rw [wordBytes, readWord, UInt64.toNat_ofNat', Nat.mod_eq_of_lt (by omega), inverse]

/-- A write of a word leaves everything but its eight bytes. -/
theorem writeWord_of_not_within {memory : Memory UInt8} {address word other : UInt64}
    (outside : ¬Within address 8 other) : writeWord memory address word other = memory other := by
  apply writeRange_of_not_within
  rw [length_wordBytes]
  exact outside

/-- Putting a word back gives its eight bytes the value they had when it was read. -/
theorem writeWord_readWord (memory other : Memory UInt8) (address target : UInt64) :
    writeWord other address (readWord memory address) target =
      if Within address 8 target then memory target else other target := by
  rw [writeWord, wordBytes_readWord, writeRange_readRange]

end Foundation
