import Ksnap.Engine.PathPool

/-!
# The path pool in memory

`pool_append` on the block that the pool is in, with the sizes in the 64 bits that the code
keeps them in. `realloc` may refuse, and what it puts behind the old bytes is anybody's guess.
The block represents a pool as long as its sizes do not wrap, which they never do.
-/

namespace Ksnap

open Foundation

/-! ## Blocks -/

/-- A block of another length. What it has beyond the old one is not initialized. -/
def reallocate (old : Bytes) (length : ℕ) (rest : ℕ → UInt8) : Bytes :=
  (List.range length).map fun index => old[index]?.getD (rest index)

/-- `memcpy` to an offset of a block, which must not leave it. -/
def memcpy (block : Bytes) (offset : ℕ) (source : Bytes) : Option Bytes :=
  if offset + source.length ≤ block.length then
    some (block.take offset ++ source ++ block.drop (offset + source.length))
  else none

/-- A string in front of its NUL. Nothing in memory has half of the address space. -/
structure CString where
  bytes : Bytes
  nulFree : 0 ∉ bytes
  short : bytes.length < 2 ^ 63

def CString.strlen (path : CString) : UInt64 :=
  .ofNat path.bytes.length

/-! ## The pool -/

/-- `path_pool_t`, with the block at `data`. -/
structure PoolMemory where
  data : Bytes
  size : UInt64
  capacity : UInt64

/-- A pool of zeros, whose `data` is NULL. -/
def PoolMemory.empty : PoolMemory where
  data := []
  size := 0
  capacity := 0

/-- `while (new_capacity < needed) new_capacity *= 2`, in so many rounds. -/
def doubleCapacity (needed : UInt64) : ℕ → UInt64 → Option UInt64
  | 0, _ => none
  | rounds + 1, newCapacity =>
      if newCapacity < needed then doubleCapacity needed rounds (newCapacity * 2)
      else some newCapacity

namespace PoolMemory

/-- The path and its NUL behind what is in use. -/
def store (memory : PoolMemory) (path : CString) : Option (PoolMemory × Option UInt32) := do
  let data ← memcpy memory.data memory.size.toNat (path.bytes ++ [0])
  return ({ memory with data, size := memory.size + (path.strlen + 1) },
    some memory.size.toUInt32)

/-- `pool_append`, with what `realloc` does if it is called: it refuses, or it fills the new
part of the block somehow. The offset comes with `OK`, nothing comes with `ERROR`. A call
whose loop goes on or whose `memcpy` leaves the block has no result. -/
def poolAppend (memory : PoolMemory) (path : CString) (realloc : Option (ℕ → UInt8)) :
    Option (PoolMemory × Option UInt32) :=
  let needed := memory.size + path.strlen + 1
  if needed > 0xFFFFFFFF then some (memory, none)
  else if needed > memory.capacity then
    let newCapacity := if memory.capacity = 0 then 4096 else memory.capacity * 2
    (doubleCapacity needed 64 newCapacity).bind fun newCapacity =>
      match realloc with
      | none => some (memory, none)
      | some rest =>
          { memory with
            data := reallocate memory.data newCapacity.toNat rest
            capacity := newCapacity }.store path
  else memory.store path

end PoolMemory

/-- A path to append, and what `realloc` would do. -/
structure PoolCall where
  path : CString
  realloc : Option (ℕ → UInt8)

/-- One call after another, with what each has returned. -/
def PoolMemory.poolAppends (memory : PoolMemory) :
    List PoolCall → Option (PoolMemory × List (Option UInt32))
  | [] => some (memory, [])
  | call :: calls => do
      let (next, outcome) ← memory.poolAppend call.path call.realloc
      let (final, outcomes) ← next.poolAppends calls
      return (final, outcome :: outcomes)

/-- What a call has added to the pool. -/
def addedLength (call : PoolCall) : Option UInt32 → ℕ
  | some _ => call.path.bytes.length + 1
  | none => 0

/-! ## Blocks that hold a pool -/

section Blocks

theorem length_reallocate (old : Bytes) (length : ℕ) (rest : ℕ → UInt8) :
    (reallocate old length rest).length = length := by
  simp [reallocate]

/-- The old bytes stay in front. -/
theorem take_reallocate {old : Bytes} {length used : ℕ} {rest : ℕ → UInt8}
    (inside : used ≤ old.length) (grows : old.length ≤ length) :
    (reallocate old length rest).take used = old.take used := by
  apply List.ext_getElem?
  intro index
  rw [List.getElem?_take, List.getElem?_take]
  split
  · next before =>
      have inOld : index < old.length := lt_of_lt_of_le before inside
      rw [reallocate, List.getElem?_map, List.getElem?_range (lt_of_lt_of_le inOld grows),
        Option.map_some, List.getElem?_eq_getElem inOld]
      rfl
  · rfl

theorem memcpy_fits {block source : Bytes} {offset : ℕ}
    (fits : offset + source.length ≤ block.length) :
    ∃ after, memcpy block offset source = some after ∧ after.length = block.length ∧
      after.take (offset + source.length) = block.take offset ++ source := by
  have length : (block.take offset ++ source).length = offset + source.length := by
    rw [List.length_append, List.length_take, Nat.min_eq_left (by omega)]
  refine ⟨_, if_pos fits, ?_, ?_⟩
  · rw [List.length_append, length, List.length_drop]
    omega
  · rw [← length, List.take_left]

end Blocks

section Represents

/-- The bytes in use are those of the pool, and the block has the length that is kept of it. -/
structure PoolMemory.Represents (memory : PoolMemory) (pool : PathPool) : Prop where
  block : memory.data.length = memory.capacity.toNat
  used : memory.data.take memory.size.toNat = pool.data
  size : memory.size.toNat = pool.data.length
  capacity : memory.capacity.toNat = pool.capacity
  bounded : pool.capacity ≤ 2 ^ 33

variable {memory : PoolMemory} {pool : PathPool}

theorem represents_empty : PoolMemory.empty.Represents .empty :=
  ⟨rfl, rfl, rfl, rfl, by decide⟩

theorem CString.toNat_strlen (path : CString) : path.strlen.toNat = path.bytes.length := by
  have short := path.short
  rw [CString.strlen, UInt64.toNat_ofNat', Nat.mod_eq_of_lt (by omega)]

/-- The sum in 64 bits is the sum. -/
theorem PoolMemory.Represents.needed (represents : memory.Represents pool) (path : CString) :
    (memory.size + path.strlen + 1).toNat = pool.data.length + path.bytes.length + 1 := by
  have addressable := pool.addressable
  have short := path.short
  rw [UInt64.toNat_add, UInt64.toNat_add, represents.size, path.toNat_strlen]
  change ((pool.data.length + path.bytes.length) % 2 ^ 64 + 1) % 2 ^ 64 = _
  omega

/-- The loop never wraps, since a need within 32 bits ends it long before. -/
theorem doubleCapacity_eq {needed capacity : UInt64} (small : needed.toNat < 2 ^ 32)
    (bounded : capacity.toNat ≤ 2 ^ 34) (rounds : ℕ) :
    doubleCapacity needed rounds capacity =
      (growCapacity needed.toNat rounds capacity.toNat).map UInt64.ofNat := by
  induction rounds generalizing capacity with
  | zero => rfl
  | succ rounds ih =>
      rw [doubleCapacity, growCapacity]
      by_cases less : capacity < needed
      · have lessNat := UInt64.lt_iff_toNat_lt.mp less
        have doubled : (capacity * 2).toNat = capacity.toNat * 2 := by
          rw [UInt64.toNat_mul]
          change capacity.toNat * 2 % 2 ^ 64 = _
          omega
        rw [if_pos less, if_pos lessNat, ih (by omega), doubled]
      · rw [if_neg less, if_neg (UInt64.lt_iff_toNat_lt.not.mp less), Option.map_some,
          UInt64.ofNat_toNat]

theorem growCapacity_le {needed rounds capacity grown : ℕ}
    (grows : growCapacity needed rounds capacity = some grown) :
    capacity ≤ grown ∧ (grown = capacity ∨ grown < 2 * needed) := by
  induction rounds generalizing capacity with
  | zero => cases grows
  | succ rounds ih =>
      rw [growCapacity] at grows
      split at grows
      · have later := ih grows
        omega
      · cases grows
        exact ⟨le_rfl, .inl rfl⟩

/-- The block only grows, and to less than twice what is needed. -/
theorem grown_bounds {path : Bytes} {rounds grown : ℕ}
    (small : pool.data.length + path.length + 1 < 2 ^ 32)
    (noRoom : pool.capacity < pool.data.length + path.length + 1)
    (grows : growCapacity (pool.data.length + path.length + 1) rounds pool.firstCapacity =
      some grown) : pool.capacity ≤ grown ∧ grown ≤ 2 ^ 33 := by
  have bounds := growCapacity_le grows
  rw [PathPool.firstCapacity, pathPoolInitialCapacity] at bounds
  split at bounds
  · omega
  · omega

/-- The doubled capacity does not wrap. -/
theorem PoolMemory.Represents.firstCapacity (represents : memory.Represents pool) :
    (if memory.capacity = 0 then (4096 : UInt64) else memory.capacity * 2).toNat =
      pool.firstCapacity := by
  have capacity := represents.capacity
  have bounded := represents.bounded
  have zero : memory.capacity = 0 ↔ pool.capacity = 0 := by
    rw [← capacity, ← UInt64.toNat_inj]
    rfl
  rw [PathPool.firstCapacity]
  by_cases isZero : memory.capacity = 0
  · rw [if_pos isZero, if_pos (zero.mp isZero)]
    rfl
  · rw [if_neg isZero, if_neg (zero.not.mp isZero), UInt64.toNat_mul, capacity]
    change pool.capacity * 2 % 2 ^ 64 = _
    omega

/-- With room for it, the path is stored where the bytes in use end. -/
theorem PoolMemory.Represents.store (represents : memory.Represents pool) {path : CString}
    {appended : PathPool} (data : appended.data = pool.data ++ path.bytes ++ [0])
    (capacity : appended.capacity = pool.capacity) :
    ∃ after, memory.store path = some (after, some (.ofNat pool.data.length)) ∧
      after.Represents appended := by
  have length : appended.data.length = pool.data.length + (path.bytes.length + 1) := by
    simp [data]
  have fits := appended.fits
  have addressable := appended.addressable
  have room : memory.size.toNat + (path.bytes ++ [0]).length ≤ memory.data.length := by
    rw [represents.block, represents.size, represents.capacity, List.length_append]
    change pool.data.length + (path.bytes.length + 1) ≤ pool.capacity
    omega
  rcases memcpy_fits room with ⟨after, copied, block, used⟩
  have offset : memory.size.toUInt32 = .ofNat pool.data.length := by
    rw [← represents.size]
    rfl
  have size : (memory.size + (path.strlen + 1)).toNat = appended.data.length := by
    rw [UInt64.toNat_add, UInt64.toNat_add, represents.size, path.toNat_strlen]
    change (pool.data.length + (path.bytes.length + 1) % 2 ^ 64) % 2 ^ 64 = _
    omega
  refine ⟨{ memory with data := after, size := memory.size + (path.strlen + 1) }, ?_, ?_⟩
  · rw [PoolMemory.store, copied, offset]
    rfl
  · refine ⟨block.trans represents.block, ?_, size, ?_, ?_⟩
    · have same : memory.size.toNat + (path.bytes ++ [0]).length = appended.data.length := by
        rw [represents.size, length, List.length_append]
        rfl
      rw [same, represents.used, ← List.append_assoc, ← data] at used
      rw [size]
      exact used
    · rw [capacity]
      exact represents.capacity
    · rw [capacity]
      exact represents.bounded

/-- A block that `realloc` has made longer still represents the pool. -/
theorem PoolMemory.Represents.reallocate (represents : memory.Represents pool) {grown : ℕ}
    (longer : pool.capacity ≤ grown) (bounded : grown ≤ 2 ^ 33) (rest : ℕ → UInt8) :
    PoolMemory.Represents
      { memory with
        data := reallocate memory.data (UInt64.ofNat grown).toNat rest
        capacity := .ofNat grown }
      { pool with capacity := grown, fits := pool.fits.trans longer } := by
  have toNat : (UInt64.ofNat grown).toNat = grown := by
    rw [UInt64.toNat_ofNat', Nat.mod_eq_of_lt (by omega)]
  have inside : memory.size.toNat ≤ memory.data.length := by
    rw [represents.size, represents.block, represents.capacity]
    exact pool.fits
  have grows : memory.data.length ≤ grown := by
    rw [represents.block, represents.capacity]
    exact longer
  refine ⟨length_reallocate _ _ _, ?_, represents.size, toNat, bounded⟩
  dsimp only
  rw [toNat, take_reallocate inside grows]
  exact represents.used

/-- A call does on the block what the append does on the pool. -/
theorem PoolMemory.Represents.poolAppend (represents : memory.Represents pool) (path : CString)
    (realloc : Option (ℕ → UInt8)) :
    (Ksnap.poolAppend pool path.bytes realloc.isSome = none ∧
      memory.poolAppend path realloc = some (memory, none)) ∨
    ∃ appended after, Ksnap.poolAppend pool path.bytes realloc.isSome =
        some (appended, .ofNat pool.data.length) ∧
      memory.poolAppend path realloc = some (after, some (.ofNat pool.data.length)) ∧
        after.Represents appended := by
  have needed := represents.needed path
  have capacity := represents.capacity
  have bounded := represents.bounded
  have addressable : memory.size + path.strlen + 1 > 0xFFFFFFFF ↔
      2 ^ 32 ≤ pool.data.length + path.bytes.length + 1 := by
    rw [gt_iff_lt, UInt64.lt_iff_toNat_lt, needed]
    exact Iff.rfl
  have roomy : memory.size + path.strlen + 1 > memory.capacity ↔
      pool.capacity < pool.data.length + path.bytes.length + 1 := by
    rw [gt_iff_lt, UInt64.lt_iff_toNat_lt, needed, capacity]
  rw [PoolMemory.poolAppend]
  dsimp only
  rcases poolAppend_cases pool path.bytes realloc.isSome with
    ⟨tooLarge, fails⟩ | ⟨small, room, appended, appends, data, same⟩ |
    ⟨small, noRoom, grown, grows, result⟩
  · rw [if_pos (addressable.mpr tooLarge)]
    exact .inl ⟨fails, rfl⟩
  · rw [if_neg (addressable.not.mpr (not_le.mpr small)), if_neg (roomy.not.mpr (not_lt.mpr room))]
    rcases represents.store data same with ⟨after, stored, kept⟩
    exact .inr ⟨appended, after, appends, stored, kept⟩
  · have first := represents.firstCapacity
    have ends : doubleCapacity (memory.size + path.strlen + 1) 64
        (if memory.capacity = 0 then 4096 else memory.capacity * 2) = some (.ofNat grown) := by
      have bounded : pool.firstCapacity ≤ 2 ^ 34 := by
        rw [PathPool.firstCapacity, pathPoolInitialCapacity]
        split <;> omega
      rw [doubleCapacity_eq (needed ▸ small) (first ▸ bounded), needed, first, grows]
      rfl
    rw [if_neg (addressable.not.mpr (not_le.mpr small)), if_pos (roomy.mpr noRoom), ends,
      Option.bind_some]
    cases realloc with
    | none => exact .inl ⟨result, rfl⟩
    | some rest =>
        rcases result with ⟨appended, appends, data, same⟩
        rcases grown_bounds small noRoom grows with ⟨longer, bounded⟩
        rcases (represents.reallocate longer bounded rest).store data same with
          ⟨after, stored, kept⟩
        exact .inr ⟨appended, after, appends, stored, kept⟩

/-- What a run leaves of a pool: its bytes in front, and each path that has come to it. -/
theorem PoolMemory.Represents.poolAppends (represents : memory.Represents pool)
    (calls : List PoolCall) :
    ∃ final outcomes grown, memory.poolAppends calls = some (final, outcomes) ∧
      final.Represents grown ∧ outcomes.length = calls.length ∧ pool.data <+: grown.data ∧
      (∀ call offset, (call, some offset) ∈ calls.zip outcomes →
        PoolHolds grown.data offset call.path.bytes) ∧
      grown.data.length = pool.data.length + (List.zipWith addedLength calls outcomes).sum := by
  induction calls generalizing memory pool with
  | nil => exact ⟨memory, [], pool, rfl, represents, rfl, List.prefix_rfl, by simp, by simp⟩
  | cons call calls ih =>
      rcases represents.poolAppend call.path call.realloc with
        ⟨-, fails⟩ | ⟨appended, after, appends, taken, kept⟩
      · rcases ih represents with
          ⟨final, outcomes, grown, run, represents, length, front, holds, sum⟩
        refine ⟨final, none :: outcomes, grown, ?_, represents, congrArg (· + 1) length, front,
          ?_, ?_⟩
        · rw [PoolMemory.poolAppends, fails]
          change (memory.poolAppends calls).bind _ = _
          rw [run]
          rfl
        · intro other offset mem
          rcases List.mem_cons.mp mem with first | later
          · cases first
          · exact holds other offset later
        · rw [sum, List.zipWith_cons_cons, List.sum_cons, addedLength, Nat.zero_add]
      · rcases ih kept with ⟨final, outcomes, grown, run, represents, length, front, holds, sum⟩
        rcases poolHolds_of_poolAppend appends with ⟨own, prefixed⟩
        refine ⟨final, some (.ofNat pool.data.length) :: outcomes, grown, ?_, represents,
          congrArg (· + 1) length, prefixed.trans front, ?_, ?_⟩
        · rw [PoolMemory.poolAppends, taken]
          change (after.poolAppends calls).bind _ = _
          rw [run]
          rfl
        · intro other offset mem
          rcases List.mem_cons.mp mem with first | later
          · cases first
            exact own.mono front
          · exact holds other offset later
        · rw [sum, (poolAppend_spec appends).1, List.zipWith_cons_cons, List.sum_cons, addedLength]
          simp only [List.length_append, List.length_singleton]
          omega

end Represents

/-- Any run on an empty pool ends. What a call has got an offset for is there to the end, and
a call that fails has changed nothing. -/
theorem poolAppends_empty (calls : List PoolCall) :
    ∃ final outcomes, PoolMemory.empty.poolAppends calls = some (final, outcomes) ∧
      outcomes.length = calls.length ∧
      (∀ call offset, (call, some offset) ∈ calls.zip outcomes →
        PoolHolds (final.data.take final.size.toNat) offset call.path.bytes) ∧
      final.size.toNat = (List.zipWith addedLength calls outcomes).sum ∧
      final.size ≤ final.capacity ∧ final.data.length = final.capacity.toNat ∧
      final.size ≤ 0xFFFFFFFF ∧
      ∀ path realloc after, final.poolAppend path realloc = some (after, none) → after = final := by
  rcases represents_empty.poolAppends calls with
    ⟨final, outcomes, grown, run, represents, length, -, holds, sum⟩
  have fits := grown.fits
  have addressable := grown.addressable
  refine ⟨final, outcomes, run, length, ?_, ?_, ?_, represents.block, ?_, ?_⟩
  · intro call offset mem
    rw [represents.used]
    exact holds call offset mem
  · rw [represents.size, sum]
    exact Nat.zero_add _
  · rw [UInt64.le_iff_toNat_le, represents.size, represents.capacity]
    exact fits
  · rw [UInt64.le_iff_toNat_le, represents.size]
    exact Nat.le_of_lt_succ addressable
  · intro path realloc after fails
    rcases represents.poolAppend path realloc with ⟨-, same⟩ | ⟨appended, other, -, taken, -⟩
    · cases same.symm.trans fails
      rfl
    · cases taken.symm.trans fails

end Ksnap
