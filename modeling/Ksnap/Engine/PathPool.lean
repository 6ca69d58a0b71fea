import Ksnap.Foundation.Scan
import Mathlib.Tactic.Linarith

/-!
# The path pool

`path_pool_t` and `pool_append` of `src/dumper.c`: the path strings of a snapshot,
one after the other with their terminators, which the vma table and the fd table
point into by offset. The pool carries its bounds, so a pool that outgrew its
buffer or the 32 bits of an offset cannot be built.
-/

namespace Ksnap

open Foundation

/-- `PATH_POOL_INITIAL_CAPACITY` -/
def pathPoolInitialCapacity : ℕ := 4096

/-- The bytes in use and the size of the buffer they are in. -/
structure PathPool where
  data : Bytes
  capacity : ℕ
  fits : data.length ≤ capacity
  addressable : data.length < 2 ^ 32

/-- The pool before any path. -/
def PathPool.empty : PathPool where
  data := []
  capacity := 0
  fits := by simp
  addressable := by simp

/-- `while (new_capacity < needed) new_capacity *= 2`. The fuel counts the rounds; a
positive capacity is out of the reach of 32 bits long before 64 of them. -/
def growCapacity (needed : ℕ) : ℕ → ℕ → Option ℕ
  | 0, _ => none
  | rounds + 1, newCapacity =>
      if newCapacity < needed then growCapacity needed rounds (newCapacity * 2)
      else some newCapacity

theorem le_of_growCapacity {needed rounds capacity grown : ℕ}
    (grows : growCapacity needed rounds capacity = some grown) : needed ≤ grown := by
  induction rounds generalizing capacity with
  | zero => cases grows
  | succ rounds ih =>
      simp only [growCapacity] at grows
      split at grows
      · exact ih grows
      · cases grows
        omega

/-- Append one path, given whether a realloc that is needed succeeds. The offset of the
path is returned with the new pool. -/
def poolAppend (pool : PathPool) (path : Bytes) (reallocSucceeds : Bool) :
    Option (PathPool × UInt32) :=
  let needed := pool.data.length + path.length + 1
  if tooLarge : needed > 2 ^ 32 - 1 then none
  else
    let appended : Bytes := pool.data ++ path ++ [0]
    have addressable : appended.length < 2 ^ 32 := by simp [appended]; omega
    if room : needed ≤ pool.capacity then
      some (⟨appended, pool.capacity, by simp [appended]; omega, addressable⟩,
        UInt32.ofNat pool.data.length)
    else
      let newCapacity :=
        if pool.capacity = 0 then pathPoolInitialCapacity else pool.capacity * 2
      match grows : growCapacity needed 64 newCapacity with
      | none => none
      | some grown =>
          if reallocSucceeds then
            some (⟨appended, grown, by
                have := le_of_growCapacity grows
                simp [appended]
                omega, addressable⟩,
              UInt32.ofNat pool.data.length)
          else none

/-- The string at an offset of the pool. -/
def poolString (pool : Bytes) (offset : UInt32) : Bytes :=
  cString (pool.drop offset.toNat)

/-- The growth loop ends: doubling a positive capacity passes any 32 bit need. -/
theorem growCapacity_isSome {needed capacity : ℕ} (positive : 0 < capacity) (rounds : ℕ)
    (reach : needed ≤ capacity * 2 ^ rounds) :
    (growCapacity needed (rounds + 1) capacity).isSome := by
  induction rounds generalizing capacity with
  | zero =>
      have : ¬capacity < needed := by simpa using reach
      simp [growCapacity, this]
  | succ rounds ih =>
      rw [growCapacity]
      split
      · apply ih (by omega)
        rw [pow_succ] at reach
        linarith
      · simp

/-- The capacity that the growth loop starts with. -/
def PathPool.firstCapacity (pool : PathPool) : ℕ :=
  if pool.capacity = 0 then pathPoolInitialCapacity else pool.capacity * 2

/-- The path is behind the pool, in a buffer of this size. -/
def Appends (pool : PathPool) (path : Bytes) (capacity : ℕ)
    (result : Option (PathPool × UInt32)) : Prop :=
  ∃ appended : PathPool, result = some (appended, .ofNat pool.data.length) ∧
    appended.data = pool.data ++ path ++ [0] ∧ appended.capacity = capacity

/-- The ways of an append: there is no address, there is room, or the buffer has to grow. -/
theorem poolAppend_cases (pool : PathPool) (path : Bytes) (reallocSucceeds : Bool) :
    (2 ^ 32 ≤ pool.data.length + path.length + 1 ∧ poolAppend pool path reallocSucceeds = none) ∨
    (pool.data.length + path.length + 1 < 2 ^ 32 ∧
      pool.data.length + path.length + 1 ≤ pool.capacity ∧
      Appends pool path pool.capacity (poolAppend pool path reallocSucceeds)) ∨
    (pool.data.length + path.length + 1 < 2 ^ 32 ∧
      pool.capacity < pool.data.length + path.length + 1 ∧
      ∃ grown, growCapacity (pool.data.length + path.length + 1) 64 pool.firstCapacity =
          some grown ∧
        if reallocSucceeds then Appends pool path grown (poolAppend pool path reallocSucceeds)
        else poolAppend pool path reallocSucceeds = none) := by
  simp only [poolAppend]
  split
  · next tooLarge => exact .inl ⟨by omega, rfl⟩
  next small =>
  split
  · next room => exact .inr (.inl ⟨by omega, room, _, rfl, rfl, rfl⟩)
  next noRoom =>
  have positive : 0 < pool.firstCapacity := by
    rw [PathPool.firstCapacity]
    split
    · decide
    · omega
  have reach : pool.data.length + path.length + 1 ≤ pool.firstCapacity * 2 ^ 63 := by omega
  rcases Option.isSome_iff_exists.mp (growCapacity_isSome positive 63 reach) with ⟨grown, grows⟩
  refine .inr (.inr ⟨by omega, by omega, grown, grows, ?_⟩)
  cases reallocSucceeds with
  | true =>
      rw [if_pos rfl]
      split
      · next fails =>
          cases fails.symm.trans grows
      · next other same =>
          cases same.symm.trans grows
          exact ⟨_, rfl, rfl, rfl⟩
  | false =>
      rw [if_neg Bool.false_ne_true]
      split <;> rfl

/-- What an append that succeeds does to the bytes of the pool, and where the path is. -/
theorem poolAppend_spec {pool appended : PathPool} {path : Bytes} {reallocSucceeds : Bool}
    {offset : UInt32}
    (appends : poolAppend pool path reallocSucceeds = some (appended, offset)) :
    appended.data = pool.data ++ path ++ [0] ∧ offset.toNat = pool.data.length := by
  have start : (UInt32.ofNat pool.data.length).toNat = pool.data.length := by
    rw [UInt32.toNat_ofNat', Nat.mod_eq_of_lt pool.addressable]
  have spec : ∀ capacity, Appends pool path capacity (some (appended, offset)) →
      appended.data = pool.data ++ path ++ [0] ∧ offset.toNat = pool.data.length := by
    rintro capacity ⟨same, result, data, -⟩
    cases result
    exact ⟨data, start⟩
  have cases := poolAppend_cases pool path reallocSucceeds
  rw [appends] at cases
  rcases cases with ⟨-, none⟩ | ⟨-, -, added⟩ | ⟨-, -, grown, -, added⟩
  · cases none
  · exact spec _ added
  · split at added
    · exact spec _ added
    · cases added

/-- When memory can be had, the pool takes every path that leaves it addressable. -/
theorem poolAppend_isSome {pool : PathPool} {path : Bytes}
    (small : pool.data.length + path.length + 1 < 2 ^ 32) :
    (poolAppend pool path true).isSome := by
  rcases poolAppend_cases pool path true with
    ⟨tooLarge, -⟩ | ⟨-, -, appended, added, -⟩ | ⟨-, -, grown, -, appended, added, -⟩
  · omega
  · rw [added]
    rfl
  · rw [added]
    rfl

/-! ## Paths in the pool -/

/-- A path with its terminator is at an offset of the pool. -/
def PoolHolds (pool : Bytes) (offset : UInt32) (path : Bytes) : Prop :=
  ∃ before after, pool = before ++ (path ++ 0 :: after) ∧ before.length = offset.toNat

theorem PoolHolds.mono {pool longer : Bytes} {offset : UInt32} {path : Bytes}
    (holds : PoolHolds pool offset path) (longerPool : pool <+: longer) :
    PoolHolds longer offset path := by
  rcases holds with ⟨before, after, rfl, start⟩
  rcases longerPool with ⟨rest, rfl⟩
  exact ⟨before, after ++ rest, by simp, start⟩

theorem poolHolds_of_poolAppend {pool appended : PathPool} {path : Bytes}
    {reallocSucceeds : Bool} {offset : UInt32}
    (appends : poolAppend pool path reallocSucceeds = some (appended, offset)) :
    PoolHolds appended.data offset path ∧ pool.data <+: appended.data := by
  rcases poolAppend_spec appends with ⟨data, start⟩
  refine ⟨⟨pool.data, [], ?_, start.symm⟩, ?_⟩
  · rw [data, List.append_assoc]
  · rw [data, List.append_assoc]
    exact List.prefix_append _ _

section

variable {pool : Bytes} {offset : UInt32} {path : Bytes} (holds : PoolHolds pool offset path)

include holds

theorem PoolHolds.end_lt : offset.toNat + path.length < pool.length := by
  rcases holds with ⟨before, after, rfl, start⟩
  simp only [List.length_append, List.length_cons]
  omega

theorem PoolHolds.terminator : pool[offset.toNat + path.length]? = some 0 := by
  rcases holds with ⟨before, after, rfl, start⟩
  rw [← start, List.getElem?_append_right (by omega), List.getElem?_append_right (by omega)]
  simp

theorem PoolHolds.slice_eq : slice pool offset.toNat path.length = path := by
  rcases holds with ⟨before, after, rfl, start⟩
  exact slice_append_append start rfl

theorem PoolHolds.poolString_eq (nulFree : 0 ∉ path) : poolString pool offset = path := by
  rcases holds with ⟨before, after, rfl, start⟩
  rw [poolString, List.drop_left' start]
  exact cString_append_zero nulFree after

end

end Ksnap
