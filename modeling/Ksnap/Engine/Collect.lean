import Ksnap.Engine.Fds
import Ksnap.Engine.Maps
import Ksnap.Engine.PathPool
import Ksnap.Foundation.Loop

/-!
# Collecting the tables of a dump

`collect_vmas`, `collect_fds` and `find_shared_files` of `src/dumper.c`. The files
of `/proc` are parameters, and so is the outcome of every allocation: each entry
of a table needs at most one larger table and one larger pool, so the outcomes are
indexed by the number of entries before it.
-/

namespace Ksnap

open Foundation

/-- `/proc/pid/maps` once it is open: the text up to its end, or up to a read error. -/
structure MapsFile where
  text : Bytes
  readFails : Bool

/-- Which allocations succeed, by the number of entries a table has when it asks. -/
structure Allocations where
  vmaTable : ℕ → Bool
  vmaPath : ℕ → Bool
  fdTable : ℕ → Bool
  fdPath : ℕ → Bool

/-- Every allocation succeeds. -/
def Allocations.plenty : Allocations :=
  ⟨fun _ => true, fun _ => true, fun _ => true, fun _ => true⟩

/-- `VMA_TABLE_INITIAL_CAPACITY` and `FD_TABLE_INITIAL_CAPACITY` -/
def vmaTableInitialCapacity : UInt32 := 64
def fdTableInitialCapacity : UInt32 := 16

/-- The capacity of a table that has room for one more entry. It doubles in 32 bits, and
a realloc down to nothing hands out no memory. -/
def growTable (initial capacity : UInt32) (count : ℕ) (reallocSucceeds : Bool) :
    Option UInt32 :=
  if count = capacity.toNat then
    let newCapacity := if capacity = 0 then initial else capacity * 2
    if newCapacity = 0 || !reallocSucceeds then none else some newCapacity
  else some capacity

/-- A table holds nothing yet, or a power of two of entries. -/
def TableCapacity (capacity : UInt32) : Prop :=
  capacity = 0 ∨ ∃ exponent, capacity.toNat = 2 ^ exponent

/-- A power of two doubles to the next one, or to nothing at the end of 32 bits. -/
theorem toNat_double {capacity : UInt32} {exponent : ℕ} (power : capacity.toNat = 2 ^ exponent) :
    (capacity * 2).toNat = if exponent = 31 then 0 else 2 ^ (exponent + 1) := by
  have bound : 2 ^ exponent < 2 ^ 32 := power ▸ capacity.toNat_lt
  have below : exponent < 32 := (Nat.pow_lt_pow_iff_right (by decide)).mp bound
  have two : (2 : UInt32).toNat = 2 := rfl
  rw [UInt32.toNat_mul, power, two, ← pow_succ]
  split
  · rename_i last
    rw [last]
    decide
  · exact Nat.mod_eq_of_lt (Nat.pow_lt_pow_right (by decide) (by omega))

/-- A table that grew has room for the next entry. -/
theorem growTable_spec {initial capacity grown : UInt32} {count : ℕ} {reallocSucceeds : Bool}
    (initialPower : ∃ exponent, initial.toNat = 2 ^ exponent) (power : TableCapacity capacity)
    (within : count ≤ capacity.toNat)
    (grows : growTable initial capacity count reallocSucceeds = some grown) :
    TableCapacity grown ∧ count < grown.toNat := by
  by_cases full : count = capacity.toNat
  · simp only [growTable, if_pos full, Bool.or_eq_true, decide_eq_true_eq,
      Option.ite_none_left_eq_some, not_or, Option.some.injEq] at grows
    rcases grows with ⟨⟨nonzero, _⟩, rfl⟩
    rcases power with rfl | ⟨exponent, power⟩
    · rcases initialPower with ⟨exponent, power⟩
      refine ⟨.inr ⟨exponent, power⟩, ?_⟩
      rw [full, if_pos rfl, power]
      exact Nat.two_pow_pos exponent
    · have positive : capacity ≠ 0 := by
        rintro rfl
        exact (Nat.two_pow_pos exponent).ne power
      rw [if_neg positive] at nonzero ⊢
      have doubled := toNat_double power
      split at doubled
      · exact absurd (UInt32.toNat_inj.mp doubled) nonzero
      · refine ⟨.inr ⟨exponent + 1, doubled⟩, ?_⟩
        rw [full, power, doubled]
        exact Nat.pow_lt_pow_right (by decide) (by omega)
  · simp only [growTable, if_neg full, Option.some.injEq] at grows
    subst grows
    exact ⟨power, by omega⟩

/-- A table holds at most half of what 32 bits can count. -/
theorem TableCapacity.le {capacity : UInt32} (power : TableCapacity capacity) :
    capacity.toNat ≤ 2 ^ 31 := by
  rcases power with rfl | ⟨exponent, power⟩
  · exact Nat.zero_le _
  · have bound : 2 ^ exponent < 2 ^ 32 := power ▸ capacity.toNat_lt
    have below : exponent < 32 := (Nat.pow_lt_pow_iff_right (by decide)).mp bound
    rw [power]
    exact Nat.pow_le_pow_right (by decide) (by omega)

/-- When memory can be had, a table grows until it is that large. -/
theorem growTable_isSome {initial capacity : UInt32} {count : ℕ} (positive : initial ≠ 0)
    (power : TableCapacity capacity) (room : count < 2 ^ 31) :
    (growTable initial capacity count true).isSome := by
  unfold growTable
  split
  · rename_i full
    rcases power with rfl | ⟨exponent, power⟩
    · simp [positive]
    · have nonzero : capacity ≠ 0 := by
        rintro rfl
        exact (Nat.two_pow_pos exponent).ne power
      have doubled := toNat_double power
      have notLast : exponent ≠ 31 := by
        rintro rfl
        omega
      rw [if_neg notLast] at doubled
      have positiveDouble : capacity * 2 ≠ 0 := by
        intro zero
        rw [zero] at doubled
        exact (Nat.two_pow_pos (exponent + 1)).ne doubled
      simp [nonzero, positiveDouble]
  · rfl

/-! ## Mappings -/

/-- The variables of the loop in `collect_vmas`. -/
structure VmaTable where
  vmas : List VmaDescriptor
  capacity : UInt32
  kernelMaps : List KernelMap
  pool : PathPool

/-- The descriptor of a mapping, before the layout of the snapshot is known. -/
def VmaDescriptor.ofLine (parsed : MapsLine) (pathOffset : UInt32) : VmaDescriptor where
  startAddress := parsed.start
  size := parsed.stop - parsed.start
  fileOffset := parsed.fileOffset
  dataOffset := 0
  prot := permsToProt parsed.privileges
  mapFlags := permsToMapFlags parsed.privileges
  pathOffset := pathOffset
  pathLen := UInt32.ofNat parsed.path.length

/-- The record of a kernel mapping, refused when its name does not fit. -/
def KernelMap.ofLine (parsed : MapsLine) : Option KernelMap :=
  if short : parsed.path.length < kernelMapNameLen then
    some {
      startAddress := parsed.start
      size := parsed.stop - parsed.start
      name := ⟨parsed.path ++ List.replicate (kernelMapNameLen - parsed.path.length) 0,
        by simp; omega⟩ }
  else none

/-- One round of the loop in `collect_vmas`. -/
def collectVmaLine (memory : Allocations) (table : VmaTable) (mapsLine : Bytes) :
    Option VmaTable :=
  match parseMapsLine mapsLine with
  | none => some table
  | some parsed =>
      match classifyMapsLine parsed with
      | .skipUnreadable | .skipShared | .skipPseudo => some table
      | .kernel =>
          if table.kernelMaps.length = maxKernelMaps then none
          else do
            let kernelMap ← KernelMap.ofLine parsed
            some { table with kernelMaps := table.kernelMaps ++ [kernelMap] }
      | .dump => do
          let count := table.vmas.length
          let capacity ←
            growTable vmaTableInitialCapacity table.capacity count (memory.vmaTable count)
          let (pool, pathOffset) ←
            if 0 < parsed.path.length then
              poolAppend table.pool parsed.path (memory.vmaPath count)
            else some (table.pool, 0)
          some { table with
            vmas := table.vmas ++ [.ofLine parsed pathOffset]
            capacity := capacity
            pool := pool }

/-- The vma table of a process, its kernel mappings, and the pool with the paths. -/
def collectVmas (maps : Option MapsFile) (memory : Allocations) (pool : PathPool) :
    Option VmaTable := do
  let file ← maps
  let table ← (fgetsLines mapsLineMax file.text).foldlM (collectVmaLine memory)
    { vmas := [], capacity := 0, kernelMaps := [], pool := pool }
  if file.readFails then none
  else if table.vmas = [] then none
  else some table

/-! ## Descriptors -/

/-- The variables of the loop in `collect_fds`. -/
structure FdTable where
  fds : List FdDescriptor
  capacity : UInt32
  pool : PathPool

/-- `isdigit` of the first character of a name; the terminator is no digit. -/
def startsWithDigit (name : Bytes) : Bool :=
  isDigit (name.headD 0)

/-- One round of the loop in `collect_fds`, on one name of the folder. -/
def collectFdEntry (files : FdFiles) (memory : Allocations) (table : FdTable) (name : Bytes) :
    Option FdTable :=
  if !startsWithDigit name then some table
  else
    let fd := atoi name
    match classifyFd files fd with
    | (.skipStdio, _) => some table
    | (.unreadable, _) => none
    | (.dump, path) => do
        let count := table.fds.length
        let capacity ←
          growTable fdTableInitialCapacity table.capacity count (memory.fdTable count)
        let (position, flags) ← readFdState files fd
        let (pool, pathOffset) ← poolAppend table.pool path (memory.fdPath count)
        some {
          fds := table.fds ++ [{
            fd := fd
            dupOf := -1
            flags := flags
            pathOffset := pathOffset
            pathLen := UInt32.ofNat path.length
            reserved := 0
            position := position }]
          capacity := capacity
          pool := pool }
    | _ => some table

/-- The inner loop of `find_shared_files`: the first earlier descriptor that has an open
file of its own and shares it. No result at all means that kcmp failed. -/
def findSharedFile (files : FdFiles) (pool : Bytes) (entry : FdDescriptor) :
    List FdDescriptor → Option (Option Int32)
  | [] => some none
  | other :: others =>
      if other.dupOf ≠ -1 ||
          poolString pool entry.pathOffset ≠ poolString pool other.pathOffset then
        findSharedFile files pool entry others
      else
        match files.kcmp other.fd entry.fd with
        | none => none
        | some 0 => some (some other.fd)
        | some _ => findSharedFile files pool entry others

/-- The outer loop of `find_shared_files`, over the entries after the settled ones. -/
def findSharedFrom (files : FdFiles) (pool : Bytes) :
    List FdDescriptor → List FdDescriptor → List FdDescriptor
  | settled, [] => settled
  | settled, entry :: entries =>
      match findSharedFile files pool entry settled with
      | none => settled ++ entry :: entries
      | some none => findSharedFrom files pool (settled ++ [entry]) entries
      | some (some dupOf) =>
          findSharedFrom files pool (settled ++ [{ entry with dupOf := dupOf }]) entries

def findSharedFiles (files : FdFiles) (fds : List FdDescriptor) (pool : Bytes) :
    List FdDescriptor :=
  findSharedFrom files pool [] fds

/-- `qsort` with `compare_fd_descriptors` -/
def sortFds (fds : List FdDescriptor) : List FdDescriptor :=
  fds.mergeSort fun left right => decide (left.fd ≤ right.fd)

/-- The fd table of a process, and the pool with the paths. -/
def collectFds (files : FdFiles) (memory : Allocations) (pool : PathPool) :
    Option FdTable := do
  let names ← files.directory
  let table ← names.foldlM (collectFdEntry files memory)
    { fds := [], capacity := 0, pool := pool }
  let sorted := if 1 < table.fds.length then sortFds table.fds else table.fds
  some { table with fds := findSharedFiles files sorted table.pool.data }

end Ksnap
