import Ksnap.Engine.Collect

/-!
# Collected tables

What the collectors hand over when they return OK. The vma table has one entry for
each line of the class that is dumped, in order, and the fd table one for each
descriptor of the class that is dumped, in ascending order. The paths of both are in
the pool, at the offsets their entries name. An entry of the fd table is a copy of an
earlier one only when kcmp said that both share one open file.
-/

namespace Ksnap

open Foundation

/-! ## Mappings -/

/-- The parsed lines of a class, in order. -/
def linesOf (vmaClass : VmaClass) (lines : List Bytes) : List MapsLine :=
  (lines.filterMap parseMapsLine).filter fun parsed => classifyMapsLine parsed = vmaClass

theorem linesOf_append (vmaClass : VmaClass) (lines more : List Bytes) :
    linesOf vmaClass (lines ++ more) = linesOf vmaClass lines ++ linesOf vmaClass more := by
  simp [linesOf]

theorem linesOf_unparsable {vmaClass : VmaClass} {mapsLine : Bytes}
    (fails : parseMapsLine mapsLine = none) : linesOf vmaClass [mapsLine] = [] := by
  simp [linesOf, fails]

theorem linesOf_singleton {vmaClass : VmaClass} {mapsLine : Bytes} {parsed : MapsLine}
    (parses : parseMapsLine mapsLine = some parsed) :
    linesOf vmaClass [mapsLine] = if classifyMapsLine parsed = vmaClass then [parsed] else [] := by
  simp only [linesOf, List.filterMap_cons, parses, List.filterMap_nil, List.filter_cons,
    decide_eq_true_eq, List.filter_nil]

theorem wellFormed_of_mem_linesOf {vmaClass : VmaClass} {lines : List Bytes} {parsed : MapsLine}
    (mem : parsed ∈ linesOf vmaClass lines) : parsed.WellFormed := by
  rcases List.mem_filterMap.mp (List.mem_filter.mp mem).1 with ⟨mapsLine, _, parses⟩
  exact parseMapsLine_wellFormed parses

/-- The entry of a mapping. A path that is not empty is in the pool. -/
def VmaDescribed (pool : Bytes) (parsed : MapsLine) (vma : VmaDescriptor) : Prop :=
  vma = .ofLine parsed vma.pathOffset ∧
    (parsed.path ≠ [] → PoolHolds pool vma.pathOffset parsed.path)

/-- The variables of `collect_vmas` after some lines. -/
structure VmasCollected (start : PathPool) (seen : List Bytes) (table : VmaTable) : Prop where
  vmas : List.Forall₂ (VmaDescribed table.pool.data) (linesOf .dump seen) table.vmas
  kernelMaps : List.Forall₂ (fun parsed kernelMap => KernelMap.ofLine parsed = some kernelMap)
    (linesOf .kernel seen) table.kernelMaps
  kernelMaps_le : table.kernelMaps.length ≤ maxKernelMaps
  capacity : TableCapacity table.capacity
  count_le : table.vmas.length ≤ table.capacity.toNat
  pool : start.data <+: table.pool.data

theorem VmaDescribed.mono {pool longer : Bytes} {parsed : MapsLine} {vma : VmaDescriptor}
    (described : VmaDescribed pool parsed vma) (longerPool : pool <+: longer) :
    VmaDescribed longer parsed vma :=
  ⟨described.1, fun nonempty => (described.2 nonempty).mono longerPool⟩

/-- What one line does to the variables of the loop, when it does not end it. -/
inductive VmaLineTaken (memory : Allocations) (table after : VmaTable) (mapsLine : Bytes) : Prop
  | unparsable (fails : parseMapsLine mapsLine = none) (same : after = table)
  | skipped {parsed : MapsLine} (parses : parseMapsLine mapsLine = some parsed)
      (notDump : classifyMapsLine parsed ≠ .dump) (notKernel : classifyMapsLine parsed ≠ .kernel)
      (same : after = table)
  | kernel {parsed : MapsLine} (parses : parseMapsLine mapsLine = some parsed)
      (class_ : classifyMapsLine parsed = .kernel) {kernelMap : KernelMap}
      (record : KernelMap.ofLine parsed = some kernelMap)
      (room : table.kernelMaps.length ≠ maxKernelMaps)
      (added : after = { table with kernelMaps := table.kernelMaps ++ [kernelMap] })
  | dump {parsed : MapsLine} (parses : parseMapsLine mapsLine = some parsed)
      (class_ : classifyMapsLine parsed = .dump) {capacity : UInt32} {pool : PathPool}
      {pathOffset : UInt32}
      (grows : growTable vmaTableInitialCapacity table.capacity table.vmas.length
        (memory.vmaTable table.vmas.length) = some capacity)
      (path : (0 < parsed.path.length ∧ poolAppend table.pool parsed.path
          (memory.vmaPath table.vmas.length) = some (pool, pathOffset)) ∨
        (parsed.path = [] ∧ pool = table.pool))
      (added : after = { table with
        vmas := table.vmas ++ [.ofLine parsed pathOffset]
        capacity := capacity
        pool := pool })

theorem collectVmaLine_taken {memory : Allocations} {table after : VmaTable} {mapsLine : Bytes}
    (step : collectVmaLine memory table mapsLine = some after) :
    VmaLineTaken memory table after mapsLine := by
  unfold collectVmaLine at step
  split at step
  · rename_i fails
    exact .unparsable fails (Option.some.inj step).symm
  · rename_i parsed parses
    split at step
    · rename_i class_
      exact .skipped parses (by simp [class_]) (by simp [class_]) (Option.some.inj step).symm
    · rename_i class_
      exact .skipped parses (by simp [class_]) (by simp [class_]) (Option.some.inj step).symm
    · rename_i class_
      exact .skipped parses (by simp [class_]) (by simp [class_]) (Option.some.inj step).symm
    · rename_i class_
      split at step
      · cases step
      · rename_i room
        simp only [Option.bind_eq_bind, Option.bind_eq_some_iff, Option.some.injEq] at step
        rcases step with ⟨kernelMap, record, rfl⟩
        exact .kernel parses class_ record room rfl
    · rename_i class_
      simp only [Option.bind_eq_bind, Option.bind_eq_some_iff] at step
      rcases step with ⟨capacity, grows, step⟩
      split at step
      · rename_i nonempty
        simp only [Option.bind_eq_some_iff, Option.some.injEq] at step
        rcases step with ⟨⟨pool, pathOffset⟩, appends, rfl⟩
        exact .dump parses class_ grows (.inl ⟨nonempty, appends⟩) rfl
      · rename_i empty
        cases step
        exact .dump parses class_ grows
          (.inr ⟨List.length_eq_zero_iff.mp (by omega), rfl⟩) rfl

theorem VmasCollected.step {memory : Allocations} {start : PathPool} {seen : List Bytes}
    {table after : VmaTable} {mapsLine : Bytes} (collected : VmasCollected start seen table)
    (step : collectVmaLine memory table mapsLine = some after) :
    VmasCollected start (seen ++ [mapsLine]) after := by
  have vmas := collected.vmas
  have kernelMaps := collected.kernelMaps
  cases collectVmaLine_taken step with
  | unparsable fails same =>
      subst same
      exact { collected with
        vmas := by simpa [linesOf_append, linesOf_unparsable fails] using vmas
        kernelMaps := by simpa [linesOf_append, linesOf_unparsable fails] using kernelMaps }
  | skipped parses notDump notKernel same =>
      subst same
      exact { collected with
        vmas := by simpa [linesOf_append, linesOf_singleton parses, notDump] using vmas
        kernelMaps := by
          simpa [linesOf_append, linesOf_singleton parses, notKernel] using kernelMaps }
  | kernel parses class_ record room added =>
      have le := collected.kernelMaps_le
      subst added
      exact { collected with
        vmas := by simpa [linesOf_append, linesOf_singleton parses, class_] using vmas
        kernelMaps := by
          rw [linesOf_append, linesOf_singleton parses, if_pos class_]
          exact List.rel_append kernelMaps (.cons record .nil)
        kernelMaps_le := by
          simp only [List.length_append, List.length_singleton]
          omega }
  | @dump parsed parses class_ capacity pool pathOffset grows path added =>
      rcases growTable_spec ⟨6, rfl⟩ collected.capacity collected.count_le grows with ⟨power, room⟩
      have longer : table.pool.data <+: pool.data := by
        rcases path with ⟨_, appends⟩ | ⟨_, rfl⟩
        · exact (poolHolds_of_poolAppend appends).2
        · exact List.prefix_rfl
      have described : VmaDescribed pool.data parsed (.ofLine parsed pathOffset) := by
        refine ⟨rfl, fun nonempty => ?_⟩
        rcases path with ⟨_, appends⟩ | ⟨empty, _⟩
        · exact (poolHolds_of_poolAppend appends).1
        · exact absurd empty nonempty
      subst added
      exact {
        vmas := by
          rw [linesOf_append, linesOf_singleton parses, if_pos class_]
          exact List.rel_append (vmas.imp fun _ _ before => before.mono longer)
            (.cons described .nil)
        kernelMaps := by
          simpa [linesOf_append, linesOf_singleton parses, class_] using kernelMaps
        kernelMaps_le := collected.kernelMaps_le
        capacity := power
        count_le := by
          simp only [List.length_append, List.length_singleton]
          omega
        pool := collected.pool.trans longer }

/-- Every entry of the table is the entry of a line. -/
theorem VmasCollected.exists_line {start : PathPool} {seen : List Bytes} {table : VmaTable}
    (collected : VmasCollected start seen table) {vma : VmaDescriptor} (mem : vma ∈ table.vmas) :
    ∃ parsed ∈ linesOf .dump seen, VmaDescribed table.pool.data parsed vma := by
  rcases List.getElem_of_mem mem with ⟨index, inside, rfl⟩
  have insideLines : index < (linesOf .dump seen).length := by
    rw [collected.vmas.length_eq]
    exact inside
  exact ⟨_, List.getElem_mem insideLines, collected.vmas.get insideLines inside⟩

/-- `collect_vmas` returns OK when its loop does, the file was read to its end, and something
was found. -/
theorem collectVmas_eq_some_iff {file : Option MapsFile} {memory : Allocations}
    {start : PathPool} {table : VmaTable} :
    collectVmas file memory start = some table ↔ ∃ maps, file = some maps ∧
      maps.readFails = false ∧ table.vmas ≠ [] ∧
        (fgetsLines mapsLineMax maps.text).foldlM (collectVmaLine memory) ⟨[], 0, [], start⟩ =
          some table := by
  simp only [collectVmas, Option.bind_eq_bind, Option.bind_eq_some_iff]
  constructor
  · rintro ⟨maps, opened, ended, loop, checked⟩
    split at checked
    · cases checked
    · rename_i reads
      split at checked
      · cases checked
      · rename_i nonempty
        cases checked
        exact ⟨maps, opened, by simpa using reads, nonempty, loop⟩
  · rintro ⟨maps, opened, reads, nonempty, loop⟩
    exact ⟨maps, opened, table, loop, by rw [reads, if_neg (by decide), if_neg nonempty]⟩

/-- What `collect_vmas` hands over. -/
theorem vmasCollected_of_collectVmas {file : Option MapsFile} {memory : Allocations}
    {start : PathPool} {table : VmaTable} (collects : collectVmas file memory start = some table) :
    ∃ maps, file = some maps ∧ maps.readFails = false ∧ table.vmas ≠ [] ∧
      VmasCollected start (fgetsLines mapsLineMax maps.text) table := by
  rcases collectVmas_eq_some_iff.mp collects with ⟨maps, opened, reads, nonempty, loop⟩
  have initially : VmasCollected start [] ⟨[], 0, [], start⟩ := {
    vmas := .nil
    kernelMaps := .nil
    kernelMaps_le := Nat.zero_le _
    capacity := .inl rfl
    count_le := Nat.zero_le _
    pool := List.prefix_rfl }
  exact ⟨maps, opened, reads, nonempty, foldlM_invariant (VmasCollected start)
    (fun _ _ _ _ before taken => before.step taken) initially loop⟩

/-- Every line of the class has its entry in the table. -/
theorem VmasCollected.exists_vma {start : PathPool} {seen : List Bytes} {table : VmaTable}
    (collected : VmasCollected start seen table) {parsed : MapsLine}
    (mem : parsed ∈ linesOf .dump seen) :
    ∃ vma ∈ table.vmas, VmaDescribed table.pool.data parsed vma := by
  rcases List.getElem_of_mem mem with ⟨index, inside, rfl⟩
  have insideVmas : index < table.vmas.length := collected.vmas.length_eq ▸ inside
  exact ⟨_, List.getElem_mem insideVmas, collected.vmas.get inside insideVmas⟩

end Ksnap
