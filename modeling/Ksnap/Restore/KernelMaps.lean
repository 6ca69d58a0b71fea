import Ksnap.Restore.Obliging
import Ksnap.Snapshot.KernelMapNames

/-!
# Kernel mappings that are in place

`restore_kernel_maps` skips a mapping that is where it is wanted. Its first loop has
compared the hulls of all mappings by then, and a mapping that is in place is in both of
them, so the hulls overlap and the restore is refused before anything could be skipped.
-/

namespace Ksnap

open Foundation Foundation.Program

/-- The maps file of the child opens, and shows this text. -/
def ShowsMaps (text : Bytes) : RestoreEvent → Prop
  | ⟨.readMaps, reply⟩ => reply = some text
  | _ => True

/-- Each recorded mapping is found by its name, with its size, where it is wanted. -/
def MapsInPlace (header : DumpHeader) (text : Bytes) : Prop :=
  ∀ entry ∈ header.countedKernelMaps, findNamedMap (some text) (nameMemory header entry.2) =
    some (some (entry.1.startAddress, entry.1.size))

/-- Every run returns OK, with no system call injected. -/
def LeavesInPlace (header : DumpHeader) (text content : Bytes) (child : Child) : Prop :=
  ∀ outcome after,
    (restoreKernelMaps header).run.Exec (childWorld content (ShowsMaps text)) child outcome after →
      outcome = some () ∧ after.calls = child.calls

/-! ## The hulls -/

/-- A mapping that was found is not empty, and does not wrap around. -/
theorem findNamedLine_nonempty {name : Bytes} {lines : List Bytes} {start size : UInt64}
    (found : findNamedLine name lines = some (some (start, size))) : start < start + size := by
  induction lines with
  | nil => cases found
  | cons mapsLine lines ih =>
      rw [findNamedLine] at found
      cases parses : parseMapsLine mapsLine with
      | none =>
          rw [parses] at found
          exact ih found
      | some parsed =>
          rw [parses] at found
          dsimp only at found
          split at found
          · cases found
          · cases found
            have ends : parsed.start + (parsed.stop - parsed.start) = parsed.stop := by
              rw [UInt64.add_comm, UInt64.sub_add_cancel]
            rw [ends]
            exact (parseMapsLine_wellFormed parses).nonempty
          · exact ih found

/-- The hull of where the mappings are is the hull of where they are wanted. -/
def KernelMapHull.Same (hull : KernelMapHull) : Prop :=
  hull.childLowest = hull.wantedLowest ∧ hull.childHighest = hull.wantedHighest

theorem KernelMapHull.Same.add {hull : KernelMapHull} (same : hull.Same) (wanted : KernelMap) :
    (hull.add wanted.startAddress wanted.size wanted).Same := by
  rw [KernelMapHull.Same, KernelMapHull.add, same.1, same.2]
  exact ⟨rfl, rfl⟩

/-- With one mapping in it the hull is not empty. -/
theorem KernelMapHull.add_nonempty (hull : KernelMapHull) {start size : UInt64}
    (nonempty : start < start + size) (wanted : KernelMap) :
    (hull.add start size wanted).childLowest < (hull.add start size wanted).childHighest := by
  have lowest : (hull.add start size wanted).childLowest ≤ start := by
    rw [KernelMapHull.add]
    dsimp only
    split
    · exact UInt64.le_refl start
    · rename_i above
      exact UInt64.not_lt.mp above
  have highest : start + size ≤ (hull.add start size wanted).childHighest := by
    rw [KernelMapHull.add]
    dsimp only
    split
    · exact UInt64.le_refl _
    · rename_i above
      exact UInt64.not_lt.mp above
  exact UInt64.lt_of_le_of_lt lowest (UInt64.lt_of_lt_of_le nonempty highest)

/-! ## Both loops -/

section

variable {header : DumpHeader} {text content : Bytes}

/-- The maps of the child are read so many times. -/
def Child.afterReading (child : Child) (text : Bytes) (times : ℕ) : Child :=
  { child with shown := child.shown ++ List.replicate times text }

theorem findChildMap_exec {name : Bytes} {range : UInt64 × UInt64}
    (found : findNamedMap (some text) name = some (some range)) {child after : Child}
    {outcome : Option (UInt64 × UInt64)} :
    (findChildMap name).run.Exec (childWorld content (ShowsMaps text)) child outcome after ↔
      outcome = some range ∧ after = child.afterReading text 1 := by
  rw [findChildMap, exec_ask_bind]
  constructor
  · rintro ⟨maps, read, ⟨reads, shows⟩, ends⟩
    obtain rfl : maps = some text := shows
    rw [found] at ends
    exact ⟨ends.1, ends.2.trans reads⟩
  · rintro ⟨rfl, rfl⟩
    refine ⟨some text, child.afterReading text 1, ⟨rfl, rfl⟩, ?_⟩
    rw [found]
    exact ⟨rfl, rfl⟩

/-- The first loop goes through, and ends with the same hull twice. -/
theorem measureKernelMaps_in_place {maps : List (KernelMap × ℕ)} {hull : KernelMapHull}
    (inPlace : ∀ entry ∈ maps, findNamedMap (some text) (nameMemory header entry.2) =
      some (some (entry.1.startAddress, entry.1.size)))
    (same : hull.Same) (nonempty : maps = [] → hull.childLowest < hull.childHighest)
    (child : Child) :
    ∃ final : KernelMapHull, final.Same ∧ final.childLowest < final.childHighest ∧
      ∀ outcome after, (measureKernelMaps header maps hull).run.Exec
        (childWorld content (ShowsMaps text)) child outcome after ↔
          outcome = some final ∧ after = child.afterReading text maps.length := by
  induction maps generalizing hull child with
  | nil =>
      refine ⟨hull, same, nonempty rfl, fun outcome after => ?_⟩
      have unread : child.afterReading text 0 = child := by
        simp [Child.afterReading]
      rw [List.length_nil, unread]
      exact exec_pure
  | cons first rest ih =>
      rcases first with ⟨wanted, index⟩
      have found := inPlace (wanted, index) List.mem_cons_self
      have notEmpty := findNamedLine_nonempty found
      rcases @ih (hull.add wanted.startAddress wanted.size wanted)
        (fun entry mem => inPlace entry (List.mem_cons_of_mem _ mem)) (same.add wanted)
        (fun _ => hull.add_nonempty notEmpty wanted) (child.afterReading text 1) with
        ⟨final, finalSame, finalNonempty, runs⟩
      refine ⟨final, finalSame, finalNonempty, fun outcome after => ?_⟩
      have reads : (child.afterReading text 1).afterReading text rest.length =
          child.afterReading text (rest.length + 1) := by
        simp [Child.afterReading, List.replicate_succ]
      rw [measureKernelMaps, exec_attempt_bind, List.length_cons, ← reads, ← runs]
      constructor
      · rintro ⟨range, middle, finds, later⟩
        rcases (findChildMap_exec found).mp finds with ⟨rfl, rfl⟩
        dsimp only at later
        rw [exec_require_bind, if_pos (decide_eq_true rfl)] at later
        exact later
      · intro later
        refine ⟨_, _, (findChildMap_exec found).mpr ⟨rfl, rfl⟩, ?_⟩
        dsimp only
        rw [exec_require_bind, if_pos (decide_eq_true rfl)]
        exact later

theorem countedKernelMaps_ne_nil (some_ : header.kernelMapCount ≠ 0) :
    header.countedKernelMaps ≠ [] := by
  have positive : header.kernelMapCount.toNat ≠ 0 := by
    rw [ne_eq, ← UInt32.toNat_inj] at some_
    exact some_
  have length : header.countedKernelMaps.length ≠ 0 := by
    rw [DumpHeader.countedKernelMaps, List.length_zipIdx, List.length_take,
      List.Vector.toList_length, maxKernelMaps]
    omega
  exact fun none_ => length (congrArg List.length none_)

/-- Where every mapping is in place, the only run reads the maps and gives up. -/
theorem restoreKernelMaps_in_place (some_ : header.kernelMapCount ≠ 0)
    (inPlace : MapsInPlace header text) (child : Child) (outcome : Option Unit) (after : Child) :
    (restoreKernelMaps header).run.Exec (childWorld content (ShowsMaps text)) child outcome
        after ↔
      outcome = none ∧ after = child.afterReading text header.countedKernelMaps.length := by
  rcases @measureKernelMaps_in_place header text content _ .empty inPlace ⟨rfl, rfl⟩
    (fun none_ => absurd none_ (countedKernelMaps_ne_nil some_)) child with
    ⟨hull, same, nonempty, runs⟩
  have overlap : (!(hull.childLowest < hull.wantedHighest &&
      hull.wantedLowest < hull.childHighest)) = false := by
    rw [← same.1, ← same.2, decide_eq_true nonempty]
    rfl
  rw [restoreKernelMaps, if_neg some_, exec_attempt_bind]
  constructor
  · rintro ⟨first, middle, measures, refuses⟩
    rcases (runs _ _).mp measures with ⟨rfl, rfl⟩
    dsimp only at refuses
    rw [exec_require_bind, if_neg (by rw [overlap]; exact Bool.false_ne_true)] at refuses
    exact refuses
  · rintro ⟨rfl, rfl⟩
    refine ⟨_, _, (runs _ _).mpr ⟨rfl, rfl⟩, ?_⟩
    dsimp only
    rw [exec_require_bind, if_neg (by rw [overlap]; exact Bool.false_ne_true)]
    exact ⟨rfl, rfl⟩

end

/-- Kernel mappings that are all in place are never accepted: every run fails, with nothing
injected. -/
theorem kernelMaps_in_place_refused {header : DumpHeader} {text : Bytes}
    (some_ : header.kernelMapCount ≠ 0) (inPlace : MapsInPlace header text) (content : Bytes)
    (child : Child) :
    ¬LeavesInPlace header text content child ∧ ∀ outcome after,
      (restoreKernelMaps header).run.Exec (childWorld content (ShowsMaps text)) child outcome
        after → outcome = none ∧ after.calls = child.calls := by
  have runs := @restoreKernelMaps_in_place header text content some_ inPlace child
  constructor
  · intro leaves
    cases (leaves none _ ((runs _ _).mpr ⟨rfl, rfl⟩)).1
  · intro outcome after run
    rcases (runs outcome after).mp run with ⟨fails, reads⟩
    exact ⟨fails, reads ▸ rfl⟩

/-! ## One mapping in place -/

/-- The text of a child whose vdso is where the snapshot has it. -/
def vdsoMaps : Bytes := ascii "7000-8000 r-xp 0 0 0 [vdso]\n"

theorem countedKernelMaps_vdso : (namedParts vdsoName).header.countedKernelMaps =
    [(⟨0x7000, 0x1000, vdsoName⟩, 0)] := by
  decide

theorem cString_nameMemory_vdso : 0 ∈ nameMemory (namedParts vdsoName).header 0 ∧
    cString (nameMemory (namedParts vdsoName).header 0) = ascii "[vdso]" := by
  rcases @nameMemory_eq (namedParts vdsoName).header ⟨0x7000, 0x1000, vdsoName⟩ 0 rfl with
    ⟨rest, memory⟩
  have terminated : 0 ∈ vdsoName.toList := by decide
  rw [memory, cString_append_of_terminated terminated]
  exact ⟨List.mem_append_left _ terminated, rfl⟩

theorem mapsInPlace_vdso : MapsInPlace (namedParts vdsoName).header vdsoMaps := by
  intro entry mem
  rw [countedKernelMaps_vdso] at mem
  cases List.mem_singleton.mp mem
  rw [findNamedMap_of_terminated cString_nameMemory_vdso.1, cString_nameMemory_vdso.2]
  rfl

theorem kernelMaps_in_place_refused_vdso :
    ¬LeavesInPlace (namedParts vdsoName).header vdsoMaps [] heldEngine :=
  (kernelMaps_in_place_refused (by decide) mapsInPlace_vdso [] heldEngine).1

/-- A child whose vdso is in place is not restored. -/
theorem not_leavesInPlace :
    ¬∀ (header : DumpHeader) (text content : Bytes) (child : Child),
      header.kernelMapCount ≠ 0 → MapsInPlace header text →
        LeavesInPlace header text content child := by
  intro always
  have leaves := always _ _ [] heldEngine (by decide) mapsInPlace_vdso
  have run := @restoreKernelMaps_in_place _ _ [] (by decide) mapsInPlace_vdso heldEngine
  cases (leaves none _ ((run _ _).mpr ⟨rfl, rfl⟩)).1

end Ksnap
