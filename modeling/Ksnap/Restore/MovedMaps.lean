import Ksnap.Dump.Outcome
import Ksnap.Restore.Extension
import Ksnap.Restore.KernelMaps

/-!
# Kernel mappings that are moved

`restore_kernel_maps` moves one mapping after the other and looks each one up by its name
again before it is moved. `mremap` with `MREMAP_FIXED` replaces whatever lies at the
destination, so what keeps the mappings from each other is the test of their hulls in front
of the loop: no mapping is where another one is wanted, and no two are wanted at one place.

The world is extended by the mappings of the child. The opcode of an injection is planted
in the memory at rip and put back there, so the eight bytes at rip have to lie apart from
every mapping that is moved, and from where it is moved to.
-/

namespace Ksnap

open Foundation Foundation.Program

/-! ## The kernel's part -/

/-- A mapping of the child, under the name that its line shows. -/
structure Region where
  name : Bytes
  start : UInt64
  size : UInt64
  deriving DecidableEq

def Region.Holds (region : Region) (address : UInt64) : Prop :=
  Within region.start region.size.toNat address

/-- The regions have no address in common. -/
def Region.Apart (first second : Region) : Prop :=
  ∀ address, ¬(first.Holds address ∧ second.Holds address)

def MapsLine.region (parsed : MapsLine) : Region :=
  ⟨parsed.path, parsed.start, parsed.stop - parsed.start⟩

/-- The mappings and the memory when one mapping was moved. What lay at the destination was
replaced, and what is left of it keeps its name. -/
structure RegionMoved (region target : Region) (before after : Memory UInt8)
    (layout next : List Region) : Prop where
  moved : target ∈ next
  contents : ∀ index < region.size.toNat, after (target.start + UInt64.ofNat index) =
    before (region.start + UInt64.ofNat index)
  kept : ∀ other ∈ layout, other.Apart region → other.Apart target → other ∈ next
  origin : ∀ other ∈ next, other = target ∨ (other ∈ layout ∧ other ≠ region) ∨
    ∃ whole ∈ layout, whole.name = other.name ∧ whole ≠ region ∧ ¬whole.Apart target

/-- What a system call does to the mappings. Only a mapping that is moved as a whole matters
here; nothing is known of other calls, nor of one that fails. -/
def SystemCall.Moves (call : SystemCall) (result : UInt64) (before after : Memory UInt8)
    (layout next : List Region) : Prop :=
  call.number = sysMremap → syscallFailed result = false → call.arg2 = call.arg3 →
    call.arg4 = mremapFixed → ∀ name, ⟨name, call.arg1, call.arg2⟩ ∈ layout →
      RegionMoved ⟨name, call.arg1, call.arg2⟩ ⟨name, call.arg5, call.arg2⟩ before after layout next

/-- The mappings of a child, as an extension of its world. -/
abbrev mappings : Extension where
  State := List Region
  stepped := fun child status after layout next =>
    match status with
    | some .trapped =>
        (SystemCall.ofRegs child.regs).Moves after.regs.rax child.memory after.memory layout next
    | some .interrupted => next = layout
    | none => True
  shows := fun layout text => ∀ parsed ∈ parsedLines text, parsed.region ∈ layout

/-! ## The recorded mappings -/

/-- The name that a recorded mapping is looked up by. -/
def recordedName (header : DumpHeader) (index : ℕ) : Bytes :=
  cString (nameMemory header index)

/-- Where a recorded mapping is wanted. -/
def wantedRegion (header : DumpHeader) (entry : KernelMap × ℕ) : Region :=
  ⟨recordedName header entry.2, entry.1.startAddress, entry.1.size⟩

/-- The kernel mappings of a header, as one address space has them. -/
structure MapsSound (header : DumpHeader) : Prop where
  names : header.countedKernelMaps.Pairwise fun first second =>
    recordedName header first.2 ≠ recordedName header second.2
  nonempty : ∀ entry ∈ header.countedKernelMaps, entry.1.size ≠ 0
  apart : header.countedKernelMaps.Pairwise fun first second =>
    (wantedRegion header first).Apart (wantedRegion header second)
  noWrap : ∀ entry ∈ header.countedKernelMaps,
    entry.1.startAddress.toNat + entry.1.size.toNat < 2 ^ 64

/-- The kernel mappings are told apart by their names, and are wanted in different places. -/
structure MapsApart (header : DumpHeader) : Prop where
  names : header.countedKernelMaps.Pairwise fun first second =>
    recordedName header first.2 ≠ recordedName header second.2
  apart : header.countedKernelMaps.Pairwise fun first second =>
    (wantedRegion header first).Apart (wantedRegion header second)
  noWrap : ∀ entry ∈ header.countedKernelMaps,
    entry.1.startAddress.toNat + entry.1.size.toNat < 2 ^ 64

theorem MapsSound.mapsApart {header : DumpHeader} (sound : MapsSound header) : MapsApart header :=
  ⟨sound.names, sound.apart, sound.noWrap⟩

/-- An address space whose mappings do not overlap, with at most one mapping of each recorded
name. -/
structure SpaceSound (header : DumpHeader) (layout : List Region) : Prop where
  apart : ∀ first ∈ layout, ∀ second ∈ layout, first ≠ second → first.Apart second
  distinct : ∀ entry ∈ header.countedKernelMaps, ∀ first ∈ layout, ∀ second ∈ layout,
    first.name = recordedName header entry.2 → second.name = recordedName header entry.2 →
      first = second

/-- The eight bytes at rip are in no recorded mapping, and nowhere one is wanted. -/
def SiteApart (header : DumpHeader) (layout : List Region) (rip : UInt64) : Prop :=
  ∀ entry ∈ header.countedKernelMaps, ∀ address, Within rip 8 address →
    ¬(wantedRegion header entry).Holds address ∧
      ∀ region ∈ layout, region.name = recordedName header entry.2 → ¬region.Holds address

/-- Every recorded mapping is at its recorded address, with its own content. -/
def MapsMoved (header : DumpHeader) (before after : Child × List Region) : Prop :=
  ∀ entry ∈ header.countedKernelMaps, ∃ home,
    ⟨recordedName header entry.2, home, entry.1.size⟩ ∈ before.2 ∧
      wantedRegion header entry ∈ after.2 ∧ ∀ index < entry.1.size.toNat,
        after.1.memory (entry.1.startAddress + UInt64.ofNat index) =
          before.1.memory (home + UInt64.ofNat index)

/-! ## Looking up a name -/

/-- A comparison that comes out equal was with the string at that place. -/
theorem eq_cString_of_strcmpEq {path memory : Bytes} (nulFree : 0 ∉ path)
    (equal : strcmpEq path memory = some true) : path = cString memory := by
  induction memory generalizing path with
  | nil => cases path <;> cases equal
  | cons byte memory ih =>
      cases path with
      | nil =>
          simp only [strcmpEq, Option.some.injEq, decide_eq_true_eq] at equal
          simp [cString, equal]
      | cons first path =>
          rw [strcmpEq] at equal
          split at equal
          · rename_i same
            subst same
            have firstNonzero : first ≠ 0 := fun zero => nulFree (by simp [zero])
            have rest := ih (fun mem => nulFree (List.mem_cons_of_mem _ mem)) equal
            simp only [cString, List.takeWhile_cons] at rest ⊢
            simp [firstNonzero, rest]
          · cases equal

/-- A mapping that is found is on a line with that name. -/
theorem findNamedLine_parsed {name : Bytes} {lines : List Bytes} {start size : UInt64}
    (found : findNamedLine name lines = some (some (start, size))) :
    ∃ parsed ∈ lines.filterMap parseMapsLine, parsed.region = ⟨cString name, start, size⟩ := by
  induction lines with
  | nil => cases found
  | cons mapsLine lines ih =>
      rw [findNamedLine] at found
      cases parses : parseMapsLine mapsLine with
      | none =>
          rw [parses] at found
          rw [List.filterMap_cons_none parses]
          exact ih found
      | some parsed =>
          rw [parses] at found
          rw [List.filterMap_cons_some parses]
          dsimp only at found
          split at found
          · cases found
          · rename_i equal
            cases found
            have nulFree := (parseMapsLine_wellFormed parses).path_nulFree
            refine ⟨parsed, List.mem_cons_self, ?_⟩
            rw [MapsLine.region, eq_cString_of_strcmpEq nulFree equal]
          · rcases ih found with ⟨other, mem, isRegion⟩
            exact ⟨other, List.mem_cons_of_mem _ mem, isRegion⟩

section

variable {content : Bytes} {rely : RestoreEvent → Prop} {header : DumpHeader}
  {before : Child × List Region}

/-- What a search leaves: the maps of the child were read, and nothing else happened. -/
structure Looked (before after : Child × List Region) : Prop where
  regs : after.1.regs = before.1.regs
  memory : after.1.memory = before.1.memory
  layout : after.2 = before.2

theorem Looked.trans {first second third : Child × List Region} (looked : Looked first second)
    (more : Looked second third) : Looked first third where
  regs := more.regs.trans looked.regs
  memory := more.memory.trans looked.memory
  layout := more.layout.trans looked.layout

theorem findChildMap_extended (index : ℕ) :
    (findChildMap (nameMemory header index)).run.Ensures (extendedWorld content rely mappings)
      (fun _ => True) (fun outcome after => ∀ start size, outcome = some (start, size) →
        Looked before after ∧ start < start + size ∧
          ⟨recordedName header index, start, size⟩ ∈ before.2) before := by
  unfold findChildMap
  rw [ensures_ask_bind]
  rintro maps ⟨read, layout⟩ ⟨⟨reads, _⟩, shows⟩
  refine ⟨trivial, ?_⟩
  cases maps with
  | none =>
      intro start size impossible
      cases impossible
  | some text =>
      obtain rfl : layout = before.2 := shows.2
      obtain rfl : read = { before.1 with shown := before.1.shown ++ [text] } := reads
      split
      · trivial
      · rename_i found search
        intro start size isFound
        subst isFound
        rcases findNamedLine_parsed search with ⟨parsed, mem, isRegion⟩
        exact ⟨⟨rfl, rfl, rfl⟩, findNamedLine_nonempty search, isRegion ▸ shows.1 parsed mem⟩

/-! ## The hulls -/

/-- A hull holds a mapping where it is and where it is wanted. -/
structure KernelMapHull.Covers (hull : KernelMapHull) (start : UInt64) (wanted : KernelMap) :
    Prop where
  childLowest : hull.childLowest ≤ start
  childHighest : start + wanted.size ≤ hull.childHighest
  wantedLowest : hull.wantedLowest ≤ wanted.startAddress
  wantedHighest : wanted.startAddress + wanted.size ≤ hull.wantedHighest

theorem KernelMapHull.add_covers (hull : KernelMapHull) (start : UInt64) (wanted : KernelMap) :
    (hull.add start wanted.size wanted).Covers start wanted := by
  constructor
  all_goals
    simp only [KernelMapHull.add]
    split
    · exact UInt64.le_refl _
    · rename_i notLess
      exact UInt64.not_lt.mp notLess

theorem KernelMapHull.Covers.add {hull : KernelMapHull} {start other : UInt64}
    {wanted otherWanted : KernelMap} (covers : hull.Covers start wanted) :
    (hull.add other otherWanted.size otherWanted).Covers start wanted := by
  constructor
  all_goals
    simp only [KernelMapHull.add]
    split
    · rename_i less
      first
        | exact UInt64.le_trans (UInt64.le_of_lt less) covers.childLowest
        | exact UInt64.le_trans covers.childHighest (UInt64.le_of_lt less)
        | exact UInt64.le_trans (UInt64.le_of_lt less) covers.wantedLowest
        | exact UInt64.le_trans covers.wantedHighest (UInt64.le_of_lt less)
    · first
        | exact covers.childLowest
        | exact covers.childHighest
        | exact covers.wantedLowest
        | exact covers.wantedHighest

theorem noWrap_of_lt {start size : UInt64} (nonempty : start < start + size) :
    start.toNat + size.toNat < 2 ^ 64 := by
  have below := start.toNat_lt
  have small := size.toNat_lt
  rw [UInt64.lt_iff_toNat_lt, UInt64.toNat_add] at nonempty
  omega

/-- Mappings whose hulls do not overlap are nowhere that one of them is wanted. -/
theorem apart_of_hull {hull : KernelMapHull} {start otherStart : UInt64} {wanted other : KernelMap}
    {name otherName : Bytes}
    (separate : (!(hull.childLowest < hull.wantedHighest &&
      hull.wantedLowest < hull.childHighest)) = true)
    (covers : hull.Covers start wanted) (otherCovers : hull.Covers otherStart other)
    (nonempty : start < start + wanted.size)
    (noWrap : other.startAddress.toNat + other.size.toNat < 2 ^ 64) :
    Region.Apart ⟨name, start, wanted.size⟩ ⟨otherName, other.startAddress, other.size⟩ := by
  have fits : start.toNat + wanted.size.toNat < 2 ^ 64 := noWrap_of_lt nonempty
  have ends : (start + wanted.size).toNat = start.toNat + wanted.size.toNat := by
    rw [UInt64.toNat_add, Nat.mod_eq_of_lt fits]
  have otherEnds : (other.startAddress + other.size).toNat =
      other.startAddress.toNat + other.size.toNat := by
    rw [UInt64.toNat_add, Nat.mod_eq_of_lt noWrap]
  have childLowest := UInt64.le_iff_toNat_le.mp covers.childLowest
  have childHighest := UInt64.le_iff_toNat_le.mp covers.childHighest
  have wantedLowest := UInt64.le_iff_toNat_le.mp otherCovers.wantedLowest
  have wantedHighest := UInt64.le_iff_toNat_le.mp otherCovers.wantedHighest
  simp only [Bool.not_eq_true', Bool.and_eq_false_iff, decide_eq_false_iff_not,
    UInt64.lt_iff_toNat_lt, not_lt] at separate
  rintro address ⟨held, otherHeld⟩
  have here := (within_iff_of_noWrap fits.le).mp held
  have there := (within_iff_of_noWrap noWrap.le).mp otherHeld
  omega

/-- The first loop finds each mapping with its size, and covers it. -/
theorem measureKernelMaps_extended {maps : List (KernelMap × ℕ)} {hull : KernelMapHull} :
    (measureKernelMaps header maps hull).run.Ensures (extendedWorld content rely mappings)
      (fun _ => True) (fun outcome after => ∀ final, outcome = some final →
        Looked before after ∧
          (∀ start wanted, hull.Covers start wanted → final.Covers start wanted) ∧
          ∀ entry ∈ maps, ∃ start, start < start + entry.1.size ∧
            ⟨recordedName header entry.2, start, entry.1.size⟩ ∈ before.2 ∧
              final.Covers start entry.1) before := by
  induction maps generalizing hull before with
  | nil =>
      rintro final ⟨⟩
      exact ⟨⟨rfl, rfl, rfl⟩, fun _ _ covers => covers, by simp⟩
  | cons first rest ih =>
      rcases first with ⟨wanted, index⟩
      unfold measureKernelMaps
      rw [ensures_attempt_bind]
      refine (findChildMap_extended index).mono ?_
      intro outcome found finds
      cases outcome with
      | none => simp
      | some range =>
          rcases range with ⟨childStart, childSize⟩
          rcases finds childStart childSize rfl with ⟨looked, nonempty, inLayout⟩
          dsimp only
          rw [ensures_require_bind]
          refine ⟨?_, by simp⟩
          intro sameSize
          obtain rfl : childSize = wanted.size := of_decide_eq_true sameSize
          refine ih.mono ?_
          intro outcome after measures final isFinal
          rcases measures final isFinal with ⟨more, keeps, each⟩
          refine ⟨looked.trans more, fun start wanted covers => keeps _ _ covers.add, ?_⟩
          intro entry mem
          rcases List.mem_cons.mp mem with rfl | later
          · exact ⟨childStart, nonempty, inLayout, keeps _ _ (hull.add_covers childStart wanted)⟩
          · rcases each entry later with ⟨start, notEmpty, isRegion, covers⟩
            exact ⟨start, notEmpty, looked.layout ▸ isRegion, covers⟩

/-! ## The loop -/

/-- Where a recorded mapping is before anything is moved. -/
def homeRegion (header : DumpHeader) (home : KernelMap × ℕ → UInt64) (entry : KernelMap × ℕ) :
    Region :=
  ⟨recordedName header entry.2, home entry, entry.1.size⟩

/-- Where a recorded mapping is once some of them were moved. -/
def currentRegion (header : DumpHeader) (home : KernelMap × ℕ → UInt64)
    (done : List (KernelMap × ℕ)) (entry : KernelMap × ℕ) : Region :=
  if entry ∈ done then wantedRegion header entry else homeRegion header home entry

/-- The mappings as the first loop has found them. -/
structure Planned (header : DumpHeader) (home : KernelMap × ℕ → UInt64)
    (before : Child × List Region) : Prop where
  sound : MapsApart header
  space : SpaceSound header before.2
  site : SiteApart header before.2 before.1.regs.rip
  homes : ∀ entry ∈ header.countedKernelMaps, homeRegion header home entry ∈ before.2
  apart : ∀ entry ∈ header.countedKernelMaps, ∀ other ∈ header.countedKernelMaps,
    (homeRegion header home entry).Apart (wantedRegion header other)

/-- Each recorded mapping is in its current place, alone with its name, and has its content. -/
structure Moving (header : DumpHeader) (home : KernelMap × ℕ → UInt64)
    (before : Child × List Region) (done : List (KernelMap × ℕ)) (after : Child × List Region) :
    Prop where
  rip : after.1.regs.rip = before.1.regs.rip
  places : ∀ entry ∈ header.countedKernelMaps, ∀ region,
    region ∈ after.2 ∧ region.name = recordedName header entry.2 ↔
      region = currentRegion header home done entry
  contents : ∀ entry ∈ header.countedKernelMaps, ∀ index < entry.1.size.toNat,
    after.1.memory ((currentRegion header home done entry).start + UInt64.ofNat index) =
      before.1.memory (home entry + UInt64.ofNat index)

theorem Region.Apart.symm {first second : Region} (apart : first.Apart second) :
    second.Apart first :=
  fun address both => apart address both.symm

variable {home : KernelMap × ℕ → UInt64} {start middle after : Child × List Region}
  {done : List (KernelMap × ℕ)} {entry other : KernelMap × ℕ}

@[simp]
theorem currentRegion_size : (currentRegion header home done entry).size = entry.1.size := by
  unfold currentRegion
  split <;> rfl

theorem currentRegion_of_notMem (fresh : entry ∉ done) :
    currentRegion header home done entry = homeRegion header home entry :=
  if_neg fresh

theorem currentRegion_concat_self :
    currentRegion header home (done ++ [entry]) entry = wantedRegion header entry :=
  if_pos (List.mem_append_right _ List.mem_cons_self)

theorem currentRegion_concat_of_ne (ne : other ≠ entry) :
    currentRegion header home (done ++ [entry]) other = currentRegion header home done other := by
  simp [currentRegion, ne]

theorem Planned.names (planned : Planned header home start)
    (mem : entry ∈ header.countedKernelMaps) (otherMem : other ∈ header.countedKernelMaps)
    (ne : entry ≠ other) : recordedName header entry.2 ≠ recordedName header other.2 := by
  have symmetric : Std.Symm fun first second : KernelMap × ℕ =>
      recordedName header first.2 ≠ recordedName header second.2 :=
    ⟨fun _ _ differ => differ.symm⟩
  exact planned.sound.names.forall mem otherMem ne

/-- A mapping that is not moved yet is where no other one is. -/
theorem Planned.apart_home (planned : Planned header home start)
    (mem : entry ∈ header.countedKernelMaps) (otherMem : other ∈ header.countedKernelMaps)
    (ne : other ≠ entry) :
    (currentRegion header home done other).Apart (homeRegion header home entry) := by
  unfold currentRegion
  split
  · exact (planned.apart entry mem other otherMem).symm
  · refine planned.space.apart _ (planned.homes other otherMem) _ (planned.homes entry mem) ?_
    intro same
    exact planned.names otherMem mem ne (congrArg Region.name same)

/-- No other mapping is where one is moved to. -/
theorem Planned.apart_wanted (planned : Planned header home start)
    (mem : entry ∈ header.countedKernelMaps) (otherMem : other ∈ header.countedKernelMaps)
    (ne : other ≠ entry) :
    (currentRegion header home done other).Apart (wantedRegion header entry) := by
  unfold currentRegion
  split
  · have symmetric : Std.Symm fun first second : KernelMap × ℕ =>
        (wantedRegion header first).Apart (wantedRegion header second) :=
      ⟨fun _ _ apart => apart.symm⟩
    exact planned.sound.apart.forall otherMem mem ne
  · exact planned.apart other otherMem entry mem

/-- The bytes at rip are in no mapping, wherever it is by now. -/
theorem Planned.site_current (planned : Planned header home start)
    (mem : entry ∈ header.countedKernelMaps) {address : UInt64}
    (held : (currentRegion header home done entry).Holds address) :
    ¬Within start.1.regs.rip 8 address := by
  intro atSite
  have apart := planned.site entry mem address atSite
  unfold currentRegion at held
  split at held
  · exact apart.1 held
  · exact apart.2 _ (planned.homes entry mem) rfl held

/-- Bytes away from rip are the same before an injection and once the opcode is planted, and
as they were executed once the code is put back. -/
theorem Injection.memory_apart {call : SystemCall} {result : UInt64} {executed : Child}
    {status : StepStatus}
    (injection : Injection content rely mappings call result middle executed status after)
    {address : UInt64} (away : ¬Within middle.1.regs.rip 8 address) :
    after.1.memory address = executed.memory address ∧
      (middle.1.plant call).memory address = middle.1.memory address := by
  refine ⟨?_, writeWord_of_not_within away⟩
  rcases injection.restored with ⟨site, word, written, _, restored⟩
  rw [restored, Child.putBack]
  cases written with
  | false => rfl
  | true => exact writeWord_of_not_within away

/-- A system call that is executed leaves the cells that it does not touch. -/
theorem Injection.memory_untouched {call : SystemCall} {result : UInt64} {executed : Child}
    (injection : Injection content rely mappings call result middle executed .trapped after)
    {address : UInt64} (untouched : ¬call.Touches result address) :
    executed.memory address = (middle.1.plant call).memory address := by
  rcases injection.executes with ⟨_, memory, regs, returned, unchanged, executes⟩
  have isResult := injection.result
  rw [executes] at isResult ⊢
  obtain rfl : _ = result := returned.symm.trans isResult
  exact unchanged address untouched

/-- One mapping is moved, and all others stay what and where they are. -/
theorem Moving.move {result : UInt64} {executed : Child}
    (planned : Planned header home start) (moving : Moving header home start done middle)
    (mem : entry ∈ header.countedKernelMaps) (fresh : entry ∉ done)
    (succeeds : syscallFailed result = false)
    (injection : Injection content rely mappings
      (mremapCall (home entry) entry.1.size entry.1) result middle executed .trapped after) :
    Moving header home start (done ++ [entry]) after := by
  have moves : (mremapCall (home entry) entry.1.size entry.1).Moves executed.regs.rax
      (middle.1.plant _).memory executed.memory middle.2 after.2 := injection.effect
  rw [injection.result] at moves
  have inLayout : homeRegion header home entry ∈ middle.2 := by
    rw [← currentRegion_of_notMem fresh]
    exact ((moving.places entry mem _).mpr rfl).1
  have moved := moves rfl succeeds rfl rfl (recordedName header entry.2) inLayout
  have rip := moving.rip
  refine ⟨(congrArg UserRegs.rip injection.regs).trans rip, ?_, ?_⟩
  · intro other otherMem region
    by_cases same : other = entry
    · subst same
      rw [currentRegion_concat_self]
      constructor
      · rintro ⟨inNext, named⟩
        have alone := moving.places other mem
        rw [currentRegion_of_notMem fresh] at alone
        rcases moved.origin region inNext with
          rfl | ⟨inLayout, ne⟩ | ⟨whole, inLayout, isNamed, ne, _⟩
        · rfl
        · exact absurd ((alone region).mp ⟨inLayout, named⟩) ne
        · exact absurd ((alone whole).mp ⟨inLayout, isNamed.trans named⟩) ne
      · rintro rfl
        exact ⟨moved.moved, rfl⟩
    · rw [currentRegion_concat_of_ne same]
      have differ : recordedName header other.2 ≠ recordedName header entry.2 :=
        planned.names otherMem mem same
      constructor
      · rintro ⟨inNext, named⟩
        rcases moved.origin region inNext with
          rfl | ⟨inLayout, _⟩ | ⟨whole, inLayout, isNamed, _, hit⟩
        · exact absurd named.symm differ
        · exact (moving.places other otherMem region).mp ⟨inLayout, named⟩
        · have isOther := (moving.places other otherMem whole).mp ⟨inLayout, isNamed.trans named⟩
          rw [isOther] at hit
          exact absurd (planned.apart_wanted mem otherMem same) hit
      · rintro rfl
        have here := (moving.places other otherMem _).mpr rfl
        exact ⟨moved.kept _ here.1 (planned.apart_home mem otherMem same)
          (planned.apart_wanted mem otherMem same), here.2⟩
  · intro other otherMem index inside
    have small : other.1.size.toNat ≤ 2 ^ 64 := other.1.size.toNat_lt.le
    by_cases same : other = entry
    · subst same
      rw [currentRegion_concat_self]
      have atWanted : (wantedRegion header other).Holds
          (other.1.startAddress + UInt64.ofNat index) := within_add _ small inside
      have atHome : (homeRegion header home other).Holds (home other + UInt64.ofNat index) :=
        within_add _ small inside
      have awayWanted :
          ¬Within middle.1.regs.rip 8 (other.1.startAddress + UInt64.ofNat index) := by
        rw [rip]
        exact fun atSite => (planned.site other mem _ atSite).1 atWanted
      have awayHome : ¬Within middle.1.regs.rip 8 (home other + UInt64.ofNat index) := by
        rw [rip]
        exact fun atSite =>
          (planned.site other mem _ atSite).2 _ (planned.homes other mem) rfl atHome
      have before := moving.contents other mem index inside
      rw [currentRegion_of_notMem fresh] at before
      calc after.1.memory (other.1.startAddress + UInt64.ofNat index)
          = executed.memory (other.1.startAddress + UInt64.ofNat index) :=
            (injection.memory_apart awayWanted).1
        _ = (middle.1.plant _).memory (home other + UInt64.ofNat index) :=
            moved.contents index inside
        _ = middle.1.memory (home other + UInt64.ofNat index) :=
            (injection.memory_apart awayHome).2
        _ = start.1.memory (home other + UInt64.ofNat index) := before
    · rw [currentRegion_concat_of_ne same, ← moving.contents other otherMem index inside]
      have held : (currentRegion header home done other).Holds
          ((currentRegion header home done other).start + UInt64.ofNat index) := by
        rw [Region.Holds, currentRegion_size]
        exact within_add _ small inside
      have away : ¬Within middle.1.regs.rip 8
          ((currentRegion header home done other).start + UInt64.ofNat index) := by
        rw [rip]
        exact planned.site_current otherMem held
      have untouched : ¬(mremapCall (home entry) entry.1.size entry.1).Touches result
          ((currentRegion header home done other).start + UInt64.ofNat index) := by
        rintro ⟨_, ⟨isMmap, _⟩ | ⟨_, atHome | atWanted⟩⟩
        · exact (by decide : sysMremap ≠ sysMmap) isMmap
        · exact planned.apart_home mem otherMem same _ ⟨held, atHome⟩
        · exact planned.apart_wanted mem otherMem same _ ⟨held, atWanted⟩
      calc after.1.memory _
          = executed.memory _ := (injection.memory_apart away).1
        _ = (middle.1.plant _).memory _ := injection.memory_untouched untouched
        _ = middle.1.memory _ := (injection.memory_apart away).2

/-- One round of the second loop. -/
theorem moveKernelMap_extended (trapped : ∀ event, rely event → Trapped event)
    (planned : Planned header home start) (moving : Moving header home start done middle)
    (mem : entry ∈ header.countedKernelMaps) (fresh : entry ∉ done) :
    (moveKernelMap header entry.1 entry.2).run.Ensures (extendedWorld content rely mappings)
      (fun _ => True) (fun outcome after => outcome.isSome →
        Moving header home start (done ++ [entry]) after) middle := by
  unfold moveKernelMap
  rw [ensures_attempt_bind]
  refine (findChildMap_extended entry.2).mono ?_
  intro outcome found finds
  cases outcome with
  | none => simp
  | some range =>
      rcases range with ⟨childStart, childSize⟩
      rcases finds childStart childSize rfl with ⟨looked, _, inLayout⟩
      have isHome := (moving.places entry mem _).mp ⟨inLayout, rfl⟩
      rw [currentRegion_of_notMem fresh, homeRegion, Region.mk.injEq] at isHome
      rcases isHome with ⟨_, rfl, rfl⟩
      have movingFound : Moving header home start done found := by
        refine ⟨(congrArg UserRegs.rip looked.regs).trans moving.rip, ?_, ?_⟩
        · rw [looked.layout]
          exact moving.places
        · rw [looked.memory]
          exact moving.contents
      dsimp only
      split
      · rename_i already
        intro _
        have same : ∀ other, currentRegion header home (done ++ [entry]) other =
            currentRegion header home done other := by
          intro other
          by_cases isEntry : other = entry
          · subst isEntry
            rw [currentRegion_concat_self, currentRegion_of_notMem fresh, wantedRegion, homeRegion,
              already]
          · exact currentRegion_concat_of_ne isEntry
        refine ⟨movingFound.rip, ?_, ?_⟩
        · simp only [same]
          exact movingFound.places
        · simp only [same]
          exact movingFound.contents
      · refine (@injectSucceeding_extended content rely mappings found _ (fun _ => True) trivial
          fun _ _ _ _ => trivial).mono ?_
        intro outcome after injects success
        rcases injects success with ⟨result, executed, status, succeeds, injection⟩
        cases status with
        | interrupted => exact (trapped _ injection.relied).elim
        | trapped => exact movingFound.move planned mem fresh succeeds injection

theorem nodup_countedKernelMaps (header : DumpHeader) : header.countedKernelMaps.Nodup := by
  apply List.Nodup.of_map Prod.snd
  rw [DumpHeader.countedKernelMaps, List.zipIdx_map_snd]
  exact List.nodup_range'

/-- Before anything is moved, every mapping is at home. -/
theorem Planned.begins (planned : Planned header home before) (looked : Looked before after) :
    Moving header home before [] after := by
  refine ⟨congrArg UserRegs.rip looked.regs, ?_, ?_⟩
  · intro entry mem region
    rw [looked.layout, currentRegion_of_notMem List.not_mem_nil]
    constructor
    · rintro ⟨inLayout, named⟩
      exact planned.space.distinct entry mem _ inLayout _ (planned.homes entry mem) named rfl
    · rintro rfl
      exact ⟨planned.homes entry mem, rfl⟩
  · intro entry mem index inside
    rw [looked.memory, currentRegion_of_notMem List.not_mem_nil]
    rfl

theorem restoreKernelMaps_extended (trapped : ∀ event, rely event → Trapped event)
    (sound : MapsApart header) (space : SpaceSound header before.2)
    (site : SiteApart header before.2 before.1.regs.rip) :
    (restoreKernelMaps header).run.Ensures (extendedWorld content rely mappings)
      (fun _ => True) (fun outcome after => outcome.isSome → MapsMoved header before after)
      before := by
  unfold restoreKernelMaps
  split
  · rename_i none_
    intro _ entry mem
    simp [DumpHeader.countedKernelMaps, none_] at mem
  · rw [ensures_attempt_bind]
    refine measureKernelMaps_extended.mono ?_
    intro outcome measured measures
    cases outcome with
    | none => simp
    | some hull =>
        rcases measures hull rfl with ⟨looked, _, each⟩
        choose! home nonempty homes covers using each
        dsimp only
        rw [ensures_require_bind]
        refine ⟨?_, by simp⟩
        intro separate
        have planned : Planned header home before := by
          refine ⟨sound, space, site, homes, ?_⟩
          intro entry mem other otherMem
          exact apart_of_hull separate (covers entry mem) (covers other otherMem)
            (nonempty entry mem) (sound.noWrap other otherMem)
        refine ensures_forM (Moving header home before) (planned.begins looked) ?_ ?_
        · rintro done ⟨wanted, index⟩ rest middle split moving
          have mem : (wanted, index) ∈ header.countedKernelMaps := by
            rw [split]
            exact List.mem_append_right _ List.mem_cons_self
          have fresh : (wanted, index) ∉ done := by
            have distinct := nodup_countedKernelMaps header
            rw [split] at distinct
            exact fun inside =>
              (List.nodup_append.mp distinct).2.2 _ inside _ List.mem_cons_self rfl
          refine (moveKernelMap_extended trapped planned moving mem fresh).mono ?_
          intro outcome after moves
          cases outcome with
          | none => simp
          | some _ => exact moves rfl
        · intro after moving _ entry mem
          have here := moving.places entry mem
            (currentRegion header home header.countedKernelMaps entry)
          have isWanted : currentRegion header home header.countedKernelMaps entry =
              wantedRegion header entry := if_pos mem
          refine ⟨home entry, homes entry mem, ?_, ?_⟩
          · rw [← isWanted]
            exact (here.mpr rfl).1
          · intro index inside
            have content := moving.contents entry mem index inside
            rwa [isWanted] at content

end

/-- Where every single step comes back from its trap and rip is apart from the mappings, a
restore of the kernel mappings that is through has moved each of them with its content. -/
theorem kernelMaps_moved {content : Bytes} {rely : RestoreEvent → Prop} {header : DumpHeader}
    {before after : Child × List Region} (trapped : ∀ event, rely event → Trapped event)
    (sound : MapsSound header) (space : SpaceSound header before.2)
    (site : SiteApart header before.2 before.1.regs.rip)
    (run : (restoreKernelMaps header).run.Exec (extendedWorld content rely mappings) before
      (some ()) after) : MapsMoved header before after :=
  (restoreKernelMaps_extended trapped sound.mapsApart space site).exec run rfl

/-! ## A kernel with the mappings -/

/-- The mappings that a program has from its exec on, where its rip is then, and the texts that its
maps can show later. -/
structure ProgramSpace where
  home : List Region
  entry : UInt64
  texts : List Bytes

/-- A mapping is moved where it is asked for. -/
def Child.remap (before : Child) (call : SystemCall) : Child :=
  { before with
    memory := fun address =>
      if Within call.arg5 call.arg3.toNat address then
        before.memory (call.arg1 + (address - call.arg5))
      else before.memory address
    regs := { before.regs with rax := call.arg5 }
    descriptors := call.descriptors call.arg5 before.descriptors
    calls := before.calls ++ [(call, call.arg5)] }

def moveRegions (call : SystemCall) (layout : List Region) : List Region :=
  layout.map fun region =>
    if region.start = call.arg1 ∧ region.size = call.arg2 then { region with start := call.arg5 }
    else region

/-- The call moves a mapping of its own beginning. -/
def CanMove (call : SystemCall) (layout : List Region) : Prop :=
  call.number = sysMremap ∧ (layout.map Region.start).Nodup ∧ call.arg2 ≠ 0 ∧
    syscallFailed call.arg5 = false

instance (call : SystemCall) (layout : List Region) : Decidable (CanMove call layout) :=
  inferInstanceAs (Decidable (_ ∧ _))

/-- The instruction of a child at its system call. -/
def spaceStep (before : Child × List Region) : Option (Child × List Region) :=
  let call := SystemCall.ofRegs before.1.regs
  if before.1.AtSyscall then
    if CanMove call before.2 then some (before.1.remap call, moveRegions call before.2)
    else if call.number ≠ sysMremap then some (before.1.execute, before.2)
    else none
  else none

/-- A kernel that obliges, and keeps the mappings of the child. -/
def spaceKernel (space : ProgramSpace) (replies : KernelReplies) (before : Child × List Region) :
    (request : RestoreCall) → RestoreReply request × (Child × List Region)
  | .waitStep =>
      match replies.stepped, spaceStep before with
      | .interrupted, _ => (some .interrupted, before)
      | .trapped, some after => (some .trapped, after)
      | .trapped, none => (none, before)
  | .readMaps =>
      match space.texts.find? fun text =>
        (parsedLines text).all fun parsed => parsed.region ∈ before.2 with
      | none => (none, before)
      | some text => (some text, { before.1 with shown := before.1.shown ++ [text] }, before.2)
  | .execv path =>
      if before.2 = space.home ∧ before.1.regs.rip = space.entry then
        let answer := obligingKernel replies before.1 (.execv path)
        (answer.1, answer.2, before.2)
      else (false, before)
  | request =>
      let answer := obligingKernel replies before.1 request
      (answer.1, answer.2, before.2)

/-- Only the mapping itself begins where it does. -/
theorem regionMoved_moveRegions {call : SystemCall} {before : Child} {layout : List Region}
    {name : Bytes} (canMove : CanMove call layout) (whole : call.arg2 = call.arg3)
    (mem : ⟨name, call.arg1, call.arg2⟩ ∈ layout) :
    RegionMoved ⟨name, call.arg1, call.arg2⟩ ⟨name, call.arg5, call.arg2⟩ before.memory
      (before.remap call).memory layout (moveRegions call layout) := by
  rcases canMove with ⟨_, nodup, nonempty, _⟩
  have positive : 0 < call.arg2.toNat := by
    rw [Nat.pos_iff_ne_zero]
    exact fun zero => nonempty (UInt64.toNat_inj.mp zero)
  have begins : ∀ region : Region, region.start = call.arg1 → region.size = call.arg2 →
      region.Holds call.arg1 := by
    intro region start size
    rw [Region.Holds, start, size]
    simpa [Within] using positive
  constructor
  · refine List.mem_map.mpr ⟨_, mem, ?_⟩
    exact if_pos ⟨rfl, rfl⟩
  · intro index inside
    have small : index < call.arg3.toNat := whole ▸ inside
    have within : Within call.arg5 call.arg3.toNat (call.arg5 + UInt64.ofNat index) :=
      within_add _ call.arg3.toNat_lt.le small
    have back : call.arg5 + UInt64.ofNat index - call.arg5 = UInt64.ofNat index := by
      rw [UInt64.add_comm]
      exact UInt64.add_sub_cancel _ _
    dsimp only [Child.remap]
    rw [if_pos within, back]
  · intro other otherMem apart _
    refine List.mem_map.mpr ⟨other, otherMem, ?_⟩
    apply if_neg
    rintro ⟨start, size⟩
    exact apart call.arg1 ⟨begins other start size, begins _ rfl rfl⟩
  · intro other otherMem
    rcases List.mem_map.mp otherMem with ⟨region, regionMem, rfl⟩
    split
    · rename_i isMoved
      obtain rfl : region = ⟨name, call.arg1, call.arg2⟩ :=
        List.inj_on_of_nodup_map nodup regionMem mem isMoved.1
      exact .inl rfl
    · rename_i stays
      refine .inr (.inl ⟨regionMem, ?_⟩)
      rintro rfl
      exact stays ⟨rfl, rfl⟩

/-- The instruction is executed, and the mappings go with it. -/
theorem spaceStep_spec {before after : Child × List Region}
    (steps : spaceStep before = some after) :
    before.1.Steps after.1 ∧
      (SystemCall.ofRegs before.1.regs).Moves after.1.regs.rax before.1.memory after.1.memory
        before.2 after.2 ∧
      ((SystemCall.ofRegs before.1.regs).number ≠ sysMremap → after.2 = before.2) := by
  unfold spaceStep at steps
  dsimp only at steps
  split at steps
  · rename_i atSyscall
    rw [Child.Steps, if_pos atSyscall]
    split at steps
    · rename_i canMove
      cases steps
      refine ⟨?_, ?_, fun isOther => absurd canMove.1 isOther⟩
      · let call := SystemCall.ofRegs before.1.regs
        refine ⟨_, (before.1.remap call).memory, (before.1.remap call).regs, rfl, ?_, rfl⟩
        intro address untouched
        apply if_neg
        intro within
        exact untouched ⟨canMove.2.2.2, .inr ⟨canMove.1, .inr within⟩⟩
      · intro _ _ whole _ name mem
        exact regionMoved_moveRegions canMove whole mem
    · split at steps
      · rename_i isOther
        cases steps
        exact ⟨executes_execute _, fun isMremap => absurd isMremap isOther, fun _ => rfl⟩
      · cases steps
  · cases steps

/-- The kernel keeps to the world. -/
theorem spaceKernel_step {space : ProgramSpace} {replies : KernelReplies}
    {rely : RestoreEvent → Prop}
    (relied : ∀ before request, rely ⟨request, (spaceKernel space replies before request).1⟩)
    (before : Child × List Region) (request : RestoreCall) :
    (extendedWorld replies.content rely mappings).step before request
      (spaceKernel space replies before request).1
      (spaceKernel space replies before request).2 := by
  have obliging := obligingKernel_step replies before.1 request
  have isRelied := relied before request
  cases request with
  | waitStep =>
      unfold spaceKernel at isRelied ⊢
      dsimp only at isRelied ⊢
      split at isRelied
      · exact ⟨⟨rfl, isRelied⟩, rfl⟩
      · rename_i after _ steps
        rcases spaceStep_spec steps with ⟨executes, moves, _⟩
        exact ⟨⟨executes, isRelied⟩, moves⟩
      · exact ⟨⟨.inl rfl, isRelied⟩, trivial⟩
  | readMaps =>
      unfold spaceKernel at isRelied ⊢
      dsimp only at isRelied ⊢
      split at isRelied
      · exact ⟨⟨(rfl : before.1 = before.1), isRelied⟩, (rfl : before.2 = before.2)⟩
      · rename_i text found
        have shows := List.find?_some found
        simp only [List.all_eq_true, decide_eq_true_eq] at shows
        exact ⟨⟨rfl, isRelied⟩, shows, rfl⟩
  | execv path =>
      unfold spaceKernel at isRelied ⊢
      dsimp only at isRelied ⊢
      split at isRelied
      · rename_i isHome
        rw [if_pos isHome]
        exact ⟨⟨obliging, isRelied⟩, (rfl : before.2 = before.2)⟩
      · rename_i notHome
        rw [if_neg notHome]
        exact ⟨⟨(rfl : before.1 = before.1), isRelied⟩, (rfl : before.2 = before.2)⟩
  | openFile path flags =>
      unfold spaceKernel at isRelied ⊢
      dsimp only at isRelied ⊢
      generalize obligingKernel replies before.1 (.openFile path flags) = answer at *
      exact ⟨⟨obliging, isRelied⟩, (rfl : before.2 = before.2)⟩
  | _ => exact ⟨⟨obliging, isRelied⟩, (rfl : before.2 = before.2)⟩

/-! ## Two mappings that are moved -/

set_option maxRecDepth 2000 in
/-- The program of the sample, whose kernel mappings are somewhere else. -/
def sampleSpace : ProgramSpace where
  home := [⟨ascii "[vvar]", 0x20000, 0x1000⟩, ⟨ascii "[vdso]", 0x21000, 0x1000⟩]
  entry := 0x1004
  texts := [
    ascii "20000-21000 r--p 0 0 0 [vvar]\n" ++ ascii "21000-22000 r-xp 0 0 0 [vdso]\n",
    ascii "7000-8000 r--p 0 0 0 [vvar]\n" ++ ascii "21000-22000 r-xp 0 0 0 [vdso]\n",
    ascii "7000-8000 r--p 0 0 0 [vvar]\n" ++ ascii "8000-9000 r-xp 0 0 0 [vdso]\n"]

/-- One ends before the other begins. -/
theorem Region.apart_of_below {first second : Region}
    (below : first.start.toNat + first.size.toNat ≤ second.start.toNat)
    (noWrap : second.start.toNat + second.size.toNat ≤ 2 ^ 64) : first.Apart second := by
  rintro address ⟨inFirst, inSecond⟩
  have fits : first.start.toNat + first.size.toNat ≤ 2 ^ 64 := by omega
  have here := (within_iff_of_noWrap fits).mp inFirst
  have there := (within_iff_of_noWrap noWrap).mp inSecond
  omega

/-- The recorded mappings of the sample, with their indices. -/
def sampleEntries : List (KernelMap × ℕ) := sampleParts.kernelMaps.zipIdx

theorem countedKernelMaps_sample : sampleParts.header.countedKernelMaps = sampleEntries := by
  decide +kernel

theorem mapsSound_sample : MapsSound sampleParts.header := by
  have apart : (⟨ascii "[vvar]", 0x7000, 0x1000⟩ : Region).Apart
      ⟨ascii "[vdso]", 0x8000, 0x1000⟩ :=
    Region.apart_of_below (by decide) (by decide)
  constructor
  · rw [countedKernelMaps_sample]
    decide +kernel
  · decide +kernel
  · have wanted : sampleEntries.map (wantedRegion sampleParts.header) =
        [⟨ascii "[vvar]", 0x7000, 0x1000⟩, ⟨ascii "[vdso]", 0x8000, 0x1000⟩] := by
      decide +kernel
    rw [countedKernelMaps_sample, ← List.pairwise_map, wanted]
    exact List.pairwise_pair.mpr apart
  · decide +kernel

theorem spaceSound_sample : SpaceSound sampleParts.header sampleSpace.home where
  apart := by
    have apart : (⟨ascii "[vvar]", 0x20000, 0x1000⟩ : Region).Apart
        ⟨ascii "[vdso]", 0x21000, 0x1000⟩ :=
      Region.apart_of_below (by decide) (by decide)
    intro first firstMem second secondMem ne
    simp only [sampleSpace, List.mem_cons, List.not_mem_nil, or_false] at firstMem secondMem
    rcases firstMem with rfl | rfl <;> rcases secondMem with rfl | rfl
    · exact absurd rfl ne
    · exact apart
    · exact apart.symm
    · exact absurd rfl ne
  distinct := by
    decide +kernel

/-- The rip of the program is below its kernel mappings, and below where they are wanted. -/
theorem siteApart_sample : SiteApart sampleParts.header sampleSpace.home sampleSpace.entry := by
  have below : ∀ region : Region, sampleSpace.entry.toNat + 8 ≤ region.start.toNat →
      region.start.toNat + region.size.toNat ≤ 2 ^ 64 →
        ∀ address, Within sampleSpace.entry 8 address → ¬region.Holds address := by
    intro region before noWrap address atSite held
    have apart := @Region.apart_of_below ⟨[], sampleSpace.entry, 8⟩ region before noWrap
    exact apart address ⟨atSite, held⟩
  have wanted : ∀ entry ∈ sampleParts.header.countedKernelMaps,
      sampleSpace.entry.toNat + 8 ≤ (wantedRegion sampleParts.header entry).start.toNat ∧
        (wantedRegion sampleParts.header entry).start.toNat +
          (wantedRegion sampleParts.header entry).size.toNat ≤ 2 ^ 64 := by
    decide +kernel
  have homes : ∀ region ∈ sampleSpace.home, sampleSpace.entry.toNat + 8 ≤ region.start.toNat ∧
      region.start.toNat + region.size.toNat ≤ 2 ^ 64 := by
    decide +kernel
  intro entry mem address atSite
  refine ⟨below _ (wanted entry mem).1 (wanted entry mem).2 address atSite, ?_⟩
  intro region regionMem _
  exact below _ (homes region regionMem).1 (homes region regionMem).2 address atSite

theorem trapped_spaceKernel {replies : KernelReplies} (stepped : replies.stepped = .trapped)
    (before : Child × List Region) (request : RestoreCall) :
    Trapped ⟨request, (spaceKernel sampleSpace replies before request).1⟩ := by
  cases request with
  | waitStep =>
      unfold spaceKernel
      dsimp only
      rw [stepped]
      split
      · contradiction
      · trivial
      · trivial
  | _ => trivial

/-- Both mappings of the sample are moved from where the child has them. -/
theorem kernelMaps_moved_sample : ∃ after : Child × List Region, after.1.calls.length = 2 ∧
    MapsMoved sampleParts.header (sampleChild, sampleSpace.home) after := by
  have evaluates : ((restoreKernelMaps sampleParts.header).run.evaluate
      (spaceKernel sampleSpace ⟨[], none, true, .trapped⟩) (sampleChild, sampleSpace.home)).map
        (fun ends => (ends.1, ends.2.1.calls.length)) = some (some (), 2) := by
    decide +kernel
  rcases Option.map_eq_some_iff.mp evaluates with ⟨⟨outcome, after⟩, evaluated, ends⟩
  rw [Prod.mk.injEq] at ends
  rcases ends with ⟨rfl, calls⟩
  have run := @exec_of_evaluate _ _ (extendedWorld [] Trapped mappings) _ _
    (spaceKernel_step (trapped_spaceKernel rfl)) _ _ _ evaluated
  exact ⟨after, calls, kernelMaps_moved (fun _ isTrapped => isTrapped) mapsSound_sample
    spaceSound_sample siteApart_sample run⟩

/-- Where the steps are interrupted, the restore goes on with both mappings still at home. -/
theorem not_kernelMaps_moved :
    ¬∀ (content : Bytes) (header : DumpHeader) (before after : Child × List Region),
      MapsSound header → SpaceSound header before.2 →
        (restoreKernelMaps header).run.Exec (extendedWorld content (fun _ => True) mappings) before
          (some ()) after → MapsMoved header before after := by
  intro always
  have evaluates : ((restoreKernelMaps sampleParts.header).run.evaluate
      (spaceKernel sampleSpace ⟨[], none, true, .interrupted⟩) (sampleChild, sampleSpace.home)).map
        (fun ends => (ends.1, ends.2.2)) = some (some (), sampleSpace.home) := by
    decide +kernel
  rcases Option.map_eq_some_iff.mp evaluates with ⟨⟨outcome, after⟩, evaluated, ends⟩
  rw [Prod.mk.injEq] at ends
  rcases ends with ⟨rfl, stays⟩
  have run := @exec_of_evaluate _ _ (extendedWorld [] (fun _ => True) mappings) _ _
    (@spaceKernel_step sampleSpace ⟨[], none, true, .interrupted⟩ _ fun _ _ => trivial) _ _ _
    evaluated
  have moved := always [] _ _ _ mapsSound_sample spaceSound_sample run
  have entry : sampleEntries.head (by decide) ∈ sampleParts.header.countedKernelMaps := by
    decide +kernel
  rcases moved _ entry with ⟨_, _, inPlace, _⟩
  rw [stays] at inPlace
  exact absurd inPlace (by decide +kernel)

end Ksnap
