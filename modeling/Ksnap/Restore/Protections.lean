import Ksnap.Restore.Extension

/-!
# Protections

An area that is mapped starts as RWX, and `restore_protections` gives each its own
protection. The opcode of an injection is planted in the area that holds rip, so that area
keeps the last place, whichever it is.

The world is extended by the protection of every address. `mprotect` works on whole pages:
it refuses a start inside a page, and it changes the last page of its range in full. Each
call is noted together with the protections at the moment it is made.
-/

namespace Ksnap

open Foundation Foundation.Program

/-! ## The kernel's part -/

/-- A system call about to be executed, with the rip of the child and the protections then. -/
structure Moment where
  rip : UInt64
  protections : Memory UInt32
  call : SystemCall

/-- The protection of every address, and the moments at which calls were made. -/
structure Protections where
  now : Memory UInt32
  moments : List Moment

/-- A size in full pages. -/
def roundToPages (size : ℕ) : ℕ := (size + 4095) / 4096 * 4096

/-- The call is a change of the protection there. -/
def SystemCall.Protects (call : SystemCall) (address : UInt64) : Prop :=
  call.number = sysMprotect ∧ Within call.arg1 (roundToPages call.arg2.toNat) address

instance (call : SystemCall) (address : UInt64) : Decidable (call.Protects address) :=
  inferInstanceAs (Decidable (_ ∧ _))

/-- The protections after a system call. Nothing is known of calls other than `mprotect`, nor
of one that fails. -/
def SystemCall.Reprotects (call : SystemCall) (result : UInt64) (before after : Memory UInt32) :
    Prop :=
  call.number = sysMprotect → syscallFailed result = false →
    call.arg1.toNat % 4096 = 0 ∧ ∀ address,
      after address = if call.Protects address then call.arg3.toUInt32 else before address

/-- A single step over the system call in the registers. -/
def Protections.Executes (child after : Child) (before next : Protections) : Prop :=
  next.moments = before.moments ++ [⟨child.regs.rip, before.now, SystemCall.ofRegs child.regs⟩] ∧
    (SystemCall.ofRegs child.regs).Reprotects after.regs.rax before.now next.now

/-- The protections of a child, as an extension of its world. -/
abbrev protections : Extension where
  State := Protections
  stepped := fun child status after before next =>
    match status with
    | some .trapped => Protections.Executes child after before next
    | some .interrupted => next = before
    | none => next = before ∨ Protections.Executes child after before next
  shows := fun _ _ => True

/-! ## Areas -/

/-- The address is in the area. -/
def VmaDescriptor.Holds (vma : VmaDescriptor) (address : UInt64) : Prop :=
  vma.startAddress.toNat ≤ address.toNat ∧
    address.toNat < vma.startAddress.toNat + vma.size.toNat

/-- The area is mapped in full, from a page of its own on, and does not wrap around. -/
structure AreaMapped (vma : VmaDescriptor) (now : Memory UInt32) : Prop where
  noWrap : vma.startAddress.toNat + vma.size.toNat < 2 ^ 64
  aligned : vma.startAddress.toNat % 4096 = 0
  rwx : ∀ address, vma.Holds address → now address = protAll

/-- Pairwise disjoint areas, all mapped RWX. -/
structure AreasMapped (vmas : List VmaDescriptor) (now : Memory UInt32) : Prop where
  disjoint : vmas.Pairwise fun first second => ∀ address, ¬(first.Holds address ∧
    second.Holds address)
  mapped : ∀ vma ∈ vmas, AreaMapped vma now

/-- The area that holds rip was executable whenever a call was made. -/
def SiteExecutable (vmas : List VmaDescriptor) (state : Protections) : Prop :=
  ∀ moment ∈ state.moments, ∀ vma ∈ vmas, vma.Holds moment.rip → ∀ address, vma.Holds address →
    moment.protections address &&& protExec ≠ 0

/-- How often the protection of an address was asked to change. -/
def Protections.changes (state : Protections) (address : UInt64) : ℕ :=
  state.moments.countP fun moment => moment.call.Protects address

/-- The area has its own protection, from one change at most. -/
structure AreaSettled (vma : VmaDescriptor) (state : Protections) : Prop where
  protection : ∀ address, vma.Holds address → state.now address = vma.prot
  once : ∀ address, vma.Holds address → state.changes address ≤ 1

/-- The area is as it was mapped. -/
structure AreaPending (vma : VmaDescriptor) (state : Protections) : Prop where
  rwx : ∀ address, vma.Holds address → state.now address = protAll
  untouched : ∀ address, vma.Holds address → state.changes address = 0

/-- What the protections are restored to: the site stays executable all along, and at the end
every area is settled. -/
def ProtectionsRestored (content : Bytes) (rely : RestoreEvent → Prop)
    (vmas : List VmaDescriptor) (child : Child) (now : Memory UInt32) : Prop :=
  (∀ met, (restoreProtections vmas).run.Reaches (extendedWorld content rely protections)
      (child, ⟨now, []⟩) met → SiteExecutable vmas met.2) ∧
    ∀ after, (restoreProtections vmas).run.Exec (extendedWorld content rely protections)
      (child, ⟨now, []⟩) (some ()) after → ∀ vma ∈ vmas, AreaSettled vma after.2

theorem AreaPending.settled {vma : VmaDescriptor} {state : Protections}
    (pending : AreaPending vma state) (rwx : vma.prot = protAll) : AreaSettled vma state where
  protection := fun address held => rwx ▸ pending.rwx address held
  once := fun address held => (pending.untouched address held).le.trans (Nat.zero_le 1)

/-! ## Whole pages -/

theorem le_roundToPages (size : ℕ) : size ≤ roundToPages size := by
  simp only [roundToPages]
  omega

section

variable {vma other : VmaDescriptor} {now : Memory UInt32} {address : UInt64}

/-- The call for an area changes the pages that the area reaches into. -/
theorem mprotectCall_protects (mapped : AreaMapped vma now) :
    (mprotectCall vma).Protects address ↔
      vma.startAddress.toNat ≤ address.toNat ∧
        address.toNat < vma.startAddress.toNat + roundToPages vma.size.toNat := by
  have noWrap := mapped.noWrap
  have aligned := mapped.aligned
  have fits : vma.startAddress.toNat + roundToPages vma.size.toNat ≤ 2 ^ 64 := by
    simp only [roundToPages]
    omega
  rw [← within_iff_of_noWrap fits]
  exact and_iff_right rfl

theorem mprotectCall_protects_own (mapped : AreaMapped vma now) (held : vma.Holds address) :
    (mprotectCall vma).Protects address := by
  have whole := le_roundToPages vma.size.toNat
  rw [mprotectCall_protects mapped]
  exact ⟨held.1, by have := held.2; omega⟩

/-- No other area begins in the last page, so the call changes none. -/
theorem not_mprotectCall_protects (mapped : AreaMapped vma now) (otherMapped : AreaMapped other now)
    (disjoint : ∀ address, ¬(vma.Holds address ∧ other.Holds address))
    (held : other.Holds address) : ¬(mprotectCall vma).Protects address := by
  rw [mprotectCall_protects mapped]
  rintro ⟨from_, below⟩
  have aligned := mapped.aligned
  have otherAligned := otherMapped.aligned
  have noWrap := mapped.noWrap
  rcases held with ⟨otherFrom, otherBelow⟩
  by_cases inside : address.toNat < vma.startAddress.toNat + vma.size.toNat
  · exact disjoint address ⟨⟨from_, inside⟩, otherFrom, otherBelow⟩
  · -- the last address of the area is in the other one as well
    simp only [roundToPages] at below
    have nonempty : 0 < vma.size.toNat := by omega
    have last : (UInt64.ofNat (vma.startAddress.toNat + vma.size.toNat - 1)).toNat =
        vma.startAddress.toNat + vma.size.toNat - 1 := by
      rw [UInt64.toNat_ofNat']
      exact Nat.mod_eq_of_lt (by omega)
    apply disjoint (UInt64.ofNat (vma.startAddress.toNat + vma.size.toNat - 1))
    simp only [VmaDescriptor.Holds, last]
    omega

end

/-! ## One area -/

section

variable {content : Bytes} {rely : RestoreEvent → Prop} {vmas : List VmaDescriptor}
  {vma : VmaDescriptor} {child : Child} {state : Protections}

/-- A call that is made while the area of rip is RWX keeps the record in order. -/
theorem SiteExecutable.executes {after : Child} {next : Protections}
    (executable : SiteExecutable vmas state)
    (ready : ∀ vma ∈ vmas, vma.Holds child.regs.rip → ∀ address, vma.Holds address →
      state.now address = protAll)
    (executes : Protections.Executes child after state next) : SiteExecutable vmas next := by
  intro moment mem vma vmaMem holdsRip address held
  rw [executes.1] at mem
  rcases List.mem_append.mp mem with earlier | last
  · exact executable moment earlier vma vmaMem holdsRip address held
  · cases List.mem_singleton.mp last
    change state.now address &&& protExec ≠ 0
    rw [ready vma vmaMem holdsRip address held]
    decide

theorem SiteExecutable.stepped {status : Option StepStatus} {after : Child} {next : Protections}
    (executable : SiteExecutable vmas state)
    (ready : ∀ vma ∈ vmas, vma.Holds child.regs.rip → ∀ address, vma.Holds address →
      state.now address = protAll)
    (stepped : protections.stepped child status after state next) : SiteExecutable vmas next := by
  cases status with
  | none =>
      rcases stepped with rfl | executes
      · exact executable
      · exact executable.executes ready executes
  | some status =>
      cases status with
      | trapped => exact executable.executes ready stepped
      | interrupted =>
          obtain rfl : next = state := stepped
          exact executable

/-- One area was given its protection, and the others are as they were. -/
structure ProtectsOne (vma : VmaDescriptor) (now : Memory UInt32)
    (before after : Child × Protections) : Prop where
  rip : after.1.regs.rip = before.1.regs.rip
  settled : AreaSettled vma after.2
  others : ∀ other, AreaMapped other now →
    (∀ address, ¬(vma.Holds address ∧ other.Holds address)) → ∀ address, other.Holds address →
      after.2.now address = before.2.now address ∧
        after.2.changes address = before.2.changes address

theorem protectVma_extended {now : Memory UInt32} (trapped : ∀ event, rely event → Trapped event)
    (executable : SiteExecutable vmas state)
    (ready : ∀ vma ∈ vmas, vma.Holds child.regs.rip → ∀ address, vma.Holds address →
      state.now address = protAll)
    (mapped : AreaMapped vma now) (pending : AreaPending vma state) :
    (protectVma vma).run.Ensures (extendedWorld content rely protections)
      (fun met => SiteExecutable vmas met.2)
      (fun outcome after => outcome.isSome → ProtectsOne vma now (child, state) after)
      (child, state) := by
  unfold protectVma
  split
  · rename_i rwx
    intro _
    exact ⟨rfl, pending.settled rwx, fun _ _ _ _ _ => ⟨rfl, rfl⟩⟩
  · refine (@injectSucceeding_extended content rely protections (child, state) (mprotectCall vma)
      (SiteExecutable vmas) executable ?_).mono ?_
    · intro status executed next stepped
      exact @SiteExecutable.stepped vmas (child.plant (mprotectCall vma)) state status executed next
        executable ready stepped
    · intro outcome after injects success
      rcases injects success with ⟨result, executed, status, succeeds, injection⟩
      cases status with
      | interrupted => exact (trapped _ injection.relied).elim
      | trapped =>
          rcases injection.effect with ⟨moments, reprotects⟩
          rw [injection.result] at reprotects
          rcases reprotects rfl succeeds with ⟨_, changed⟩
          have counts : ∀ address, after.2.changes address = state.changes address +
              if (mprotectCall vma).Protects address then 1 else 0 := by
            intro address
            rw [Protections.changes, moments, List.countP_append, List.countP_singleton]
            simp only [decide_eq_true_eq]
            rfl
          refine ⟨congrArg UserRegs.rip injection.regs, ⟨?_, ?_⟩, ?_⟩
          · intro address held
            have own := mprotectCall_protects_own mapped held
            rw [changed]
            exact (if_pos own).trans (UInt32.toUInt32_toUInt64 vma.prot)
          · intro address held
            rw [counts, pending.untouched address held]
            split <;> omega
          · intro other otherMapped disjoint address held
            have foreign := not_mprotectCall_protects mapped otherMapped disjoint held
            rw [counts, changed]
            exact ⟨if_neg foreign, by rw [if_neg foreign, Nat.add_zero]⟩

/-! ## The loop -/

/-- The areas of the entries that are done are settled, but for the site. All others are as
they were mapped. -/
structure Progress (vmas : List VmaDescriptor) (site : Option ℕ) (rip : UInt64)
    (done : List (VmaDescriptor × ℕ)) (after : Child × Protections) : Prop where
  rip : after.1.regs.rip = rip
  entries : done ⊆ vmas.zipIdx
  executable : SiteExecutable vmas after.2
  settled : ∀ entry ∈ done, some entry.2 ≠ site → AreaSettled entry.1 after.2
  pending : ∀ entry ∈ vmas.zipIdx, entry ∉ done ∨ some entry.2 = site → AreaPending entry.1 after.2

/-- Two entries of the table are disjoint areas. -/
theorem disjoint_of_entries
    (disjoint : vmas.Pairwise fun first second => ∀ address, ¬(first.Holds address ∧
      second.Holds address))
    {first second : VmaDescriptor × ℕ} (firstMem : first ∈ vmas.zipIdx)
    (secondMem : second ∈ vmas.zipIdx) (ne : first.2 ≠ second.2) (address : UInt64) :
    ¬(first.1.Holds address ∧ second.1.Holds address) := by
  rcases List.getElem?_eq_some_iff.mp (List.mem_zipIdx_iff_getElem?.mp firstMem) with
    ⟨firstInside, firstIs⟩
  rcases List.getElem?_eq_some_iff.mp (List.mem_zipIdx_iff_getElem?.mp secondMem) with
    ⟨secondInside, secondIs⟩
  rw [← firstIs, ← secondIs]
  rw [List.pairwise_iff_getElem] at disjoint
  rcases Nat.lt_or_gt_of_ne ne with before | behind
  · exact disjoint _ _ firstInside secondInside before address
  · intro both
    exact disjoint _ _ secondInside firstInside behind address both.symm

/-- The site is the only entry that holds rip. -/
theorem site_of_holds {now : Memory UInt32} (mapped : AreasMapped vmas now) {rip : UInt64}
    {entry : VmaDescriptor × ℕ} (mem : entry ∈ vmas.zipIdx) (holds : entry.1.Holds rip) :
    vmas.findIdx? (holdsSite rip) = some entry.2 := by
  have isSite : ∀ vma ∈ vmas, holdsSite rip vma = true ↔ vma.Holds rip := by
    intro vma vmaMem
    have noWrap := (mapped.mapped vma vmaMem).noWrap
    rw [holdsSite, Bool.and_eq_true, decide_eq_true_eq, decide_eq_true_eq,
      UInt64.le_iff_toNat_le, UInt64.lt_iff_toNat_lt, UInt64.toNat_add, Nat.mod_eq_of_lt noWrap]
    rfl
  rcases List.getElem?_eq_some_iff.mp (List.mem_zipIdx_iff_getElem?.mp mem) with ⟨inside, isEntry⟩
  rw [List.findIdx?_eq_some_iff_getElem]
  refine ⟨inside, ?_, ?_⟩
  · rw [isSite _ (List.getElem_mem inside), isEntry]
    exact holds
  · intro earlier before found
    rw [isSite _ (List.getElem_mem _)] at found
    have earlierMem : (vmas[earlier], earlier) ∈ vmas.zipIdx :=
      List.mem_zipIdx_iff_getElem?.mpr (List.getElem?_eq_getElem _)
    exact disjoint_of_entries mapped.disjoint earlierMem mem before.ne rip ⟨found, holds⟩

theorem AreaSettled.congr {next : Protections} (settled : AreaSettled vma state)
    (same : ∀ address, vma.Holds address →
      next.now address = state.now address ∧ next.changes address = state.changes address) :
    AreaSettled vma next where
  protection := fun address held => (same address held).1.trans (settled.protection address held)
  once := fun address held => (same address held).2.le.trans (settled.once address held)

theorem AreaPending.congr {next : Protections} (pending : AreaPending vma state)
    (same : ∀ address, vma.Holds address →
      next.now address = state.now address ∧ next.changes address = state.changes address) :
    AreaPending vma next where
  rwx := fun address held => (same address held).1.trans (pending.rwx address held)
  untouched := fun address held => (same address held).2.trans (pending.untouched address held)

variable {now : Memory UInt32} {site : Option ℕ} {rip : UInt64}
  {done : List (VmaDescriptor × ℕ)} {before after : Child × Protections}
  {entry other : VmaDescriptor × ℕ}

/-- What is done to one entry leaves the others. -/
theorem ProtectsOne.same (protects : ProtectsOne entry.1 now before after)
    (mapped : AreasMapped vmas now) (mem : entry ∈ vmas.zipIdx) (otherMem : other ∈ vmas.zipIdx)
    (ne : other.2 ≠ entry.2) (address : UInt64) (held : other.1.Holds address) :
    after.2.now address = before.2.now address ∧
      after.2.changes address = before.2.changes address :=
  protects.others other.1 (mapped.mapped other.1 (List.fst_mem_of_mem_zipIdx otherMem))
    (disjoint_of_entries mapped.disjoint mem otherMem ne.symm) address held

theorem index_ne_of_entries (mem : entry ∈ vmas.zipIdx) (otherMem : other ∈ vmas.zipIdx)
    (ne : other ≠ entry) : other.2 ≠ entry.2 := by
  intro same
  apply ne
  have here := List.mem_zipIdx_iff_getElem?.mp mem
  have there := List.mem_zipIdx_iff_getElem?.mp otherMem
  rw [same, here] at there
  exact Prod.ext (Option.some.inj there).symm same

/-- The area of rip is pending for as long as the loop runs. -/
theorem Progress.ready (progress : Progress vmas (vmas.findIdx? (holdsSite rip)) rip done before)
    (mapped : AreasMapped vmas now) (vma : VmaDescriptor) (mem : vma ∈ vmas)
    (holds : vma.Holds before.1.regs.rip) (address : UInt64) (held : vma.Holds address) :
    before.2.now address = protAll := by
  rcases List.mem_iff_getElem?.mp mem with ⟨index, here⟩
  have entryMem : (vma, index) ∈ vmas.zipIdx := List.mem_zipIdx_iff_getElem?.mpr here
  rw [progress.rip] at holds
  have isSite := site_of_holds mapped entryMem holds
  exact (progress.pending _ entryMem (.inr isSite.symm)).rwx address held

theorem protectUnlessSite_progress (trapped : ∀ event, rely event → Trapped event)
    (mapped : AreasMapped vmas now)
    (progress : Progress vmas (vmas.findIdx? (holdsSite rip)) rip done before)
    (mem : entry ∈ vmas.zipIdx) (fresh : entry ∉ done) :
    (protectUnlessSite (vmas.findIdx? (holdsSite rip)) entry.1 entry.2).run.Ensures
      (extendedWorld content rely protections) (fun met => SiteExecutable vmas met.2)
      (fun outcome after => outcome.isSome →
        Progress vmas (vmas.findIdx? (holdsSite rip)) rip (done ++ [entry]) after) before := by
  have entries : done ++ [entry] ⊆ vmas.zipIdx := by
    refine List.append_subset.mpr ⟨progress.entries, ?_⟩
    intro other last
    cases List.mem_singleton.mp last
    exact mem
  unfold protectUnlessSite
  split
  · rename_i isSite
    intro _
    refine ⟨progress.rip, entries, progress.executable, ?_, ?_⟩
    · intro other otherMem notSite
      rcases List.mem_append.mp otherMem with earlier | last
      · exact progress.settled other earlier notSite
      · cases List.mem_singleton.mp last
        exact absurd isSite notSite
    · intro other otherMem stays
      refine progress.pending other otherMem (stays.imp_left ?_)
      exact fun outside inside => outside (List.mem_append_left _ inside)
  · rename_i notSite
    have areaMapped := mapped.mapped entry.1 (List.fst_mem_of_mem_zipIdx mem)
    have protects := @protectVma_extended content rely vmas entry.1 before.1 before.2 now trapped
      progress.executable (progress.ready mapped) areaMapped
      (progress.pending entry mem (.inl fresh))
    refine (protects.with_always progress.executable).mono ?_
    rintro outcome after ⟨executable, protectsOne⟩ success
    replace protectsOne := protectsOne success
    refine ⟨protectsOne.rip.trans progress.rip, entries, executable, ?_, ?_⟩
    · intro other otherMem otherNotSite
      rcases List.mem_append.mp otherMem with earlier | last
      · have ne : other ≠ entry := fun same => fresh (same ▸ earlier)
        have inTable := progress.entries earlier
        exact (progress.settled other earlier otherNotSite).congr
          (protectsOne.same mapped mem inTable (index_ne_of_entries mem inTable ne))
      · cases List.mem_singleton.mp last
        exact protectsOne.settled
    · intro other otherMem stays
      have ne : other ≠ entry := by
        rintro rfl
        rcases stays with outside | isSite
        · exact outside (List.mem_append_right _ List.mem_cons_self)
        · exact notSite isSite
      refine (progress.pending other otherMem (stays.imp_left ?_)).congr
        (protectsOne.same mapped mem otherMem (index_ne_of_entries mem otherMem ne))
      exact fun outside inside => outside (List.mem_append_left _ inside)

/-- The site comes last, and then every area is settled. -/
theorem protectSite_settles (trapped : ∀ event, rely event → Trapped event)
    (mapped : AreasMapped vmas now)
    (progress : Progress vmas (vmas.findIdx? (holdsSite rip)) rip vmas.zipIdx before) :
    (protectSite (vmas.findIdx? (holdsSite rip)) vmas).run.Ensures
      (extendedWorld content rely protections) (fun met => SiteExecutable vmas met.2)
      (fun outcome after => outcome.isSome → ∀ vma ∈ vmas, AreaSettled vma after.2) before := by
  have entryOf : ∀ vma ∈ vmas, ∃ index, (vma, index) ∈ vmas.zipIdx := by
    intro vma mem
    rcases List.mem_iff_getElem?.mp mem with ⟨index, here⟩
    exact ⟨index, List.mem_zipIdx_iff_getElem?.mpr here⟩
  unfold protectSite
  split
  · rename_i area here
    rcases Option.bind_eq_some_iff.mp here with ⟨index, isSite, there⟩
    have siteMem : (area, index) ∈ vmas.zipIdx := List.mem_zipIdx_iff_getElem?.mpr there
    have areaMapped := mapped.mapped area (List.fst_mem_of_mem_zipIdx siteMem)
    refine (@protectVma_extended content rely vmas area before.1 before.2 now trapped
      progress.executable (progress.ready mapped) areaMapped
      (progress.pending _ siteMem (.inr isSite.symm))).mono ?_
    intro outcome after protects success vma mem
    have protectsOne := protects success
    rcases entryOf vma mem with ⟨other, otherMem⟩
    by_cases same : other = index
    · subst same
      have isArea := (List.mem_zipIdx_iff_getElem?.mp otherMem).symm.trans there
      obtain rfl : vma = area := Option.some.inj isArea
      exact protectsOne.settled
    · have notSite : some other ≠ vmas.findIdx? (holdsSite rip) := by
        rw [isSite]
        exact fun isIndex => same (Option.some.inj isIndex)
      exact (progress.settled _ otherMem notSite).congr
        (@ProtectsOne.same vmas now before after (area, index) (vma, other) protectsOne mapped
          siteMem otherMem same)
  · rename_i nowhere
    intro _ vma mem
    rcases entryOf vma mem with ⟨other, otherMem⟩
    refine progress.settled _ otherMem ?_
    intro isSite
    rw [← isSite, Option.bind_some, List.mem_zipIdx_iff_getElem?.mp otherMem] at nowhere
    cases nowhere

end

/-- Where every single step comes back from its trap, the area that holds rip is executable at
every change, and in the end each area has its own protection from one change at most. -/
theorem protections_restored {content : Bytes} {rely : RestoreEvent → Prop}
    {vmas : List VmaDescriptor} {now : Memory UInt32}
    (trapped : ∀ event, rely event → Trapped event) (mapped : AreasMapped vmas now)
    (child : Child) : ProtectionsRestored content rely vmas child now := by
  have initially : SiteExecutable vmas ⟨now, []⟩ := by
    intro moment mem
    cases mem
  have restores : (restoreProtections vmas).run.Ensures (extendedWorld content rely protections)
      (fun met => SiteExecutable vmas met.2)
      (fun outcome after => outcome.isSome → ∀ vma ∈ vmas, AreaSettled vma after.2)
      (child, ⟨now, []⟩) := by
    unfold restoreProtections
    refine ensures_given_bind (by simp) ?_ ?_
    · intro regsRead read step
      cases regsRead <;> exact step.2 ▸ initially
    rintro regsRead ⟨read, state⟩ step regs given
    cases given
    rcases step with ⟨⟨⟨isRegs, unchanged⟩, _⟩, same⟩
    obtain rfl : state = ⟨now, []⟩ := same
    obtain rfl : read = child := unchanged
    obtain rfl : regs = read.regs := isRegs
    dsimp only
    have start : Progress vmas (vmas.findIdx? (holdsSite read.regs.rip)) read.regs.rip []
        (read, ⟨now, []⟩) := by
      refine ⟨rfl, List.nil_subset _, initially, by simp, ?_⟩
      intro entry mem _
      have area := mapped.mapped entry.1 (List.fst_mem_of_mem_zipIdx mem)
      exact ⟨area.rwx, fun _ _ => rfl⟩
    have distinct : vmas.zipIdx.Nodup := by
      apply List.Nodup.of_map Prod.snd
      rw [List.zipIdx_map_snd]
      exact List.nodup_range'
    have loop : (forM vmas.zipIdx fun entry =>
        protectUnlessSite (vmas.findIdx? (holdsSite read.regs.rip)) entry.1 entry.2 :
          Attempt RestoreInterface Unit).run.Ensures (extendedWorld content rely protections)
        (fun met => SiteExecutable vmas met.2)
        (fun outcome after => outcome.isSome →
          Progress vmas (vmas.findIdx? (holdsSite read.regs.rip)) read.regs.rip vmas.zipIdx after)
        (read, ⟨now, []⟩) := by
      refine ensures_forM
        (Progress vmas (vmas.findIdx? (holdsSite read.regs.rip)) read.regs.rip)
        start ?_ (fun final progress _ => progress)
      rintro before ⟨vma, index⟩ after middle split progress
      have mem : (vma, index) ∈ vmas.zipIdx := by
        rw [split]
        exact List.mem_append_right _ List.mem_cons_self
      have fresh : (vma, index) ∉ before := by
        rw [split] at distinct
        exact fun inside => (List.nodup_append.mp distinct).2.2 _ inside _ List.mem_cons_self rfl
      refine (protectUnlessSite_progress trapped mapped progress mem fresh).mono ?_
      intro outcome final continues
      cases outcome with
      | none => simp
      | some _ => exact continues rfl
    refine ensures_bind_success loop ?_
    intro _ middle progress
    exact protectSite_settles trapped mapped progress
  exact ⟨fun met reached => restores.reaches initially reached,
    fun after run => restores.exec run rfl⟩

/-! ## Two areas -/

/-- A page of code, and half a page of data behind a gap. -/
def codeArea : VmaDescriptor :=
  ⟨0x1000, 0x1000, 0, 0, protRead ||| protExec, mapPrivate, 0, 0⟩

def dataArea : VmaDescriptor := ⟨0x3000, 0x800, 0, 0x1000, protRead, mapPrivate, 0, 0⟩

/-- The child has its rip in the code. -/
def childInCode : Child :=
  { heldEngine with regs := { heldEngine.regs with rip := 0x1010 } }

theorem areasMapped_two : AreasMapped [codeArea, dataArea] fun _ => protAll where
  disjoint := by
    refine List.pairwise_pair.mpr ?_
    rintro address ⟨⟨_, below⟩, from_, _⟩
    have codeEnd : codeArea.startAddress.toNat + codeArea.size.toNat = 0x2000 := rfl
    have dataStart : dataArea.startAddress.toNat = 0x3000 := rfl
    omega
  mapped := by
    intro vma mem
    simp only [List.mem_cons, List.not_mem_nil, or_false] at mem
    rcases mem with rfl | rfl
    · exact ⟨by decide, by decide, fun _ _ => rfl⟩
    · exact ⟨by decide, by decide, fun _ _ => rfl⟩

theorem protections_restored_two :
    ProtectionsRestored [] Trapped [codeArea, dataArea] childInCode fun _ => protAll :=
  protections_restored (fun _ isTrapped => isTrapped) areasMapped_two childInCode

/-- Where the steps are interrupted, the restore is through with every area still RWX. -/
theorem not_protections_restored :
    ¬∀ (content : Bytes) (vmas : List VmaDescriptor) (child : Child) (now : Memory UInt32),
      AreasMapped vmas now → ProtectionsRestored content (fun _ => True) vmas child now := by
  intro always
  have evaluates : ∃ after : Child × Protections,
      (restoreProtections [codeArea, dataArea]).run.evaluate
        (@extendedKernel protections (fun _ => ⟨[], none, true, .interrupted⟩)
          fun _ _ state => state)
        (childInCode, ⟨fun _ => protAll, []⟩) = some (some (), after) ∧
          after.2.now 0x3000 = protAll :=
    ⟨_, rfl, rfl⟩
  rcases evaluates with ⟨after, evaluated, unchanged⟩
  have run := @exec_of_extendedKernel _ [] (fun _ => True) protections
    (fun _ => ⟨[], none, true, .interrupted⟩) _ (fun _ => rfl) (fun _ _ _ => trivial)
    (fun _ _ => rfl) (fun _ _ _ => trivial) _ _ _ _ evaluated
  have settled := (always [] _ childInCode _ areasMapped_two).2 after run dataArea (by simp)
  have reads := settled.protection 0x3000 ⟨by decide, by decide⟩
  rw [unchanged] at reads
  exact absurd reads (by decide)

end Ksnap
