import Ksnap.Restore.MovedMaps
import Ksnap.Restore.Protections
import Ksnap.Restore.Release
import Ksnap.Restore.SameMemory

/-!
# The address space of the child

The areas of a snapshot are mapped with `MAP_FIXED`, one after the other and after the kernel
mappings were moved, so each of them replaces what lies on its pages. What the child has in
the end is what the last call on a page has made of it. Where no two areas of the snapshot have
a page in common, and none with a kernel mapping, the last call on the pages of an area is its
own, and the kernel mappings are left where they were moved to.

The world is extended by the mappings of the child once more. This time it says of `mmap` and
`mprotect` that they leave the mappings on other pages.
-/

namespace Ksnap

open Foundation Foundation.Program

/-! ## The kernel's part -/

/-- The address is on one of the pages that the call is given. -/
def SystemCall.OnPages (call : SystemCall) (address : UInt64) : Prop :=
  Within call.arg1 (roundToPages call.arg2.toNat) address

/-- The pages that `mremap` takes a mapping from, and those that it puts it on. -/
def SystemCall.Remaps (call : SystemCall) (address : UInt64) : Prop :=
  Within call.arg1 (roundToPages call.arg2.toNat) address ∨
    Within call.arg5 (roundToPages call.arg3.toNat) address

instance (call : SystemCall) (address : UInt64) : Decidable (call.OnPages address) :=
  inferInstanceAs (Decidable (_ < _))

instance (call : SystemCall) (address : UInt64) : Decidable (call.Remaps address) :=
  inferInstanceAs (Decidable (_ ∨ _))

/-- What a system call other than `mremap` leaves of the mappings. -/
structure SystemCall.Spares (call : SystemCall) (layout next : List Region) : Prop where
  fcntl : call.number = sysFcntl → next = layout
  pages : call.number = sysMmap ∨ call.number = sysMprotect → ∀ region ∈ layout,
    (∀ address, region.Holds address → ¬call.OnPages address) → region ∈ next

/-- The mappings of a child that also gets new ones and new protections. -/
abbrev addressSpace : Extension where
  State := List Region
  stepped := fun child status after layout next =>
    mappings.stepped child status after layout next ∧
      (status = some .trapped → (SystemCall.ofRegs child.regs).Spares layout next)
  shows := mappings.shows

/-! ## What the calls make of a page -/

/-- A page that was mapped by a call, with its protection. -/
structure Page where
  mappedBy : SystemCall
  prot : UInt32
  deriving DecidableEq

/-- What a call makes of the page of an address. -/
def pageAfter (address : UInt64) (page : Option Page) (made : SystemCall × UInt64) : Option Page :=
  if syscallFailed made.2 then page
  else if made.1.number = sysMmap ∧ made.1.OnPages address then
    some ⟨made.1, made.1.arg3.toUInt32⟩
  else if made.1.number = sysMprotect ∧ made.1.OnPages address then
    page.map fun mapped => { mapped with prot := made.1.arg3.toUInt32 }
  else if made.1.number = sysMremap ∧ made.1.Remaps address then none
  else page

/-- The page of an address after these calls, of those that the calls have made. -/
def pageAt (calls : List (SystemCall × UInt64)) (address : UInt64) : Option Page :=
  calls.foldl (pageAfter address) none

/-! ## Areas with pages of their own -/

/-- The area in full pages. -/
def VmaDescriptor.pages (vma : VmaDescriptor) : UInt64 × ℕ :=
  (vma.startAddress, roundToPages vma.size.toNat)

/-- A snapshot whose areas and kernel mappings all have pages of their own. -/
structure PagesApart (snapshot : Snapshot) : Prop where
  kernelMaps : MapsApart snapshot.header
  areas : (snapshot.vmas.map VmaDescriptor.pages).Pairwise Apart
  between : ∀ vma ∈ snapshot.vmas, ∀ entry ∈ snapshot.header.countedKernelMaps, ∀ address,
    (wantedRegion snapshot.header entry).Holds address →
      ¬Within vma.startAddress (roundToPages vma.size.toNat) address

section

variable {vma other : VmaDescriptor} {vmas : List VmaDescriptor} {address : UInt64}
  {page : Option Page} {mapping protecting : List (SystemCall × UInt64)}

theorem VmaDescriptor.within_pages (within : Within vma.startAddress vma.size.toNat address) :
    Within vma.pages.1 vma.pages.2 address :=
  within.mono (le_roundToPages _)

theorem apart_range_of_pages (apart : Apart vma.pages other.pages) :
    Apart vma.range other.range := by
  intro address inFirst inSecond
  exact apart address (VmaDescriptor.within_pages inFirst) (VmaDescriptor.within_pages inSecond)

/-- Two different areas of the list have no page in common. -/
theorem apart_of_areas (areas : (vmas.map VmaDescriptor.pages).Pairwise Apart)
    (mem : vma ∈ vmas) (otherMem : other ∈ vmas) (ne : vma ≠ other) :
    Apart vma.pages other.pages := by
  have symmetric : Std.Symm fun first second : VmaDescriptor =>
      Apart first.pages second.pages :=
    ⟨fun _ _ apart address inFirst inSecond => apart address inSecond inFirst⟩
  rw [List.pairwise_map] at areas
  exact areas.forall mem otherMem ne

/-- The mapping of an area makes its pages anew. -/
theorem pageAfter_mmap {result : UInt64} (succeeds : syscallFailed result = false)
    (within : Within vma.pages.1 vma.pages.2 address) :
    pageAfter address page (mmapCall vma, result) = some ⟨mmapCall vma, protAll⟩ := by
  have onPages : (mmapCall vma).OnPages address := within
  have isMmap : (mmapCall vma).number = sysMmap := rfl
  have prots : (mmapCall vma).arg3.toUInt32 = protAll := UInt32.toUInt32_toUInt64 protAll
  simp [pageAfter, succeeds, isMmap, onPages, prots]

/-- The mapping of an area leaves all other pages. -/
theorem pageAfter_mmap_of_not_within {result : UInt64}
    (outside : ¬Within vma.pages.1 vma.pages.2 address) :
    pageAfter address page (mmapCall vma, result) = page := by
  have notPages : ¬(mmapCall vma).OnPages address := outside
  have isMmap : (mmapCall vma).number = sysMmap := rfl
  have notMremap : sysMmap ≠ sysMremap := by decide
  simp [pageAfter, notPages, isMmap, notMremap]

theorem pageAfter_mprotect {result : UInt64} (succeeds : syscallFailed result = false)
    (within : Within vma.pages.1 vma.pages.2 address) {call : SystemCall} {prot : UInt32} :
    pageAfter address (some ⟨call, prot⟩) (mprotectCall vma, result) =
      some ⟨call, vma.prot⟩ := by
  have onPages : (mprotectCall vma).OnPages address := within
  have isMprotect : (mprotectCall vma).number = sysMprotect := rfl
  have notMmap : sysMprotect ≠ sysMmap := by decide
  have prots : (mprotectCall vma).arg3.toUInt32 = vma.prot := UInt32.toUInt32_toUInt64 vma.prot
  simp [pageAfter, succeeds, isMprotect, notMmap, onPages, prots]

theorem pageAfter_mprotect_of_not_within {result : UInt64}
    (outside : ¬Within vma.pages.1 vma.pages.2 address) :
    pageAfter address page (mprotectCall vma, result) = page := by
  have notPages : ¬(mprotectCall vma).OnPages address := outside
  have isMprotect : (mprotectCall vma).number = sysMprotect := rfl
  have notMremap : sysMprotect ≠ sysMremap := by decide
  simp [pageAfter, notPages, isMprotect, notMremap]

/-- Mappings on other pages leave this one. -/
theorem pageAt_mapping_of_not_within (maps : MapsAreas vmas mapping)
    (outside : ∀ vma ∈ vmas, ¬Within vma.pages.1 vma.pages.2 address) :
    mapping.foldl (pageAfter address) page = page := by
  induction maps generalizing page with
  | nil => rfl
  | @cons vma made vmas mapping here _ ih =>
      rcases made with ⟨call, result⟩
      obtain rfl : call = mmapCall vma := here.1
      rw [List.foldl_cons, pageAfter_mmap_of_not_within (outside vma List.mem_cons_self)]
      exact ih fun other mem => outside other (List.mem_cons_of_mem _ mem)

/-- Once all areas are mapped, the pages of each are the ones of its own mapping. -/
theorem pageAt_mapping (maps : MapsAreas vmas mapping)
    (areas : (vmas.map VmaDescriptor.pages).Pairwise Apart) (mem : vma ∈ vmas)
    (within : Within vma.pages.1 vma.pages.2 address) :
    mapping.foldl (pageAfter address) page = some ⟨mmapCall vma, protAll⟩ := by
  induction maps generalizing page with
  | nil => cases mem
  | @cons first made vmas mapping here later ih =>
      rcases made with ⟨call, result⟩
      obtain rfl : call = mmapCall first := here.1
      rw [List.map_cons, List.pairwise_cons] at areas
      rw [List.foldl_cons]
      rcases List.mem_cons.mp mem with rfl | laterMem
      · rw [pageAfter_mmap here.2 within]
        apply pageAt_mapping_of_not_within later
        exact fun other otherMem => areas.1 _ (List.mem_map_of_mem otherMem) address within
      · exact ih areas.2 laterMem

/-- Once all areas are protected, the pages of each have its protection. -/
theorem pageAt_protecting (only : OnlyProtects vmas protecting)
    (areas : (vmas.map VmaDescriptor.pages).Pairwise Apart) (mem : vma ∈ vmas)
    (within : Within vma.pages.1 vma.pages.2 address) {prot : UInt32}
    (isProtected : prot = vma.prot ∨ Executed (mprotectCall vma) protecting) :
    protecting.foldl (pageAfter address) (some ⟨mmapCall vma, prot⟩) =
      some ⟨mmapCall vma, vma.prot⟩ := by
  induction protecting generalizing prot with
  | nil =>
      rcases isProtected with rfl | ⟨result, _, impossible⟩
      · rfl
      · cases impossible
  | cons made protecting ih =>
      have onlyLater : OnlyProtects vmas protecting :=
        fun other later => only other (List.mem_cons_of_mem _ later)
      rcases only made List.mem_cons_self with ⟨succeeds, other, otherMem, isOther⟩
      rcases made with ⟨call, result⟩
      obtain rfl : call = mprotectCall other := isOther
      rw [List.foldl_cons]
      by_cases same : vma = other
      · subst same
        rw [pageAfter_mprotect succeeds within]
        exact ih onlyLater (.inl rfl)
      · have outside : ¬Within other.pages.1 other.pages.2 address :=
          apart_of_areas areas mem otherMem same address within
        rw [pageAfter_mprotect_of_not_within outside]
        apply ih onlyLater
        refine isProtected.imp_right ?_
        rintro ⟨found, fine, isCall⟩
        rcases List.mem_cons.mp isCall with here | later
        · -- the same call means the same pages
          have calls := congrArg Prod.fst here
          have start : vma.startAddress = other.startAddress := congrArg SystemCall.arg1 calls
          have size : vma.size = other.size := congrArg SystemCall.arg2 calls
          rw [VmaDescriptor.pages, ← start, ← size] at outside
          exact absurd within outside
        · exact ⟨found, fine, later⟩

/-- What a restore has made of the pages of an area. -/
theorem pageAt_rebuilt {content : Bytes} {snapshot : Snapshot} {child : Child}
    (rebuilt : Rebuilt content snapshot child) (pagesApart : PagesApart snapshot)
    (mem : vma ∈ snapshot.vmas) (within : Within vma.pages.1 vma.pages.2 address) :
    pageAt child.calls address = some ⟨mmapCall vma, vma.prot⟩ := by
  rcases rebuilt.calls with ⟨earlier, mapping, protecting, calls, maps, only, protected_⟩
  rw [pageAt, calls, List.foldl_append, List.foldl_append,
    pageAt_mapping maps pagesApart.areas mem within]
  apply pageAt_protecting only pagesApart.areas mem within
  exact (protected_ vma mem).imp_left Eq.symm

end

/-! ## The mappings that stay -/

section

variable {content : Bytes} {rely : RestoreEvent → Prop} {kept : List Region → Prop} {α β : Type}

/-- Only the wait for a single step changes the mappings. -/
theorem addressSpace_step_eq {child after : Child} {layout next : List Region}
    {event : RestoreEvent} (step : addressSpace.Step child layout event after next)
    (notStep : event.request ≠ .waitStep) : next = layout := by
  rcases event with ⟨request, reply⟩
  cases request with
  | waitStep => exact absurd rfl notStep
  | readMaps =>
      cases reply with
      | none => exact step
      | some text => exact step.2
  | _ => exact step

/-- An attempt that succeeds leaves the mappings as they are wanted. -/
def KeepsLayout (content : Bytes) (rely : RestoreEvent → Prop) (kept : List Region → Prop)
    (attempt : Attempt RestoreInterface α) : Prop :=
  ∀ before : Child × List Region, kept before.2 →
    attempt.run.Ensures (extendedWorld content rely addressSpace) (fun _ => True)
      (fun outcome after => outcome.isSome → kept after.2) before

theorem keepsLayout_of_onlyCalls {attempt : Attempt RestoreInterface α}
    (onlyCalls : attempt.run.OnlyCalls (· ≠ RestoreCall.waitStep)) :
    KeepsLayout content rely kept attempt := by
  intro before initially
  have keeps : attempt.run.Ensures (extendedWorld content rely addressSpace)
      (fun after : Child × List Region => kept after.2) (fun _ after => kept after.2) before := by
    refine onlyCalls.ensures ?_ initially
    intro state request reply final notStep holds step
    rw [addressSpace_step_eq step.2 notStep]
    exact holds
  exact (keeps.weaken fun _ _ => trivial).mono fun _ _ holds _ => holds

theorem KeepsLayout.bind {attempt : Attempt RestoreInterface α}
    {rest : α → Attempt RestoreInterface β} (first : KeepsLayout content rely kept attempt)
    (second : ∀ value, KeepsLayout content rely kept (rest value)) :
    KeepsLayout content rely kept (attempt >>= rest) := by
  intro before initially
  refine ensures_bind_success (first before initially) ?_
  intro value middle holds
  exact second value middle holds

theorem keepsLayout_forM {ι : Type} {items : List ι} {body : ι → Attempt RestoreInterface PUnit}
    (each : ∀ item ∈ items, KeepsLayout content rely kept (body item)) :
    KeepsLayout content rely kept (forM items body) := by
  intro before initially
  refine ensures_forM (fun _ (state : Child × List Region) => kept state.2) initially ?_
    (fun _ holds _ => holds)
  intro done item later middle split holds
  have mem : item ∈ items := by
    rw [split]
    exact List.mem_append_right _ List.mem_cons_self
  refine (each item mem middle holds).mono ?_
  intro outcome after keeps
  cases outcome with
  | none => simp
  | some _ => exact keeps rfl

/-- An injected call other than `mremap` keeps what it spares. -/
theorem keepsLayout_inject (trapped : ∀ event, rely event → Trapped event) {call : SystemCall}
    (spares : ∀ layout next, call.Spares layout next → kept layout → kept next) :
    KeepsLayout content rely kept (injectSucceeding call) := by
  intro before initially
  refine (@injectSucceeding_extended content rely addressSpace before call (fun _ => True) trivial
    fun _ _ _ _ => trivial).mono ?_
  intro outcome after injects success
  rcases injects success with ⟨result, executed, status, _, injection⟩
  cases status with
  | interrupted => exact (trapped _ injection.relied).elim
  | trapped =>
      have spared : call.Spares before.2 after.2 := injection.effect.2 rfl
      exact spares _ _ spared initially

/-- The kernel mappings are moved as they are in a world that knows of nothing but them. -/
theorem restoreKernelMaps_addressSpace {header : DumpHeader} {before : Child × List Region}
    (trapped : ∀ event, rely event → Trapped event) (sound : MapsApart header)
    (space : SpaceSound header before.2) (site : SiteApart header before.2 before.1.regs.rip) :
    (restoreKernelMaps header).run.Ensures (extendedWorld content rely addressSpace)
      (fun _ => True) (fun outcome after => outcome.isSome → MapsMoved header before after)
      before := by
  have allowed : ∀ state request reply final,
      (extendedWorld content rely addressSpace).step state request reply final →
        (extendedWorld content rely mappings).step state request reply final := by
    rintro state request reply final ⟨onChild, beside⟩
    refine ⟨onChild, ?_⟩
    cases request with
    | waitStep => exact beside.1
    | readMaps => cases reply <;> exact beside
    | _ => exact beside
  have moves := @restoreKernelMaps_extended content rely header before trapped sound space site
  exact @Ensures.simulate _ _ (extendedWorld content rely addressSpace) before
    (extendedWorld content rely mappings) id allowed _ _ _ moves

/-! ## The mappings on pages of their own -/

/-- The mappings of the child are still among these. -/
def Among (regions layout : List Region) : Prop :=
  ∀ region ∈ regions, region ∈ layout

/-- The mappings have no page in common with an area. -/
def OffPages (regions : List Region) (vma : VmaDescriptor) : Prop :=
  ∀ region ∈ regions, ∀ address, region.Holds address →
    ¬Within vma.startAddress (roundToPages vma.size.toNat) address

variable {regions : List Region} {vma : VmaDescriptor} {vmas : List VmaDescriptor}

theorem restoreFdFlags_keepsLayout (trapped : ∀ event, rely event → Trapped event)
    (layout : List Region) (fds : List FdDescriptor) :
    KeepsLayout content rely (· = layout) (restoreFdFlags fds) := by
  refine keepsLayout_forM fun entry _ => ?_
  unfold restoreFdFlag
  split
  · exact keepsLayout_of_onlyCalls onlyCalls_pure
  · refine keepsLayout_inject trapped ?_
    intro before next spares same
    exact (spares.fcntl rfl).trans same

theorem copyPayload_onlyCalls (vma : VmaDescriptor) (rounds : ℕ) (currRead : UInt64) :
    (copyPayload vma rounds currRead).run.OnlyCalls (· ≠ RestoreCall.waitStep) := by
  induction rounds generalizing currRead with
  | zero => trivial
  | succ rounds ih =>
      unfold copyPayload
      split
      · refine .attempt_bind (onlyCalls_ask (by simp)) fun bytes => ?_
        refine .attempt_bind onlyCalls_give fun bytes => ?_
        refine .attempt_bind (onlyCalls_ask (by simp)) fun complete => ?_
        exact .attempt_bind onlyCalls_require fun _ => ih _
      · trivial

/-- An area that is mapped and filled leaves the mappings on other pages. -/
theorem restoreVma_keepsLayout (trapped : ∀ event, rely event → Trapped event)
    (offPages : OffPages regions vma) :
    KeepsLayout content rely (Among regions) (restoreVma vma) := by
  refine .bind (keepsLayout_inject trapped ?_) fun _ => keepsLayout_of_onlyCalls ?_
  · intro layout next spares among region mem
    exact spares.pages (.inl rfl) region (among region mem) (offPages region mem)
  · refine .attempt_bind (onlyCalls_ask (by simp)) fun sought => ?_
    exact .attempt_bind onlyCalls_require fun _ => copyPayload_onlyCalls _ _ _

theorem protectVma_keepsLayout (trapped : ∀ event, rely event → Trapped event)
    (offPages : OffPages regions vma) :
    KeepsLayout content rely (Among regions) (protectVma vma) := by
  unfold protectVma
  split
  · exact keepsLayout_of_onlyCalls onlyCalls_pure
  · refine keepsLayout_inject trapped ?_
    intro layout next spares among region mem
    exact spares.pages (.inr rfl) region (among region mem) (offPages region mem)

/-- The protections leave the mappings on other pages. -/
theorem restoreProtections_keepsLayout (trapped : ∀ event, rely event → Trapped event)
    (offPages : ∀ vma ∈ vmas, OffPages regions vma) :
    KeepsLayout content rely (Among regions) (restoreProtections vmas) := by
  refine .bind (keepsLayout_of_onlyCalls (onlyCalls_ask (by simp))) fun regsRead => ?_
  refine .bind (keepsLayout_of_onlyCalls onlyCalls_give) fun regs => ?_
  refine .bind (keepsLayout_forM fun entry mem => ?_) fun _ => ?_
  · rcases entry with ⟨vma, index⟩
    have vmaMem : vma ∈ vmas := List.fst_mem_of_mem_zipIdx mem
    dsimp only
    unfold protectUnlessSite
    split
    · exact keepsLayout_of_onlyCalls onlyCalls_pure
    · exact protectVma_keepsLayout trapped (offPages vma vmaMem)
  · unfold protectSite
    split
    · rename_i vma here
      rcases Option.bind_eq_some_iff.mp here with ⟨index, _, there⟩
      exact protectVma_keepsLayout trapped (offPages _ (List.mem_of_getElem? there))
    · exact keepsLayout_of_onlyCalls onlyCalls_pure

end

end Ksnap
