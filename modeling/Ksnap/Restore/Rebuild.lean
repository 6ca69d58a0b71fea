import Ksnap.Restore.Payload

/-!
# The rebuilt address space

What the steps on the memory of the child leave when all of them succeed. The kernel
mappings have the sizes of the snapshot and are in place, every mapping was made and
holds its payload wherever no later one covers it, and every protection was set after
the last mapping was made.
-/

namespace Ksnap

open Foundation Foundation.Program

/-! ## What the child has -/

/-- The maps of the child showed a kernel mapping, with this start and size. -/
def Shown (header : DumpHeader) (index : ℕ) (shown : List Bytes) (start size : UInt64) : Prop :=
  ∃ text ∈ shown, findNamedMap (some text) (nameMemory header index) = some (some (start, size))

/-- A kernel mapping has the size of the snapshot. -/
def SizeMatches (header : DumpHeader) (entry : KernelMap × ℕ) (child : Child) : Prop :=
  ∃ start, Shown header entry.2 child.shown start entry.1.size

/-- A kernel mapping is where the snapshot has it, or was moved there. -/
def InPlace (header : DumpHeader) (entry : KernelMap × ℕ) (child : Child) : Prop :=
  ∃ start size, Shown header entry.2 child.shown start size ∧
    (start = entry.1.startAddress ∨ Executed (mremapCall start size entry.1) child.calls)

/-- The mappings hold their payloads, wherever no later one covers them. -/
def HoldsPayloads (content : Bytes) (memory : Memory UInt8) : List VmaDescriptor → Prop
  | [] => True
  | vma :: later =>
      (∀ index, index < vma.size.toNat →
        (∀ other ∈ later, ¬Within other.startAddress other.size.toNat
          (vma.startAddress + UInt64.ofNat index)) →
        some (memory (vma.startAddress + UInt64.ofNat index)) =
          content[vma.dataOffset.toNat + index]?) ∧
      HoldsPayloads content memory later

/-- The area has its protection, which every area has that starts as RWX. -/
def Protected (vma : VmaDescriptor) (calls : List (SystemCall × UInt64)) : Prop :=
  vma.prot = protAll ∨ Executed (mprotectCall vma) calls

/-- The calls that made the mappings, one for each area in the order of the table. -/
def MapsAreas (vmas : List VmaDescriptor) (mapping : List (SystemCall × UInt64)) : Prop :=
  List.Forall₂ (fun vma made => made.1 = mmapCall vma ∧ syscallFailed made.2 = false) vmas mapping

/-- Every call set the protection of an area. -/
def OnlyProtects (vmas : List VmaDescriptor) (protecting : List (SystemCall × UInt64)) : Prop :=
  ∀ made ∈ protecting, syscallFailed made.2 = false ∧ ∃ vma ∈ vmas, made.1 = mprotectCall vma

/-- The whole address space. The areas were mapped one after the other, and then protected. -/
structure Rebuilt (content : Bytes) (snapshot : Snapshot) (child : Child) : Prop where
  sizes : ∀ entry ∈ snapshot.header.countedKernelMaps, SizeMatches snapshot.header entry child
  inPlace : ∀ entry ∈ snapshot.header.countedKernelMaps, InPlace snapshot.header entry child
  payloads : HoldsPayloads content child.memory snapshot.vmas
  calls : ∃ earlier mapping protecting, child.calls = earlier ++ mapping ++ protecting ∧
    MapsAreas snapshot.vmas mapping ∧ OnlyProtects snapshot.vmas protecting ∧
    ∀ vma ∈ snapshot.vmas, Protected vma protecting

theorem MapsAreas.executed {vmas : List VmaDescriptor} {mapping : List (SystemCall × UInt64)}
    (maps : MapsAreas vmas mapping) {vma : VmaDescriptor} (mem : vma ∈ vmas) :
    Executed (mmapCall vma) mapping := by
  induction maps with
  | nil => cases mem
  | @cons first made vmas mapping here _ ih =>
      rcases List.mem_cons.mp mem with rfl | later
      · rcases here with ⟨isMmap, succeeds⟩
        exact ⟨made.2, succeeds, isMmap ▸ List.mem_cons_self⟩
      · exact (ih later).cons made

theorem OnlyProtects.append {vmas : List VmaDescriptor} {calls more : List (SystemCall × UInt64)}
    (only : OnlyProtects vmas calls) (onlyMore : OnlyProtects vmas more) :
    OnlyProtects vmas (calls ++ more) := by
  intro made mem
  rcases List.mem_append.mp mem with earlier | later
  · exact only made earlier
  · exact onlyMore made later

theorem Shown.mono {header : DumpHeader} {index : ℕ} {shown more : List Bytes}
    {start size : UInt64} (isShown : Shown header index shown start size)
    (grows : shown <+: more) : Shown header index more start size := by
  rcases isShown with ⟨text, mem, found⟩
  exact ⟨text, grows.subset mem, found⟩

theorem SizeMatches.mono {header : DumpHeader} {entry : KernelMap × ℕ} {before after : Child}
    (sizeMatches : SizeMatches header entry before) (continues : Continues before after) :
    SizeMatches header entry after := by
  rcases sizeMatches with ⟨start, isShown⟩
  exact ⟨start, isShown.mono continues.shown⟩

theorem InPlace.mono {header : DumpHeader} {entry : KernelMap × ℕ} {before after : Child}
    (inPlace : InPlace header entry before) (continues : Continues before after) :
    InPlace header entry after := by
  rcases inPlace with ⟨start, size, isShown, moved⟩
  exact ⟨start, size, isShown.mono continues.shown,
    moved.imp_right fun executed => executed.mono continues.calls⟩

/-- A new mapping holds its payload, and takes nothing from those it does not cover. -/
theorem HoldsPayloads.concat {content : Bytes} {before after : Child}
    {done : List VmaDescriptor} {vma : VmaDescriptor}
    (holds : HoldsPayloads content before.memory done) (mapped : Mapped content vma before after) :
    HoldsPayloads content after.memory (done ++ [vma]) := by
  induction done with
  | nil => exact ⟨fun index inside _ => mapped.payload index inside, trivial⟩
  | cons first done ih =>
      refine ⟨?_, ih holds.2⟩
      intro index inside uncovered
      rw [mapped.outside _ (uncovered vma (List.mem_append_right _ List.mem_cons_self))]
      apply holds.1 index inside
      intro other mem
      exact uncovered other (List.mem_append_left _ mem)

section

variable {content : Bytes} {rely : RestoreEvent → Prop} {child : Child}

/-! ## Kernel mappings -/

theorem findChildMap_spec {header : DumpHeader} {index : ℕ} (held : Held child) :
    (findChildMap (nameMemory header index)).run.Ensures (childWorld content rely) Held
      (fun outcome after => ∀ start size, outcome = some (start, size) →
        Continues child after ∧ Shown header index after.shown start size) child := by
  unfold findChildMap
  rw [ensures_ask_bind]
  intro maps read step
  cases maps with
  | none =>
      refine ⟨step.1 ▸ held, ?_⟩
      intro start size impossible
      cases impossible
  | some text =>
      have reads : read = { child with shown := child.shown ++ [text] } := step.1
      have continues : Continues child read := by
        rw [reads]
        exact ⟨held, rfl, List.prefix_rfl, List.prefix_append _ _⟩
      refine ⟨continues.held, ?_⟩
      split
      · trivial
      · rename_i found search
        intro start size isFound
        subst isFound
        refine ⟨continues, text, ?_, search⟩
        rw [reads]
        exact List.mem_append_right _ List.mem_cons_self

theorem measureKernelMaps_spec {header : DumpHeader} {maps : List (KernelMap × ℕ)}
    {hull : KernelMapHull} (held : Held child) :
    (measureKernelMaps header maps hull).run.Ensures (childWorld content rely) Held
      (fun outcome after => outcome.isSome → Continues child after ∧
        ∀ entry ∈ maps, SizeMatches header entry after) child := by
  induction maps generalizing hull child with
  | nil =>
      intro _
      exact ⟨.refl held, by simp⟩
  | cons first rest ih =>
      rcases first with ⟨wanted, index⟩
      unfold measureKernelMaps
      rw [ensures_attempt_bind]
      refine (findChildMap_spec held).mono ?_
      intro outcome found finds
      cases outcome with
      | none => simp
      | some range =>
          rcases range with ⟨childStart, childSize⟩
          rcases finds childStart childSize rfl with ⟨continues, isShown⟩
          dsimp only
          rw [ensures_require_bind]
          refine ⟨?_, by simp⟩
          intro sameSize
          refine (ih continues.held).mono ?_
          intro outcome after measures success
          rcases measures success with ⟨more, matches_⟩
          refine ⟨continues.trans more, ?_⟩
          intro entry mem
          rcases List.mem_cons.mp mem with rfl | later
          · rw [of_decide_eq_true sameSize] at isShown
            exact ⟨childStart, isShown.mono more.shown⟩
          · exact matches_ entry later

theorem moveKernelMap_spec (undisturbed : ∀ event, rely event → Undisturbed event)
    {header : DumpHeader} {wanted : KernelMap} {index : ℕ} (held : Held child) :
    (moveKernelMap header wanted index).run.Ensures (childWorld content rely) Held
      (fun outcome after => outcome.isSome → Continues child after ∧
        InPlace header (wanted, index) after) child := by
  unfold moveKernelMap
  rw [ensures_attempt_bind]
  refine (findChildMap_spec held).mono ?_
  intro outcome found finds
  cases outcome with
  | none => simp
  | some range =>
      rcases range with ⟨childStart, childSize⟩
      rcases finds childStart childSize rfl with ⟨continues, isShown⟩
      dsimp only
      split
      · rename_i already
        intro _
        exact ⟨continues, childStart, childSize, isShown, .inl already⟩
      · have notFcntl : sysMremap ≠ sysFcntl := by decide
        refine (inject_ran undisturbed (mremapCall childStart childSize wanted) notFcntl
          continues.held).mono ?_
        intro outcome after runs success
        have ran := runs success
        exact ⟨continues.trans ran.continues, childStart, childSize,
          isShown.mono ran.continues.shown, .inr ran.executed⟩

/-- The kernel mappings are in place when both loops are through. -/
theorem restoreKernelMaps_spec (undisturbed : ∀ event, rely event → Undisturbed event)
    {header : DumpHeader} (held : Held child) :
    (restoreKernelMaps header).run.Ensures (childWorld content rely) Held
      (fun outcome after => outcome.isSome → Continues child after ∧
        ∀ entry ∈ header.countedKernelMaps,
          SizeMatches header entry after ∧ InPlace header entry after) child := by
  unfold restoreKernelMaps
  split
  · rename_i none_
    intro _
    refine ⟨.refl held, ?_⟩
    simp [DumpHeader.countedKernelMaps, none_]
  · refine ensures_bind_success (measureKernelMaps_spec held) ?_
    intro hull measured sizes
    rw [ensures_require_bind]
    refine ⟨?_, by simp⟩
    intro apart
    refine ensures_forM (fun done after => Continues measured after ∧
      ∀ entry ∈ done, InPlace header entry after) ⟨.refl sizes.1.held, by simp⟩ ?_ ?_
    · intro before entry after middle split moved
      refine (moveKernelMap_spec undisturbed moved.1.held).mono ?_
      intro outcome final moves
      cases outcome with
      | none => simp
      | some _ =>
          rcases moves rfl with ⟨continues, inPlace⟩
          refine ⟨moved.1.trans continues, ?_⟩
          intro other mem
          rcases List.mem_append.mp mem with earlier | last
          · exact (moved.2 other earlier).mono continues
          · cases List.mem_singleton.mp last
            exact inPlace
    · intro final moved _
      refine ⟨sizes.1.trans moved.1, ?_⟩
      intro entry mem
      exact ⟨(sizes.2 entry mem).mono moved.1, moved.2 entry mem⟩

/-! ## Mappings -/

/-- Some areas were mapped and filled, one after the other. -/
structure AreasMade (content : Bytes) (vmas : List VmaDescriptor) (before after : Child) :
    Prop where
  continues : Continues before after
  payloads : HoldsPayloads content after.memory vmas
  calls : ∃ mapping, after.calls = before.calls ++ mapping ∧ MapsAreas vmas mapping
  outside : ∀ address, (∀ vma ∈ vmas, ¬Within vma.startAddress vma.size.toNat address) →
    after.memory address = before.memory address

theorem AreasMade.concat {vmas : List VmaDescriptor} {vma : VmaDescriptor}
    {before middle after : Child} (made : AreasMade content vmas before middle)
    (mapped : Mapped content vma middle after) :
    AreasMade content (vmas ++ [vma]) before after where
  continues := made.continues.trans mapped.continues
  payloads := made.payloads.concat mapped
  calls := by
    rcases made.calls with ⟨mapping, calls, maps⟩
    rcases mapped.calls with ⟨result, succeeds, added⟩
    refine ⟨mapping ++ [(mmapCall vma, result)], ?_, ?_⟩
    · rw [added, calls, List.append_assoc]
    · exact List.rel_append maps (.cons ⟨rfl, succeeds⟩ .nil)
  outside := by
    intro address uncovered
    rw [mapped.outside address (uncovered vma (List.mem_append_right _ List.mem_cons_self))]
    apply made.outside address
    exact fun other mem => uncovered other (List.mem_append_left _ mem)

theorem restoreVmas_spec (undisturbed : ∀ event, rely event → Undisturbed event)
    {vmas : List VmaDescriptor} (held : Held child) :
    (forM vmas restoreVma).run.Ensures (childWorld content rely) Held
      (fun outcome after => outcome.isSome → AreasMade content vmas child after) child := by
  have initially : AreasMade content [] child child :=
    ⟨.refl held, trivial, ⟨[], by simp, .nil⟩, fun _ _ => rfl⟩
  refine ensures_forM (fun done after => AreasMade content done child after) initially ?_
    (fun final made _ => made)
  intro before vma after middle split made
  refine (restoreVma_spec undisturbed made.continues.held).mono ?_
  intro outcome final maps
  cases outcome with
  | none => simp
  | some _ => exact made.concat (maps rfl)

/-! ## Protections -/

/-- Only calls were added, none of which touches the memory. -/
structure Protects (added : List (SystemCall × UInt64)) (before after : Child) : Prop where
  continues : Continues before after
  memory : after.memory = before.memory
  calls : after.calls = before.calls ++ added

theorem Protects.trans {first second third : Child} {added more : List (SystemCall × UInt64)}
    (protects : Protects added first second) (next : Protects more second third) :
    Protects (added ++ more) first third where
  continues := protects.continues.trans next.continues
  memory := next.memory.trans protects.memory
  calls := by rw [next.calls, protects.calls, List.append_assoc]

theorem Protected.append_left {vma : VmaDescriptor} {calls : List (SystemCall × UInt64)}
    (isProtected : Protected vma calls) (more : List (SystemCall × UInt64)) :
    Protected vma (calls ++ more) :=
  isProtected.imp_right fun executed => executed.mono (List.prefix_append _ _)

theorem Protected.append_right {vma : VmaDescriptor} {more : List (SystemCall × UInt64)}
    (isProtected : Protected vma more) (calls : List (SystemCall × UInt64)) :
    Protected vma (calls ++ more) := by
  rcases isProtected with rwx | ⟨result, succeeds, mem⟩
  · exact .inl rwx
  · exact .inr ⟨result, succeeds, List.mem_append_right _ mem⟩

theorem protectVma_spec (undisturbed : ∀ event, rely event → Undisturbed event)
    {vmas : List VmaDescriptor} {vma : VmaDescriptor} (mem : vma ∈ vmas) (held : Held child) :
    (protectVma vma).run.Ensures (childWorld content rely) Held
      (fun outcome after => outcome.isSome → ∃ added, Protects added child after ∧
        OnlyProtects vmas added ∧ Protected vma added) child := by
  unfold protectVma injectMprotectSyscall
  split
  · rename_i rwx
    intro _
    exact ⟨[], ⟨.refl held, rfl, by simp⟩, by simp [OnlyProtects], .inl rwx⟩
  · have notFcntl : sysMprotect ≠ sysFcntl := by decide
    have notMmap : sysMprotect ≠ sysMmap := by decide
    have notMremap : sysMprotect ≠ sysMremap := by decide
    refine (inject_ran undisturbed (mprotectCall vma) notFcntl held).mono ?_
    intro outcome after runs success
    have ran := runs success
    rcases ran.calls with ⟨result, succeeds, calls⟩
    refine ⟨[(mprotectCall vma, result)], ⟨ran.continues, ?_, calls⟩, ?_,
      .inr ⟨result, succeeds, List.mem_cons_self⟩⟩
    · funext address
      apply ran.memory
      intro result touches
      rcases touches.2 with ⟨isMmap, _⟩ | ⟨isMremap, _⟩
      · exact notMmap isMmap
      · exact notMremap isMremap
    · intro made isMade
      cases List.mem_singleton.mp isMade
      exact ⟨succeeds, vma, mem, rfl⟩

/-- Every area has its protection, the one of the injection site included. -/
theorem restoreProtections_spec (undisturbed : ∀ event, rely event → Undisturbed event)
    {vmas : List VmaDescriptor} (held : Held child) :
    (restoreProtections vmas).run.Ensures (childWorld content rely) Held
      (fun outcome after => outcome.isSome → ∃ added, Protects added child after ∧
        OnlyProtects vmas added ∧ ∀ vma ∈ vmas, Protected vma added) child := by
  unfold restoreProtections
  refine ensures_given_bind (by simp) ?_ ?_
  · intro regsRead read step
    cases regsRead with
    | none => exact step.1 ▸ held
    | some regs => exact step.1.2 ▸ held
  intro regsRead read step regs given
  cases given
  rcases step.1 with ⟨_, unchanged⟩
  rw [unchanged]
  dsimp only
  generalize vmas.findIdx? (holdsSite regs.rip) = site
  have loop : (forM vmas.zipIdx fun entry => protectUnlessSite site entry.1 entry.2 :
      Attempt RestoreInterface Unit).run.Ensures (childWorld content rely) Held
      (fun outcome after => outcome.isSome → ∃ added, Protects added child after ∧
        OnlyProtects vmas added ∧
        ∀ entry ∈ vmas.zipIdx, some entry.2 ≠ site → Protected entry.1 added) child := by
    refine ensures_forM (fun done after => ∃ added, Protects added child after ∧
      OnlyProtects vmas added ∧ ∀ entry ∈ done, some entry.2 ≠ site → Protected entry.1 added)
      ⟨[], ⟨.refl held, rfl, by simp⟩, by simp [OnlyProtects], by simp⟩ ?_ ?_
    · intro before entry after middle split holds
      rcases holds with ⟨added, protects, only, each⟩
      have entryMem : entry ∈ vmas.zipIdx := by
        rw [split]
        exact List.mem_append_right _ List.mem_cons_self
      rcases entry with ⟨vma, index⟩
      dsimp only
      unfold protectUnlessSite
      split
      · rename_i isSite
        refine ⟨added, protects, only, ?_⟩
        intro other mem notSite
        rcases List.mem_append.mp mem with earlier | last
        · exact each other earlier notSite
        · cases List.mem_singleton.mp last
          exact absurd isSite notSite
      · have mem : vma ∈ vmas := List.fst_mem_of_mem_zipIdx entryMem
        refine (protectVma_spec undisturbed mem protects.continues.held).mono ?_
        intro outcome final protectsNext
        cases outcome with
        | none => simp
        | some _ =>
            rcases protectsNext rfl with ⟨more, next, onlyMore, isProtected⟩
            refine ⟨added ++ more, protects.trans next, only.append onlyMore, ?_⟩
            intro other mem notSite
            rcases List.mem_append.mp mem with earlier | last
            · exact (each other earlier notSite).append_left more
            · cases List.mem_singleton.mp last
              exact isProtected.append_right added
    · intro final holds _
      exact holds
  refine ensures_bind_success loop ?_
  intro _ middle holds
  rcases holds with ⟨added, protects, only, each⟩
  have finish : ∀ more final, Protects more middle final → OnlyProtects vmas more →
      (∀ index, some index = site → ∀ vma, vmas[index]? = some vma → Protected vma more) →
      ∃ added, Protects added child final ∧ OnlyProtects vmas added ∧
        ∀ vma ∈ vmas, Protected vma added := by
    intro more final next onlyMore siteProtected
    refine ⟨added ++ more, protects.trans next, only.append onlyMore, ?_⟩
    intro vma mem
    rcases List.getElem_of_mem mem with ⟨index, inside, rfl⟩
    have entry : (vmas[index], index) ∈ vmas.zipIdx :=
      List.mem_zipIdx_iff_getElem?.mpr (List.getElem?_eq_getElem inside)
    by_cases isSite : some index = site
    · exact (siteProtected index isSite _ (List.getElem?_eq_getElem inside)).append_right added
    · exact (each _ entry isSite).append_left more
  unfold protectSite
  split
  · rename_i vma here
    have mem : vma ∈ vmas := by
      rcases Option.bind_eq_some_iff.mp here with ⟨index, _, there⟩
      exact List.mem_of_getElem? there
    refine (protectVma_spec undisturbed mem protects.continues.held).mono ?_
    intro outcome final protectsSite success
    rcases protectsSite success with ⟨more, next, onlyMore, isProtected⟩
    apply finish more final next onlyMore
    intro index isSite other there
    rw [← isSite, Option.bind_some, there] at here
    cases here
    exact isProtected
  · rename_i nowhere
    intro _
    apply finish [] middle ⟨.refl protects.continues.held, rfl, by simp⟩ (by simp [OnlyProtects])
    intro index isSite other there
    rw [← isSite, Option.bind_some, there] at nowhere
    cases nowhere

/-! ## All of it -/

/-- The whole address space is rebuilt when `restore_memory` is through. What becomes of the
descriptors is left to the flags. -/
theorem restoreMemory_spec (undisturbed : ∀ event, rely event → Undisturbed event)
    {snapshot : Snapshot} {known : DescriptorTable Int32 OpenFile → Prop} (held : Held child)
    (flags : (restoreFdFlags snapshot.fds).run.Ensures (childWorld content rely) Held
      (fun outcome after => outcome.isSome → Held after ∧ known after.descriptors) child) :
    (restoreMemory snapshot).run.Ensures (childWorld content rely) Held
      (fun outcome after => outcome.isSome → Held after ∧ known after.descriptors ∧
        Rebuilt content snapshot after) child := by
  unfold restoreMemory
  refine ensures_checked_bind (by simp) ?_ ?_
  · intro opened memoryOpen step
    exact step.1 ▸ held
  intro opened memoryOpen step success
  rw [(step.1 : memoryOpen = child), ensures_lift_bind]
  have rebuilds : (rebuildMemory snapshot).run.Ensures (childWorld content rely) Held
      (fun outcome after => outcome.isSome → Held after ∧ known after.descriptors ∧
        (∀ entry ∈ snapshot.header.countedKernelMaps,
          SizeMatches snapshot.header entry after ∧ InPlace snapshot.header entry after) ∧
        HoldsPayloads content after.memory snapshot.vmas ∧
        ∃ earlier mapping, after.calls = earlier ++ mapping ∧
          MapsAreas snapshot.vmas mapping) child := by
    unfold rebuildMemory
    refine ensures_bind_success flags ?_
    intro _ marked marks
    refine ensures_bind_success (restoreKernelMaps_spec undisturbed marks.1) ?_
    intro _ moved kernelMaps
    refine (restoreVmas_spec undisturbed kernelMaps.1.held).mono ?_
    intro outcome final makes success
    have made := makes success
    have continues := made.continues
    have descriptors := continues.descriptors.trans kernelMaps.1.descriptors
    refine ⟨continues.held, descriptors ▸ marks.2, ?_, made.payloads, moved.calls, made.calls⟩
    intro entry mem
    exact ⟨(kernelMaps.2 entry mem).1.mono continues, (kernelMaps.2 entry mem).2.mono continues⟩
  refine (rebuilds.with_always held).mono ?_
  intro rebuilt after holds
  rw [ensures_ask_bind]
  intro _ closed step
  rw [(step.1 : closed = after)]
  refine ⟨holds.1, ?_⟩
  rw [ensures_require_bind]
  refine ⟨?_, by simp⟩
  intro success
  rcases holds.2 success with ⟨_, isKnown, kernelMaps, payloads, earlier, mapping, split, maps⟩
  refine (restoreProtections_spec undisturbed holds.1).mono ?_
  intro outcome final protects done
  rcases protects done with ⟨added, unchanged, only, isProtected⟩
  refine ⟨unchanged.continues.held, unchanged.continues.descriptors ▸ isKnown, ?_⟩
  constructor
  · intro entry mem
    exact (kernelMaps entry mem).1.mono unchanged.continues
  · intro entry mem
    exact (kernelMaps entry mem).2.mono unchanged.continues
  · rw [unchanged.memory]
    exact payloads
  · exact ⟨earlier, mapping, added, split ▸ unchanged.calls, maps, only, isProtected⟩

end

end Ksnap
