import Mathlib.Data.List.Induction
import Ksnap.Foundation.Loop
import Ksnap.Restore.Injection

/-!
# Descriptors in place

The descriptors of the child above the standard ones. The loop of the child opens one
entry of the table after the other and moves it to its number, so that after each
round exactly the entries so far are open, each on its file at its offset, those of
their own on separate open files and every copy on the one it is a copy of. The
temporary number of an open is free again after the round. After the exec the engine
gives back the marks that the open had to leave out.
-/

namespace Ksnap

open Foundation Foundation.Program

/-- The open file that an entry of the table comes to, where these files keep a position. -/
def openedFile (keeps : Bytes → Bool) (pool : Bytes) (entry : FdDescriptor) : OpenFile where
  path := poolString pool entry.pathOffset
  flags := keptFlags (entry.flags &&& ~~~oCloexec)
  position :=
    if entry.flags &&& oPath = 0 ∧ keeps (poolString pool entry.pathOffset) then entry.position
    else 0

/-- The entries are in place, with these marks, and nothing else is open above the standard
descriptors. -/
structure Placed (keeps : Bytes → Bool) (pool : Bytes) (mark : FdDescriptor → Bool)
    (fds : List FdDescriptor) (table : DescriptorTable Int32 OpenFile) : Prop where
  numbers : ∀ fd, 2 < fd → ((table.slots fd).isSome ↔ ∃ entry ∈ fds, entry.fd = fd)
  marks : ∀ entry ∈ fds, table.HasMark entry.fd (mark entry)
  own : ∀ entry ∈ fds, entry.dupOf = -1 → table.LeadsTo entry.fd (openedFile keeps pool entry)
  copies : ∀ entry ∈ fds, entry.dupOf ≠ -1 → table.Shares entry.dupOf entry.fd
  separate : ∀ first ∈ fds, ∀ second ∈ fds, first.dupOf = -1 → second.dupOf = -1 →
    first.fd ≠ second.fd → ¬table.Shares first.fd second.fd

/-- An entry comes after others in a sorted table. -/
structure FollowsInOrder (before : List FdDescriptor) (entry : FdDescriptor) : Prop where
  aboveStdio : 2 < entry.fd
  above : ∀ other ∈ before, other.fd < entry.fd
  copyOf : entry.dupOf ≠ -1 → ∃ other ∈ before, other.fd = entry.dupOf

theorem FollowsInOrder.ne {before : List FdDescriptor} {entry other : FdDescriptor}
    (follows : FollowsInOrder before entry) (mem : other ∈ before) : other.fd ≠ entry.fd :=
  Int32.ne_of_lt (follows.above other mem)

/-- No entry has a mark before the exec. -/
def unmarked (_ : FdDescriptor) : Bool := false

/-! ## One entry more -/

section

variable {keeps : Bytes → Bool} {pool : Bytes} {before : List FdDescriptor}
  {entry : FdDescriptor} {table : DescriptorTable Int32 OpenFile}

/-- The number of the next entry is free. -/
theorem Placed.free (placed : Placed keeps pool unmarked before table)
    (follows : FollowsInOrder before entry) : table.slots entry.fd = none := by
  have numbers := placed.numbers entry.fd follows.aboveStdio
  by_contra taken
  rcases numbers.mp (Option.isSome_iff_ne_none.mpr taken) with ⟨other, mem, same⟩
  exact follows.ne mem same

/-- A table that gained the number of the next entry and is otherwise the same. -/
theorem Placed.extend (placed : Placed keeps pool unmarked before table)
    (follows : FollowsInOrder before entry) {after : DescriptorTable Int32 OpenFile}
    (others : ∀ fd, fd ≠ entry.fd → after.slots fd = table.slots fd)
    (known : ∀ fd file, fd ≠ entry.fd → table.LeadsTo fd file → after.LeadsTo fd file)
    (marked : after.HasMark entry.fd false)
    (own : entry.dupOf = -1 → after.LeadsTo entry.fd (openedFile keeps pool entry))
    (copies : entry.dupOf ≠ -1 → after.Shares entry.dupOf entry.fd)
    (alone : entry.dupOf = -1 → ∀ other ∈ before, ¬after.Shares other.fd entry.fd) :
    Placed keeps pool unmarked (before ++ [entry]) after := by
  have free := placed.free follows
  have notNew : ∀ fd, (table.slots fd).isSome → fd ≠ entry.fd := by
    intro fd open_ same
    rw [same, free] at open_
    cases open_
  have isOpen : ∀ other ∈ before, (table.slots other.fd).isSome := by
    intro other mem
    rcases placed.marks other mem with ⟨slot, here, _⟩
    rw [here]
    rfl
  have notEntry : ∀ other ∈ before, other.fd ≠ entry.fd :=
    fun other mem => notNew other.fd (isOpen other mem)
  constructor
  · intro fd above
    rcases eq_or_ne fd entry.fd with rfl | different
    · rcases marked with ⟨slot, here, _⟩
      rw [here]
      simp
    · rw [others fd different, placed.numbers fd above]
      simp [different.symm]
  · intro other mem
    rcases List.mem_append.mp mem with earlier | last
    · rw [DescriptorTable.hasMark_congr (others _ (notEntry other earlier))]
      exact placed.marks other earlier
    · cases List.mem_singleton.mp last
      exact marked
  · intro other mem isOwn
    rcases List.mem_append.mp mem with earlier | last
    · exact known _ _ (notEntry other earlier) (placed.own other earlier isOwn)
    · cases List.mem_singleton.mp last
      exact own isOwn
  · intro other mem isCopy
    rcases List.mem_append.mp mem with earlier | last
    · have shares := placed.copies other earlier isCopy
      have original : other.dupOf ≠ entry.fd := by
        rcases shares with ⟨slot, _, here, _⟩
        exact notNew _ (by rw [here]; rfl)
      exact (DescriptorTable.shares_congr (others _ original)
        (others _ (notEntry other earlier))).mpr shares
    · cases List.mem_singleton.mp last
      exact copies isCopy
  · intro first firstMem second secondMem firstOwn secondOwn different
    rcases List.mem_append.mp firstMem with firstEarlier | firstLast
    · rcases List.mem_append.mp secondMem with secondEarlier | secondLast
      · rw [DescriptorTable.shares_congr (others _ (notEntry first firstEarlier))
          (others _ (notEntry second secondEarlier))]
        exact placed.separate first firstEarlier second secondEarlier firstOwn secondOwn different
      · cases List.mem_singleton.mp secondLast
        exact alone secondOwn first firstEarlier
    · cases List.mem_singleton.mp firstLast
      rcases List.mem_append.mp secondMem with secondEarlier | secondLast
      · intro shares
        exact alone firstOwn second secondEarlier shares.symm
      · cases List.mem_singleton.mp secondLast
        exact absurd rfl different

theorem Placed.openAt (placed : Placed keeps pool unmarked before table)
    (follows : FollowsInOrder before entry) (own : entry.dupOf = -1) :
    Placed keeps pool unmarked (before ++ [entry])
      (table.openAt entry.fd (openedFile keeps pool entry)) := by
  refine placed.extend follows ?_ ?_ DescriptorTable.hasMark_openAt
    (fun _ => DescriptorTable.leadsTo_openAt) (fun isCopy => absurd own isCopy) ?_
  · intro fd different
    exact DescriptorTable.slots_openAt_of_ne different
  · intro fd file different leadsTo
    exact leadsTo.openAt different
  · intro _ other mem
    exact DescriptorTable.not_shares_openAt (follows.ne mem)

theorem Placed.duplicate (placed : Placed keeps pool unmarked before table)
    (follows : FollowsInOrder before entry) (isCopy : entry.dupOf ≠ -1) :
    Placed keeps pool unmarked (before ++ [entry]) (table.duplicate entry.dupOf entry.fd) := by
  rcases follows.copyOf isCopy with ⟨original, mem, number⟩
  have open_ : (table.slots entry.dupOf).isSome := by
    rcases placed.marks original mem with ⟨slot, here, _⟩
    rw [← number, here]
    rfl
  have different : entry.dupOf ≠ entry.fd := number ▸ follows.ne mem
  refine placed.extend follows ?_ ?_ (DescriptorTable.hasMark_aim open_)
    (fun own => absurd own isCopy) (fun _ => DescriptorTable.shares_aim open_ different)
    (fun own => absurd own isCopy)
  · intro fd notEntry
    exact DescriptorTable.slots_aim_of_ne notEntry
  · intro fd file notEntry leadsTo
    exact leadsTo.aim notEntry

/-- What one round of the loop makes of the descriptors. -/
def placeEntry (keeps : Bytes → Bool) (pool : Bytes) (table : DescriptorTable Int32 OpenFile)
    (entry : FdDescriptor) : DescriptorTable Int32 OpenFile :=
  if entry.dupOf = -1 then table.openAt entry.fd (openedFile keeps pool entry)
  else table.duplicate entry.dupOf entry.fd

/-- What the loop makes of the descriptors of the engine. -/
def placeAll (keeps : Bytes → Bool) (pool : Bytes) (table : DescriptorTable Int32 OpenFile)
    (fds : List FdDescriptor) : DescriptorTable Int32 OpenFile :=
  fds.foldl (placeEntry keeps pool) (table.closeAll fun fd _ => 2 < fd)

theorem placeAll_concat :
    placeAll keeps pool table (before ++ [entry]) =
      placeEntry keeps pool (placeAll keeps pool table before) entry :=
  List.foldl_concat ..

theorem Placed.place (placed : Placed keeps pool unmarked before table)
    (follows : FollowsInOrder before entry) :
    Placed keeps pool unmarked (before ++ [entry]) (placeEntry keeps pool table entry) := by
  unfold placeEntry
  split
  · rename_i own
    exact placed.openAt follows own
  · rename_i isCopy
    exact placed.duplicate follows isCopy

theorem placed_placeAll {fds : List FdDescriptor} (inOrder : EachAfter FollowsInOrder fds) :
    Placed keeps pool unmarked fds (placeAll keeps pool table fds) := by
  induction fds using List.reverseRecOn with
  | nil =>
      constructor
      · intro fd above
        simp [placeAll, DescriptorTable.closeAll, above]
      all_goals simp
  | append_singleton before entry ih =>
      rcases eachAfter_concat.mp inOrder with ⟨earlier, follows⟩
      rw [placeAll_concat]
      exact (ih earlier).place follows

end

/-! ## The child before its exec -/

section

variable {keeps : Bytes → Bool} {content pool : Bytes} {rely : RestoreEvent → Prop}
  {entry : FdDescriptor} {table : DescriptorTable Int32 OpenFile}

/-- The child is still the engine. -/
def Forked (child : Child) : Prop :=
  child.phase = .engine ∧ child.ranOwn = false

/-- The child is still the engine, with these descriptors, on a system where these files keep a
position. -/
def ForkedWith (keeps : Bytes → Bool) (table : DescriptorTable Int32 OpenFile) (child : Child) :
    Prop :=
  Forked child ∧ child.descriptors = table ∧ child.keepsPosition = keeps

theorem seekOpened_spec {opened : Int32} {path : Bytes} {flags : UInt32} {child : Child}
    (forked : ForkedWith keeps (table.openAt opened ⟨path, flags, 0⟩) child) :
    (seekOpened entry opened).run.Ensures (childWorld content rely) Forked
      (fun outcome after => outcome.isSome → ForkedWith keeps (table.openAt opened
        ⟨path, flags, if entry.flags &&& oPath = 0 ∧ keeps path then entry.position else 0⟩) after)
      child := by
  rcases forked with ⟨forked, descriptors, keeping⟩
  unfold seekOpened
  split
  · rename_i hasOffset
    rw [ensures_ask_bind]
    intro sought after step
    cases sought with
    | false =>
        have same : after = child := step.1
        subst same
        refine ⟨forked, ?_⟩
        rw [if_neg (by decide), ensures_ask_bind]
        intro _ closed step
        exact ⟨step.1 ▸ forked, by simp⟩
    | true =>
        rcases step with ⟨⟨slot, here, moved⟩, _⟩
        rw [descriptors, DescriptorTable.slots_openAt_self] at here
        cases here
        subst moved
        refine ⟨forked, fun _ => ⟨forked, ?_, keeping⟩⟩
        simp only [descriptors, hasOffset, true_and, ← keeping]
        exact DescriptorTable.modify_openAt _
  · rename_i pathOnly
    intro _
    simp only [pathOnly, false_and, if_false]
    exact ⟨forked, descriptors, keeping⟩

theorem moveOpened_spec {opened : Int32} {file : OpenFile} {child : Child}
    (free : table.slots opened = none)
    (forked : ForkedWith keeps (table.openAt opened file) child) :
    (moveOpened entry opened).run.Ensures (childWorld content rely) Forked
      (fun outcome after => outcome.isSome → ForkedWith keeps (table.openAt entry.fd file) after)
      child := by
  rcases forked with ⟨forked, descriptors, keeping⟩
  unfold moveOpened
  split
  · rename_i different
    rw [ensures_ask_bind]
    intro moved middle step
    have middleForked : Forked middle := by
      cases moved with
      | false => exact step.1 ▸ forked
      | true => exact step.1.2 ▸ forked
    refine ⟨middleForked, ?_⟩
    rw [ensures_ask_bind]
    intro _ closed closes
    have closedEq : closed = { middle with
      descriptors := middle.descriptors.closeOne opened } := closes.1
    have closedForked : Forked closed := closedEq ▸ middleForked
    refine ⟨closedForked, ?_⟩
    rw [ensures_require]
    refine ⟨?_, by simp⟩
    intro success _
    subst success
    have middleEq : middle = { child with
        descriptors := child.descriptors.duplicate opened entry.fd } := by
      rw [step.1.2, if_neg different]
    refine ⟨closedForked, ?_, ?_⟩
    · rw [closedEq, middleEq, descriptors]
      exact DescriptorTable.move_openAt free different
    · rw [closedEq, middleEq]
      exact keeping
  · rename_i same
    intro _
    rw [ne_eq, not_not] at same
    exact ⟨forked, same ▸ descriptors, keeping⟩

/-- One round of the loop comes to its table. -/
theorem openSnapshotFd_spec {child : Child} (forked : Forked child)
    (copies : entry.dupOf ≠ -1 → entry.dupOf ≠ entry.fd) :
    (openSnapshotFd pool entry).run.Ensures (childWorld content rely) Forked
      (fun outcome after => outcome.isSome →
        ForkedWith child.keepsPosition (placeEntry child.keepsPosition pool child.descriptors entry)
          after) child := by
  unfold openSnapshotFd
  split
  · rename_i isCopy
    rw [ensures_ask_bind]
    intro duplicated after step
    have afterForked : Forked after := by
      cases duplicated with
      | false => exact step.1 ▸ forked
      | true => exact step.1.2 ▸ forked
    refine ⟨afterForked, ?_⟩
    rw [ensures_require]
    refine ⟨?_, by simp⟩
    intro success _
    subst success
    refine ⟨afterForked, ?_, ?_⟩
    · rw [step.1.2, if_neg (copies isCopy), placeEntry, if_neg isCopy]
    · rw [step.1.2]
  · rename_i own
    rw [ne_eq, not_not] at own
    refine ensures_given_bind (by simp) ?_ ?_
    · intro opened after step
      cases opened with
      | none => exact step.1 ▸ forked
      | some fd => exact step.1.2 ▸ forked
    intro openedReply after step opened given
    cases given
    rcases step with ⟨⟨lowest, afterEq⟩, _⟩
    have opens : ForkedWith child.keepsPosition (child.descriptors.openAt opened
        ⟨poolString pool entry.pathOffset, keptFlags (entry.flags &&& ~~~oCloexec), 0⟩) after := by
      subst afterEq
      exact ⟨forked, rfl, rfl⟩
    refine ensures_bind_success (seekOpened_spec opens) ?_
    intro _ sought seeks
    rw [placeEntry, if_pos own]
    exact moveOpened_spec lowest.2.1 seeks

theorem dupOf_ne_of_inOrder {fds : List FdDescriptor} (inOrder : EachAfter FollowsInOrder fds)
    (mem : entry ∈ fds) (isCopy : entry.dupOf ≠ -1) : entry.dupOf ≠ entry.fd := by
  rcases List.append_of_mem mem with ⟨before, after, split⟩
  rcases (inOrder before entry after split).copyOf isCopy with ⟨original, earlier, number⟩
  exact number ▸ (inOrder before entry after split).ne earlier

/-- The loop comes to the table that its rounds make. -/
theorem openSnapshotFds_places {fds : List FdDescriptor} (inOrder : EachAfter FollowsInOrder fds)
    {child : Child} (forked : Forked child) :
    (openSnapshotFds fds pool).run.Ensures (childWorld content rely) Forked
      (fun outcome after => outcome.isSome →
        ForkedWith child.keepsPosition (placeAll child.keepsPosition pool child.descriptors fds)
          after) child := by
  unfold openSnapshotFds
  refine ensures_checked_bind (by simp) ?_ ?_
  · intro closed after step
    cases closed with
    | false => exact step.1 ▸ forked
    | true => exact step.1 ▸ forked
  intro closed emptied step success
  cases success
  have empties : emptied = { child with
    descriptors := child.descriptors.closeAll fun fd _ => 2 < fd } := step.1
  refine ensures_forM (fun done => ForkedWith child.keepsPosition
    (placeAll child.keepsPosition pool child.descriptors done)) ?_ ?_ ?_
  · subst empties
    exact ⟨forked, rfl, rfl⟩
  · intro before entry after middle split holds
    rcases holds with ⟨middleForked, descriptors, keeping⟩
    have mem : entry ∈ fds := split ▸ List.mem_append_right _ List.mem_cons_self
    refine (openSnapshotFd_spec middleForked (dupOf_ne_of_inOrder inOrder mem)).mono ?_
    intro outcome final places
    cases outcome with
    | none => simp
    | some _ =>
        rw [placeAll_concat, ← descriptors, ← keeping]
        exact places rfl
  · intro final holds _
    exact holds

/-- The whole table is in place when the loop is through. -/
theorem openSnapshotFds_spec {fds : List FdDescriptor} (inOrder : EachAfter FollowsInOrder fds)
    {child : Child} (forked : Forked child) :
    (openSnapshotFds fds pool).run.Ensures (childWorld content rely) Forked
      (fun outcome after => outcome.isSome → Forked after ∧
        Placed child.keepsPosition pool unmarked fds after.descriptors) child := by
  refine (openSnapshotFds_places inOrder forked).mono ?_
  intro outcome after places success
  rcases places success with ⟨afterForked, descriptors, _⟩
  rw [descriptors]
  exact ⟨afterForked, placed_placeAll inOrder⟩

end

/-! ## The exec, and the marks after it -/

/-- Where the child is traced, it does not run on its own; this is all that is claimed. -/
def HeldBack (rely : RestoreEvent → Prop) (child : Child) : Prop :=
  (∀ event, rely event → Traced event) → child.ranOwn = false

/-- A child that is found stopped was traced, and has kept the descriptors without a mark. -/
theorem execTraced_spec {content : Bytes} {rely : RestoreEvent → Prop} {exePath : Bytes}
    {child : Child} (forked : Forked child) :
    (execTraced exePath).Ensures (childWorld content rely) (HeldBack rely)
      (fun _ after => HeldBack rely after ∧ (after.phase = .stopped →
        Held after ∧ after.descriptors = child.descriptors.exec)) child := by
  unfold execTraced
  rw [ensures_perform_bind]
  intro _ settled step
  rw [(step.1 : settled = child)]
  refine ⟨fun _ => forked.2, ?_⟩
  rw [ensures_perform_bind]
  intro accepted asked traces
  have asks : asked = { child with traced := accepted } := traces.1
  have back : asked.ranOwn = false := asks ▸ forked.2
  refine ⟨fun _ => back, ?_⟩
  rw [ensures_perform_bind]
  intro success execed step
  cases success with
  | false =>
      have same : execed = asked := step.1
      subst same
      refine ⟨fun _ => back, ?_⟩
      rw [if_neg (by decide), ensures_perform]
      intro _ gone exits
      have ended : gone = { execed with phase := .gone } := exits.1
      subst ended
      refine ⟨fun _ => back, fun _ => back, ?_⟩
      intro stopped
      cases stopped
  | true =>
      rcases step.1 with ⟨memory, regs, execs⟩
      have heldBack : HeldBack rely execed := by
        intro always
        have isTraced : accepted = true := always _ traces.2
        rw [execs, asks, isTraced]
        rfl
      refine ⟨heldBack, heldBack, ?_⟩
      intro stopped
      have isTraced : accepted = true := by
        rw [execs, asks] at stopped
        cases accepted with
        | true => rfl
        | false => cases stopped
      refine ⟨⟨stopped, ?_⟩, ?_⟩
      · rw [execs, asks, isTraced]
        rfl
      · rw [execs, asks]

/-- The entry had `O_CLOEXEC`. -/
def hasCloexec (entry : FdDescriptor) : Bool := entry.flags &&& oCloexec ≠ 0

section

variable {keeps : Bytes → Bool} {pool : Bytes} {fds : List FdDescriptor}
  {table : DescriptorTable Int32 OpenFile}

/-- Nothing above the standard descriptors has a mark, so the exec closes none of it. -/
theorem Placed.slots_exec (placed : Placed keeps pool unmarked fds table) {fd : Int32}
    (above : 2 < fd) : table.exec.slots fd = table.slots fd := by
  simp only [DescriptorTable.exec, DescriptorTable.closeAll]
  cases here : table.slots fd with
  | none => rfl
  | some slot =>
      rcases (placed.numbers fd above).mp (by rw [here]; rfl) with ⟨entry, mem, rfl⟩
      rcases placed.marks entry mem with ⟨marked, same, noMark⟩
      cases here.symm.trans same
      simp [noMark, unmarked]

theorem Placed.exec (placed : Placed keeps pool unmarked fds table)
    (inOrder : EachAfter FollowsInOrder fds) : Placed keeps pool unmarked fds table.exec := by
  have above : ∀ entry ∈ fds, 2 < entry.fd := by
    intro entry mem
    rcases List.append_of_mem mem with ⟨before, after, split⟩
    exact (inOrder before entry after split).aboveStdio
  have slots : ∀ entry ∈ fds, table.exec.slots entry.fd = table.slots entry.fd :=
    fun entry mem => placed.slots_exec (above entry mem)
  constructor
  · intro fd aboveFd
    rw [placed.slots_exec aboveFd]
    exact placed.numbers fd aboveFd
  · intro entry mem
    rw [DescriptorTable.hasMark_congr (slots entry mem)]
    exact placed.marks entry mem
  · intro entry mem own
    rcases placed.own entry mem own with ⟨slot, here, same⟩
    exact ⟨slot, (slots entry mem).trans here, same⟩
  · intro entry mem isCopy
    rcases List.append_of_mem mem with ⟨before, after, split⟩
    rcases (inOrder before entry after split).copyOf isCopy with ⟨original, earlier, number⟩
    have originalMem : original ∈ fds := split ▸ List.mem_append_left _ earlier
    rw [DescriptorTable.shares_congr (number ▸ slots original originalMem) (slots entry mem)]
    exact placed.copies entry mem isCopy
  · intro first firstMem second secondMem firstOwn secondOwn different
    rw [DescriptorTable.shares_congr (slots first firstMem) (slots second secondMem)]
    exact placed.separate first firstMem second secondMem firstOwn secondOwn different

/-- Giving one entry its mark leaves everything in place. -/
theorem Placed.mark {mark : FdDescriptor → Bool} (placed : Placed keeps pool mark fds table)
    {entry : FdDescriptor} (mem : entry ∈ fds)
    (distinct : ∀ other ∈ fds, other ≠ entry → other.fd ≠ entry.fd)
    {newMark : FdDescriptor → Bool} (marked : newMark entry = true)
    (others : ∀ other ∈ fds, other ≠ entry → newMark other = mark other) :
    Placed keeps pool newMark fds (table.markCloexec entry.fd) := by
  have open_ : (table.slots entry.fd).isSome := by
    rcases placed.marks entry mem with ⟨slot, here, _⟩
    rw [here]
    rfl
  constructor
  · intro fd above
    rw [← placed.numbers fd above]
    rcases eq_or_ne fd entry.fd with rfl | different
    · rw [DescriptorTable.markCloexec, DescriptorTable.slots_aim_self, Option.isSome_map]
    · rw [DescriptorTable.markCloexec, DescriptorTable.slots_aim_of_ne different]
  · intro other otherMem
    rcases eq_or_ne other entry with rfl | different
    · rw [marked]
      exact DescriptorTable.hasMark_aim open_
    · have same : (table.markCloexec entry.fd).slots other.fd = table.slots other.fd :=
        DescriptorTable.slots_aim_of_ne (distinct other otherMem different)
      rw [others other otherMem different, DescriptorTable.hasMark_congr same]
      exact placed.marks other otherMem
  · intro other otherMem own
    have leadsTo := placed.own other otherMem own
    rcases eq_or_ne other.fd entry.fd with same | different
    · rw [same] at leadsTo ⊢
      exact leadsTo.aim_self
    · exact leadsTo.aim different
  · intro other otherMem isCopy
    exact DescriptorTable.shares_aim_self_iff.mpr (placed.copies other otherMem isCopy)
  · intro first firstMem second secondMem firstOwn secondOwn different shares
    exact placed.separate first firstMem second secondMem firstOwn secondOwn different
      (DescriptorTable.shares_aim_self_iff.mp shares)

/-- In a sorted table an entry is known by its number. -/
theorem fd_ne_of_inOrder (inOrder : EachAfter FollowsInOrder fds) {first second : FdDescriptor}
    (firstMem : first ∈ fds) (secondMem : second ∈ fds) (different : first ≠ second) :
    first.fd ≠ second.fd := by
  rcases exists_split_of_ne firstMem secondMem different with
    ⟨before, after, split, earlier⟩ | ⟨before, after, split, earlier⟩
  · exact (inOrder before second after split).ne earlier
  · exact ((inOrder before first after split).ne earlier).symm

end

/-- What the injected call does to the descriptors. -/
theorem descriptors_setCloexecCall (entry : FdDescriptor) {result : UInt64}
    (succeeds : syscallFailed result = false) (table : DescriptorTable Int32 OpenFile) :
    (setCloexecCall entry).descriptors result table = table.markCloexec entry.fd := by
  have number : entry.fd.toInt64.toUInt64.toUInt32.toInt32 = entry.fd := by
    apply Int32.toBitVec_inj.mp
    apply BitVec.eq_of_getLsbD_eq
    intro index inside
    simp [BitVec.getElem_signExtend, inside, Nat.lt_of_lt_of_le inside]
  have sets : (setCloexecCall entry).number = sysFcntl ∧ (setCloexecCall entry).arg2 = fSetfd ∧
      syscallFailed result = false := ⟨rfl, rfl, succeeds⟩
  have isMark : decide ((setCloexecCall entry).arg3 &&& fdCloexec ≠ 0) = true := by
    simp [setCloexecCall, fdCloexec]
  have target : (setCloexecCall entry).arg1.toUInt32.toInt32 = entry.fd := number
  simp only [SystemCall.descriptors]
  rw [if_pos sets, isMark, target, DescriptorTable.markCloexec]

section

variable {keeps : Bytes → Bool} {content pool : Bytes} {rely : RestoreEvent → Prop}
  {fds : List FdDescriptor}

/-- The marks are back when the loop is through. -/
theorem restoreFdFlags_spec (trapped : ∀ event, rely event → Trapped event)
    (inOrder : EachAfter FollowsInOrder fds) {child : Child} (held : Held child)
    (placed : Placed keeps pool unmarked fds child.descriptors) :
    (restoreFdFlags fds).run.Ensures (childWorld content rely) Held
      (fun outcome after => outcome.isSome → Held after ∧
        Placed keeps pool hasCloexec fds after.descriptors) child := by
  unfold restoreFdFlags
  have initially : Placed keeps pool (fun entry => decide (entry ∈ []) && hasCloexec entry) fds
      child.descriptors := by
    simp only [List.not_mem_nil, decide_false, Bool.false_and]
    exact placed
  refine ensures_forM (fun done child => Held child ∧
    Placed keeps pool (fun entry => decide (entry ∈ done) && hasCloexec entry) fds
      child.descriptors)
    ⟨held, initially⟩ ?_ ?_
  · intro before entry after middle split holds
    have mem : entry ∈ fds := split ▸ List.mem_append_right _ List.mem_cons_self
    have sameElsewhere : ∀ other ∈ fds, other ≠ entry →
        (decide (other ∈ before ++ [entry]) && hasCloexec other) =
          (decide (other ∈ before) && hasCloexec other) := by
      intro other _ different
      simp [different]
    unfold restoreFdFlag
    split
    · rename_i noMark
      refine ⟨holds.1, ?_⟩
      have same : ∀ other, (decide (other ∈ before ++ [entry]) && hasCloexec other) =
          (decide (other ∈ before) && hasCloexec other) := by
        intro other
        rcases eq_or_ne other entry with rfl | different
        · simp [hasCloexec, noMark]
        · simp [different]
      simp only [same]
      exact holds.2
    · rename_i isMarked
      refine (injectSucceeding_spec trapped (setCloexecCall entry) holds.1).mono ?_
      intro outcome final injects
      cases outcome with
      | none => simp
      | some _ =>
          rcases injects rfl with ⟨result, succeeds, injected⟩
          refine ⟨injected.held, ?_⟩
          rw [injected.descriptors, descriptors_setCloexecCall entry succeeds]
          refine holds.2.mark mem ?_ ?_ sameElsewhere
          · intro other otherMem different
            exact fd_ne_of_inOrder inOrder otherMem mem different
          · simp [hasCloexec, isMarked]
  · intro final holds _
    refine ⟨holds.1, holds.2.numbers, ?_, holds.2.own, holds.2.copies, holds.2.separate⟩
    intro entry mem
    simpa [mem] using holds.2.marks entry mem

end

end Ksnap
