import Mathlib.Data.List.Basic
import Mathlib.Logic.Function.Basic
import Mathlib.Order.Defs.LinearOrder

/-!
# Descriptor tables

The descriptors of a process, as POSIX has them: each leads to an open file, several
may lead to the same one, and each has a mark of its own that closes it on exec. Open
files have identities, so that two descriptors share one exactly when they lead to the
same identity. The table carries the proof that a new identity is not in use.
-/

namespace Foundation

/-- Where a descriptor leads, and whether it is closed on exec. -/
structure Slot where
  file : ℕ
  cloexec : Bool
  deriving DecidableEq

/-- Descriptors over the numbers `ι`, and what is known of the open files. -/
@[ext]
structure DescriptorTable (ι δ : Type) where
  slots : ι → Option Slot
  files : ℕ → δ
  fresh : ℕ
  inUse : ∀ fd slot, slots fd = some slot → slot.file < fresh

namespace DescriptorTable

variable {ι δ : Type}

/-- No descriptor is open. -/
def empty (file : δ) : DescriptorTable ι δ where
  slots := fun _ => none
  files := fun _ => file
  fresh := 0
  inUse := by simp

/-- Both descriptors are open and lead to the same open file. -/
def Shares (table : DescriptorTable ι δ) (first second : ι) : Prop :=
  ∃ slot other, table.slots first = some slot ∧ table.slots second = some other ∧
    slot.file = other.file

/-- The descriptor is open on a file of which this is known. -/
def LeadsTo (table : DescriptorTable ι δ) (fd : ι) (file : δ) : Prop :=
  ∃ slot, table.slots fd = some slot ∧ table.files slot.file = file

/-- The descriptor is open and has this mark. -/
def HasMark (table : DescriptorTable ι δ) (fd : ι) (mark : Bool) : Prop :=
  ∃ slot, table.slots fd = some slot ∧ slot.cloexec = mark

/-- Sharing only depends on the two descriptors. -/
theorem shares_congr {table after : DescriptorTable ι δ} {first second : ι}
    (sameFirst : after.slots first = table.slots first)
    (sameSecond : after.slots second = table.slots second) :
    after.Shares first second ↔ table.Shares first second := by
  simp only [Shares, sameFirst, sameSecond]

/-- Marks only depend on the descriptor. -/
theorem hasMark_congr {table after : DescriptorTable ι δ} {fd : ι} {mark : Bool}
    (same : after.slots fd = table.slots fd) : after.HasMark fd mark ↔ table.HasMark fd mark := by
  simp only [HasMark, same]

theorem Shares.symm {table : DescriptorTable ι δ} {first second : ι}
    (shares : table.Shares first second) : table.Shares second first := by
  rcases shares with ⟨slot, otherSlot, here, there, same⟩
  exact ⟨otherSlot, slot, there, here, same.symm⟩

theorem Shares.trans {table : DescriptorTable ι δ} {first second third : ι}
    (shares : table.Shares first second) (more : table.Shares second third) :
    table.Shares first third := by
  rcases shares with ⟨slot, middle, here, there, same⟩
  rcases more with ⟨middle', last, there', beyond, same'⟩
  cases there.symm.trans there'
  exact ⟨slot, last, here, beyond, same.trans same'⟩

/-- An open descriptor shares its open file with itself. -/
theorem shares_self {table : DescriptorTable ι δ} {fd : ι} (open_ : (table.slots fd).isSome) :
    table.Shares fd fd := by
  rcases Option.isSome_iff_exists.mp open_ with ⟨slot, here⟩
  exact ⟨slot, slot, here, here, rfl⟩

/-- What is known of an open file is known through every descriptor that leads to it. -/
theorem LeadsTo.of_shares {table : DescriptorTable ι δ} {first second : ι} {file : δ}
    (leadsTo : table.LeadsTo first file) (shares : table.Shares first second) :
    table.LeadsTo second file := by
  rcases leadsTo with ⟨slot, here, same⟩
  rcases shares with ⟨slot', other, here', there, sameFile⟩
  cases here.symm.trans here'
  exact ⟨other, there, sameFile ▸ same⟩

theorem LeadsTo.unique {table : DescriptorTable ι δ} {fd : ι} {file other : δ}
    (leadsTo : table.LeadsTo fd file) (also : table.LeadsTo fd other) : file = other := by
  rcases leadsTo with ⟨slot, here, same⟩
  rcases also with ⟨slot', here', same'⟩
  cases here.symm.trans here'
  exact same.symm.trans same'

/-! ## Operations -/

/-- Close all descriptors with a property. -/
def closeAll (table : DescriptorTable ι δ) (closes : ι → Slot → Bool) : DescriptorTable ι δ where
  slots := fun fd => (table.slots fd).filter fun slot => !closes fd slot
  files := table.files
  fresh := table.fresh
  inUse := by
    intro fd slot here
    exact table.inUse fd slot (Option.filter_eq_some_iff.mp here).1

/-- What is left after an exec. -/
def exec (table : DescriptorTable ι δ) : DescriptorTable ι δ :=
  table.closeAll fun _ slot => slot.cloexec

/-- Change what is known of an open file. -/
def modify (table : DescriptorTable ι δ) (file : ℕ) (change : δ → δ) : DescriptorTable ι δ where
  slots := table.slots
  files := Function.update table.files file (change (table.files file))
  fresh := table.fresh
  inUse := table.inUse

/-- A new open file, which no descriptor leads to yet. -/
def allocate (table : DescriptorTable ι δ) (file : δ) : DescriptorTable ι δ where
  slots := table.slots
  files := Function.update table.files table.fresh file
  fresh := table.fresh + 1
  inUse := fun fd slot here => Nat.lt_succ_of_lt (table.inUse fd slot here)

section

variable [DecidableEq ι]

/-- Let a number lead to a known open file, or nowhere. -/
def setSlot (table : DescriptorTable ι δ) (fd : ι) (target : Option Slot)
    (known : ∀ slot ∈ target, slot.file < table.fresh) : DescriptorTable ι δ where
  slots := Function.update table.slots fd target
  files := table.files
  fresh := table.fresh
  inUse := by
    intro other slot here
    rcases eq_or_ne other fd with rfl | different
    · rw [Function.update_self] at here
      exact known slot here
    · rw [Function.update_of_ne different] at here
      exact table.inUse other slot here

/-- A new open file at a number. -/
def openAt (table : DescriptorTable ι δ) (fd : ι) (file : δ) : DescriptorTable ι δ :=
  (table.allocate file).setSlot fd (some ⟨table.fresh, false⟩) (by simp [allocate])

/-- Let a number lead where another one leads, with a mark of its own. -/
def aim (table : DescriptorTable ι δ) (old new : ι) (cloexec : Bool) : DescriptorTable ι δ :=
  table.setSlot new ((table.slots old).map fun slot => ⟨slot.file, cloexec⟩) (by
    intro slot here
    rcases Option.map_eq_some_iff.mp here with ⟨original, open_, rfl⟩
    exact table.inUse old original open_)

/-- `dup2`, which leaves the mark out. -/
def duplicate (table : DescriptorTable ι δ) (old new : ι) : DescriptorTable ι δ :=
  table.aim old new false

/-- Give a descriptor the mark. -/
def markCloexec (table : DescriptorTable ι δ) (fd : ι) : DescriptorTable ι δ :=
  table.aim fd fd true

def closeOne (table : DescriptorTable ι δ) (fd : ι) : DescriptorTable ι δ :=
  table.setSlot fd none (by simp)

end

/-- The number that an open takes: the lowest one from a first one on that is not in use. -/
def LowestFree [LT ι] [LE ι] (table : DescriptorTable ι δ) (first fd : ι) : Prop :=
  first ≤ fd ∧ table.slots fd = none ∧
    ∀ other, first ≤ other → other < fd → (table.slots other).isSome

/-! ## Descriptors that stay as they are -/

section

variable [DecidableEq ι] {table : DescriptorTable ι δ} {fd other first second : ι} {file : δ}
  {mark : Bool}

theorem slots_openAt_self : (table.openAt fd file).slots fd = some ⟨table.fresh, false⟩ :=
  Function.update_self ..

theorem slots_openAt_of_ne (different : other ≠ fd) :
    (table.openAt fd file).slots other = table.slots other :=
  Function.update_of_ne different ..

theorem slots_aim_self {old : ι} : (table.aim old fd mark).slots fd =
    (table.slots old).map fun slot => ⟨slot.file, mark⟩ :=
  Function.update_self ..

theorem slots_aim_of_ne {old : ι} (different : other ≠ fd) :
    (table.aim old fd mark).slots other = table.slots other :=
  Function.update_of_ne different ..

/-- A new open file leaves what is known of those in use. -/
theorem files_openAt_of_inUse {slot : Slot} (here : table.slots other = some slot) :
    (table.openAt fd file).files slot.file = table.files slot.file :=
  Function.update_of_ne (Nat.ne_of_lt (table.inUse other slot here)) ..

theorem leadsTo_openAt : (table.openAt fd file).LeadsTo fd file :=
  ⟨⟨table.fresh, false⟩, slots_openAt_self, Function.update_self ..⟩

theorem hasMark_openAt : (table.openAt fd file).HasMark fd false :=
  ⟨⟨table.fresh, false⟩, slots_openAt_self, rfl⟩

theorem LeadsTo.openAt {known : δ} (leadsTo : table.LeadsTo other known) (different : other ≠ fd) :
    (table.openAt fd file).LeadsTo other known := by
  rcases leadsTo with ⟨slot, here, same⟩
  exact ⟨slot, (slots_openAt_of_ne different).trans here,
    (files_openAt_of_inUse here).trans same⟩

theorem LeadsTo.aim {known : δ} {old : ι} (leadsTo : table.LeadsTo other known)
    (different : other ≠ fd) : (table.aim old fd mark).LeadsTo other known := by
  rcases leadsTo with ⟨slot, here, same⟩
  exact ⟨slot, (slots_aim_of_ne different).trans here, same⟩

/-- Giving a descriptor another mark leaves where it leads. -/
theorem LeadsTo.aim_self {known : δ} (leadsTo : table.LeadsTo fd known) :
    (table.aim fd fd mark).LeadsTo fd known := by
  rcases leadsTo with ⟨slot, here, same⟩
  refine ⟨⟨slot.file, mark⟩, ?_, same⟩
  rw [slots_aim_self, here]
  rfl

theorem hasMark_aim {old : ι} (open_ : (table.slots old).isSome) :
    (table.aim old fd mark).HasMark fd mark := by
  rcases Option.isSome_iff_exists.mp open_ with ⟨slot, here⟩
  refine ⟨⟨slot.file, mark⟩, ?_, rfl⟩
  rw [slots_aim_self, here]
  rfl

/-- A descriptor that leads where another one leads shares its open file. -/
theorem shares_aim {old : ι} (open_ : (table.slots old).isSome) (different : old ≠ fd) :
    (table.aim old fd mark).Shares old fd := by
  rcases Option.isSome_iff_exists.mp open_ with ⟨slot, here⟩
  refine ⟨slot, ⟨slot.file, mark⟩, (slots_aim_of_ne different).trans here, ?_, rfl⟩
  rw [slots_aim_self, here]
  rfl

/-- Marks do not matter for sharing. -/
theorem shares_aim_self_iff :
    (table.aim fd fd mark).Shares first second ↔ table.Shares first second := by
  have slot_of : ∀ number file', (∃ slot, (table.aim fd fd mark).slots number = some slot ∧
      slot.file = file') ↔ ∃ slot, table.slots number = some slot ∧ slot.file = file' := by
    intro number file'
    rcases eq_or_ne number fd with rfl | different
    · rw [slots_aim_self]
      cases table.slots number with
      | none => simp
      | some slot => simp
    · rw [slots_aim_of_ne different]
  constructor
  · intro shares
    rcases shares with ⟨slot, otherSlot, here, there, same⟩
    rcases (slot_of first slot.file).mp ⟨slot, here, rfl⟩ with ⟨slot', here', same'⟩
    rcases (slot_of second slot.file).mp ⟨otherSlot, there, same.symm⟩ with ⟨other', there', both⟩
    exact ⟨slot', other', here', there', same'.trans both.symm⟩
  · intro shares
    rcases shares with ⟨slot, otherSlot, here, there, same⟩
    rcases (slot_of first slot.file).mpr ⟨slot, here, rfl⟩ with ⟨slot', here', same'⟩
    rcases (slot_of second slot.file).mpr ⟨otherSlot, there, same.symm⟩ with ⟨other', there', both⟩
    exact ⟨slot', other', here', there', same'.trans both.symm⟩

/-- A new open file is shared with nobody. -/
theorem not_shares_openAt (different : other ≠ fd) : ¬(table.openAt fd file).Shares other fd := by
  intro shares
  rcases shares with ⟨slot, new, here, there, same⟩
  rw [slots_openAt_of_ne different] at here
  cases slots_openAt_self.symm.trans there
  exact Nat.ne_of_lt (table.inUse other slot here) same

/-! ## Sets of descriptors that stay as they are -/

/-- These descriptors lead where they did, and what is known of their open files is the same. -/
structure Unchanged (numbers : ι → Prop) (before after : DescriptorTable ι δ) : Prop where
  slots : ∀ fd, numbers fd → after.slots fd = before.slots fd
  files : ∀ fd slot, numbers fd → before.slots fd = some slot →
    after.files slot.file = before.files slot.file

section

variable {numbers : ι → Prop} {before : DescriptorTable ι δ}

omit [DecidableEq ι] in
theorem Unchanged.leadsTo (unchanged : Unchanged numbers before table) (known : numbers fd)
    (leadsTo : before.LeadsTo fd file) : table.LeadsTo fd file := by
  rcases leadsTo with ⟨slot, here, same⟩
  exact ⟨slot, (unchanged.slots fd known).trans here,
    (unchanged.files fd slot known here).trans same⟩

omit [DecidableEq ι] in
theorem unchanged_closeAll {closes : ι → Slot → Bool}
    (stays : ∀ fd slot, numbers fd → closes fd slot = false) :
    Unchanged numbers before (before.closeAll closes) := by
  constructor
  · intro fd known
    cases here : before.slots fd with
    | none => simp [closeAll, here]
    | some slot => simp [closeAll, here, stays fd slot known]
  · intro fd slot _ _
    rfl

theorem Unchanged.openAt (unchanged : Unchanged numbers before table) (elsewhere : ¬numbers fd) :
    Unchanged numbers before (table.openAt fd file) := by
  constructor
  · intro other known
    have different : other ≠ fd := fun same => elsewhere (same ▸ known)
    rw [slots_openAt_of_ne different]
    exact unchanged.slots other known
  · intro other slot known here
    have inUse : table.slots other = some slot := (unchanged.slots other known).trans here
    rw [files_openAt_of_inUse inUse]
    exact unchanged.files other slot known here

theorem Unchanged.aim {old : ι} (unchanged : Unchanged numbers before table)
    (elsewhere : ¬numbers fd) : Unchanged numbers before (table.aim old fd mark) := by
  constructor
  · intro other known
    have different : other ≠ fd := fun same => elsewhere (same ▸ known)
    rw [slots_aim_of_ne different]
    exact unchanged.slots other known
  · exact unchanged.files

end

/-! ## Moving a new descriptor -/

/-- Changing a new open file is opening it that way. -/
theorem modify_openAt (change : δ → δ) :
    (table.openAt fd file).modify table.fresh change = table.openAt fd (change file) := by
  ext1
  · rfl
  · simp only [modify, openAt, setSlot, allocate, Function.update_self, Function.update_idem]
  · rfl

theorem slots_closeOne_self : (table.closeOne fd).slots fd = none :=
  Function.update_self ..

theorem slots_closeOne_of_ne (different : other ≠ fd) :
    (table.closeOne fd).slots other = table.slots other :=
  Function.update_of_ne different ..

/-- A new descriptor that is moved from a free number is as if it was opened where it is. -/
theorem move_openAt {opened : ι} (free : table.slots opened = none) (different : opened ≠ fd) :
    ((table.openAt opened file).duplicate opened fd).closeOne opened = table.openAt fd file := by
  ext1
  · funext other
    rcases eq_or_ne other opened with rfl | notOpened
    · rw [slots_closeOne_self, slots_openAt_of_ne different, free]
    · rw [slots_closeOne_of_ne notOpened]
      rcases eq_or_ne other fd with rfl | notFd
      · rw [duplicate, slots_aim_self, slots_openAt_self, slots_openAt_self]
        rfl
      · rw [duplicate, slots_aim_of_ne notFd, slots_openAt_of_ne notOpened,
          slots_openAt_of_ne notFd]
  · rfl
  · rfl

end

end DescriptorTable

end Foundation
