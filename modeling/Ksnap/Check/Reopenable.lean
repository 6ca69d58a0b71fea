import Ksnap.Engine.Fds

/-!
# The descriptors that a restore can reopen

A descriptor is dumpable when the path that the kernel shows for it leads to the open file.
The engine asks this of the file system, but takes a path that ends like that of a deleted
file for one before it asks.
-/

namespace Ksnap

open Foundation

/-- What the text of a link starts with when no file is behind it. -/
def fdKinds : List Bytes :=
  [ascii "socket:", ascii "pipe:", ascii "anon_inode:"]

/-- The rule: the descriptor is above 2, and its link is readable and leads to the same
regular file that is open. -/
structure Reopenable (files : FdFiles) (fd : Int32) (link : Bytes) : Prop where
  above : 2 < fd
  readable : files.readlink fd = some link
  named : ∀ kind ∈ fdKinds, ¬kind <+: link
  leads : ∃ openFile byPath, files.statLink fd = some openFile ∧ openFile.isRegular = true ∧
    files.statPath link = some byPath ∧ byPath.dev = openFile.dev ∧ byPath.ino = openFile.ino

/-- The kernel cuts no link and has no NUL in one: a longer one cannot be read at all. -/
def LinkFits (files : FdFiles) (fd : Int32) : Prop :=
  ∀ link, files.readlink fd = some link → link.length < pathMax ∧ 0 ∉ link

/-- The text that the kernel appends to the path of a deleted file is at the end. -/
def LooksDeleted (link : Bytes) : Prop :=
  ∃ path, path ≠ [] ∧ link = path ++ deletedSuffix

theorem hasDeletedSuffix_iff {link : Bytes} : hasDeletedSuffix link = true ↔ LooksDeleted link := by
  rw [hasDeletedSuffix, Bool.and_eq_true, decide_eq_true_iff, beq_iff_eq]
  constructor
  · rintro ⟨longer, ends⟩
    refine ⟨link.take (link.length - deletedSuffix.length), ?_, ?_⟩
    · rw [← List.length_pos_iff, List.length_take]
      omega
    · have whole := List.take_append_drop (link.length - deletedSuffix.length) link
      rw [ends] at whole
      exact whole.symm
  · rintro ⟨path, nonempty, rfl⟩
    have length := List.length_pos_iff.mpr nonempty
    rw [List.length_append]
    refine ⟨by omega, ?_⟩
    rw [Nat.add_sub_cancel, List.drop_left]

/-- The three prefixes are tried one after the other. -/
theorem startsWith_kinds_iff (link : Bytes) :
    (startsWith link (ascii "socket:") || startsWith link (ascii "pipe:") ||
      startsWith link (ascii "anon_inode:")) = true ↔ ∃ kind ∈ fdKinds, kind <+: link := by
  simp [fdKinds, startsWith, or_assoc]

section

variable {files : FdFiles} {fd : Int32} {link : Bytes}

/-- A link to an open file that its path leads back to. -/
def LeadsBack (files : FdFiles) (fd : Int32) (link : Bytes) : Prop :=
  ∃ openFile byPath, files.statLink fd = some openFile ∧ openFile.isRegular = true ∧
    files.statPath link = some byPath ∧ byPath.dev = openFile.dev ∧ byPath.ino = openFile.ino

theorem leadsBack_iff {openFile byPath : Stat} (opened : files.statLink fd = some openFile)
    (found : files.statPath link = some byPath) :
    LeadsBack files fd link ↔
      openFile.isRegular = true ∧ byPath.dev = openFile.dev ∧ byPath.ino = openFile.ino := by
  simp [LeadsBack, opened, found]

theorem classifyLink_dump_iff (nulFree : 0 ∉ link) :
    classifyLink files fd link = .dump ↔
      (∀ kind ∈ fdKinds, ¬kind <+: link) ∧ ¬LooksDeleted link ∧ LeadsBack files fd link := by
  rw [classifyLink, cString_of_notMem nulFree]
  by_cases kind : ∃ kind ∈ fdKinds, kind <+: link
  · rw [if_pos ((startsWith_kinds_iff link).mpr kind)]
    rcases kind with ⟨kind, mem, starts⟩
    exact iff_of_false FdClass.noConfusion fun rule => rule.1 kind mem starts
  · rw [if_neg ((startsWith_kinds_iff link).not.mpr kind)]
    have named : ∀ kind ∈ fdKinds, ¬kind <+: link := fun one mem starts => kind ⟨one, mem, starts⟩
    rw [and_iff_right named, ← hasDeletedSuffix_iff]
    cases opened : files.statLink fd with
    | none => simp [LeadsBack, opened]
    | some openFile =>
        dsimp only
        by_cases regular : openFile.isRegular = true
        · by_cases deleted : hasDeletedSuffix link = true
          · simp [regular, deleted]
          · cases found : files.statPath link with
            | none => simp [regular, deleted, LeadsBack, found]
            | some byPath => simp [leadsBack_iff opened found, regular, deleted]
        · simp [regular, LeadsBack, opened]

end

/-! ## The class and the rule -/

variable {files : FdFiles} {fd : Int32}

theorem classifyFd_dump_iff (fits : LinkFits files fd) :
    (classifyFd files fd).1 = .dump ↔ ∃ link, Reopenable files fd link ∧ ¬LooksDeleted link := by
  rw [classifyFd]
  by_cases standard : fd ≤ 2
  · rw [if_pos standard]
    refine iff_of_false FdClass.noConfusion ?_
    rintro ⟨link, rule, -⟩
    exact Int32.not_lt.mpr standard rule.above
  · rw [if_neg standard]
    cases readable : files.readlink fd with
    | none =>
        refine iff_of_false FdClass.noConfusion ?_
        rintro ⟨link, rule, -⟩
        cases readable.symm.trans rule.readable
    | some link =>
        rcases fits link readable with ⟨short, nulFree⟩
        have whole : link.take (pathMax - 1) = link := List.take_of_length_le (by omega)
        simp only [whole, classifyLink_dump_iff nulFree]
        constructor
        · rintro ⟨named, kept, leads⟩
          exact ⟨link, ⟨Int32.not_le.mp standard, readable, named, leads⟩, kept⟩
        · rintro ⟨other, rule, kept⟩
          cases readable.symm.trans rule.readable
          exact ⟨rule.named, kept, rule.leads⟩

/-- The class is that of the rule exactly if a file that could be reopened has no name with
the ending of deleted ones. -/
theorem classifyFd_exact_iff (fits : LinkFits files fd) :
    ((classifyFd files fd).1 = .dump ↔ ∃ link, Reopenable files fd link) ↔
      ∀ link, Reopenable files fd link → ¬LooksDeleted link := by
  rw [classifyFd_dump_iff fits]
  constructor
  · intro exact_ link rule
    rcases exact_.mpr ⟨link, rule⟩ with ⟨other, same, kept⟩
    cases rule.readable.symm.trans same.readable
    exact kept
  · intro kept
    constructor
    · rintro ⟨link, rule, -⟩
      exact ⟨link, rule⟩
    · rintro ⟨link, rule⟩
      exact ⟨link, rule, kept link rule⟩

/-- A process with one open file. -/
def openedAs (path : Bytes) : FdFiles where
  directory := some [ascii "3"]
  readlink := fun _ => some path
  statLink := fun _ => some ⟨1, 5, true⟩
  statPath := fun name => if name = path then some ⟨1, 5, true⟩ else none
  fdinfo := fun _ => none
  kcmp := fun _ _ => none

theorem linkFits_openedAs {path : Bytes} (short : path.length < pathMax) (nulFree : 0 ∉ path) :
    LinkFits (openedAs path) fd := by
  intro link given
  cases given
  exact ⟨short, nulFree⟩

theorem classifyFd_exact_iff_log :
    ((classifyFd (openedAs (ascii "/var/log")) 3).1 = .dump ↔
      ∃ link, Reopenable (openedAs (ascii "/var/log")) 3 link) ↔
        ∀ link, Reopenable (openedAs (ascii "/var/log")) 3 link → ¬LooksDeleted link :=
  classifyFd_exact_iff (linkFits_openedAs (by decide) (by decide))

/-- A regular file whose own name is `a (deleted)`, still where its link says. -/
theorem not_classifyFd_exact :
    ¬ ∀ (files : FdFiles) (fd : Int32), LinkFits files fd →
      ((classifyFd files fd).1 = .dump ↔ ∃ link, Reopenable files fd link) := by
  intro claimed
  have exact_ := claimed (openedAs (ascii "/a (deleted)")) 3
    (linkFits_openedAs (by decide) (by decide))
  have dumped := exact_.mpr ⟨ascii "/a (deleted)", by decide, rfl, by decide,
    ⟨1, 5, true⟩, ⟨1, 5, true⟩, rfl, rfl, rfl, rfl, rfl⟩
  exact absurd dumped (by decide)

end Ksnap
