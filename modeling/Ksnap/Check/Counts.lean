import Ksnap.Engine.Check
import Ksnap.Snapshot.CollectedFds
import Mathlib.Data.List.Induction

/-!
# What Check counts

The walk over the mappings counts the lines of a class and adds up the sizes of those
that would be dumped. The walk over the descriptors counts those of the class that is
dumped. No other part of Check touches these numbers, and no part takes back a reason.
-/

namespace Ksnap

open Foundation

/-- What Check promises about a dump. -/
structure CheckCounts where
  dumpableVmas : UInt32
  kernelMaps : UInt32
  snapshotBytes : UInt64
  dumpableFds : ℕ

def CheckReport.counts (report : CheckReport) : CheckCounts :=
  ⟨report.dumpableVmas, report.kernelMaps, report.snapshotBytes, report.dumpableFds⟩

/-- The bytes of the mappings that are dumped. -/
def dumpedBytes (lines : List Bytes) : ℕ :=
  ((linesOf .dump lines).map fun parsed => (parsed.stop - parsed.start).toNat).sum

/-- The numbers that belong to some lines and so many descriptors. -/
def countsOf (lines : List Bytes) (dumpableFds : ℕ) : CheckCounts where
  dumpableVmas := UInt32.ofNat (linesOf .dump lines).length
  kernelMaps := UInt32.ofNat (linesOf .kernel lines).length
  snapshotBytes := UInt64.ofNat (dumpedBytes lines)
  dumpableFds := dumpableFds

/-! ## Reasons -/

section

variable (report : CheckReport) (code : ReasonCode) (detail : Bytes)

theorem reasons_addReason_ne_nil : (addReason report code detail).reasons ≠ [] := by
  unfold addReason
  split
  · rename_i full
    intro none_
    simp [none_, maxReasons] at full
  · simp

/-- Without a reason in the end there was none before, and the condition did not hold. -/
@[simp]
theorem reasons_reasonIf_eq_nil_iff (condition : Bool) :
    (reasonIf condition code detail report).reasons = [] ↔
      condition = false ∧ report.reasons = [] := by
  cases condition with
  | false => simp [reasonIf]
  | true => simp [reasonIf, reasons_addReason_ne_nil]

theorem reasons_addInaccessible_ne_nil (errno : Errno) (name : Bytes) :
    (addInaccessible report errno name code detail).reasons ≠ [] := by
  unfold addInaccessible
  split
  · exact reasons_addReason_ne_nil _ _ _
  · exact reasons_addReason_ne_nil _ _ _

end

/-! ## What only the scans change -/

/-- A part of the report that changes in the walks over mappings and descriptors only. -/
structure OnlyScanned {α : Type} (view : CheckReport → α) : Prop where
  reasons : ∀ report reasons, view { report with reasons := reasons } = view report
  status : ∀ field ∈ statusFields, ∀ value report, view (field.store value report) = view report
  argc : ∀ report argc, view { report with argc := argc } = view report
  exePath : ∀ report exePath, view { report with exePath := exePath } = view report

namespace OnlyScanned

variable {α : Type} {view : CheckReport → α}

section

variable (scanned : OnlyScanned view) (report : CheckReport)

include scanned

theorem addReason (code : ReasonCode) (detail : Bytes) :
    view (addReason report code detail) = view report := by
  unfold Ksnap.addReason
  split
  · rfl
  · exact scanned.reasons _ _

theorem reasonIf (condition : Bool) (code : ReasonCode) (detail : Bytes) :
    view (reasonIf condition code detail report) = view report := by
  unfold Ksnap.reasonIf
  split
  · exact scanned.addReason report code detail
  · rfl

theorem addInaccessible (errno : Errno) (name : Bytes) (otherwise : ReasonCode)
    (detail : Bytes) : view (addInaccessible report errno name otherwise detail) = view report := by
  unfold Ksnap.addInaccessible
  split
  · exact scanned.addReason _ _ _
  · exact scanned.addReason _ _ _

theorem readStatusLine (line : Bytes) : view (readStatusLine report line) = view report := by
  unfold Ksnap.readStatusLine
  split
  · rfl
  · rename_i field found
    split
    · exact scanned.status field (List.mem_of_find?_eq_some found) _ report
    · rfl

theorem readStatusLines (lines : List Bytes) :
    view (lines.foldl Ksnap.readStatusLine report) = view report := by
  induction lines generalizing report with
  | nil => rfl
  | cons line lines ih =>
      rw [List.foldl_cons, ih]
      exact scanned.readStatusLine report line

theorem readCmdlineArgc (process : CheckedProcess) :
    view (readCmdlineArgc process report) = view report := by
  unfold Ksnap.readCmdlineArgc
  split
  · rfl
  · exact scanned.argc _ _

theorem cheapVerdicts : view (cheapVerdicts report) = view report := by
  simp only [Ksnap.cheapVerdicts, scanned.reasonIf]

theorem probeExePath (process : CheckedProcess) (raw : Bytes) :
    view (probeExePath process raw report) = view report := by
  simp only [Ksnap.probeExePath]
  split
  · rw [scanned.addReason, scanned.exePath]
  · split
    · rw [scanned.addReason, scanned.exePath, scanned.exePath]
    · split
      · rw [scanned.addReason, scanned.exePath]
      · exact scanned.exePath _ _

theorem probeExe (process : CheckedProcess) : view (probeExe process report) = view report := by
  unfold Ksnap.probeExe
  split
  · exact scanned.addInaccessible _ _ _ _ _
  · exact scanned.probeExePath report process _

end

/-- Before the scans everything of this kind is as it was in the beginning. -/
theorem beforeScans (scanned : OnlyScanned view) {process : CheckedProcess} {report : CheckReport}
    (continues : beforeScans process = .ok report) : view report = view (.initial process.pid) := by
  unfold Ksnap.beforeScans readStatusFields at continues
  cases status : process.status with
  | error errno => simp [status] at continues
  | ok text =>
      simp only [status] at continues
      split at continues
      · cases continues
      · cases continues
        rw [scanned.cheapVerdicts, scanned.readCmdlineArgc, scanned.readStatusLines]

end OnlyScanned

/-- What is no part of a reason, the status, the arguments and the executable's path. -/
theorem onlyScanned_of_kept {α : Type} {view : CheckReport → α}
    (kept : ∀ (report : CheckReport) reasons comm state uid threads tracerPid rssKb argc exePath,
      view { report with reasons, comm, state, uid, threads, tracerPid, rssKb, argc, exePath } =
        view report) : OnlyScanned view := by
  refine ⟨fun report _ => kept report _ _ _ _ _ _ _ _ _, ?_,
    fun report _ => kept report _ _ _ _ _ _ _ _ _, fun report _ => kept report _ _ _ _ _ _ _ _ _⟩
  intro field mem value report
  simp only [statusFields, List.mem_cons, List.not_mem_nil, or_false] at mem
  rcases mem with rfl | rfl | rfl | rfl | rfl | rfl
  all_goals cases value <;> exact kept report _ _ _ _ _ _ _ _ _

theorem onlyScanned_counts : OnlyScanned CheckReport.counts :=
  onlyScanned_of_kept fun _ _ _ _ _ _ _ _ _ _ => rfl

@[simp]
theorem counts_reasonIf (report : CheckReport) (code : ReasonCode) (detail : Bytes)
    (condition : Bool) : (reasonIf condition code detail report).counts = report.counts :=
  onlyScanned_counts.reasonIf report condition code detail

/-- A process that is out of scope has a reason. -/
theorem reasons_of_beforeScans {process : CheckedProcess} {report : CheckReport}
    (ends : beforeScans process = .error report) : report.reasons ≠ [] := by
  unfold beforeScans readStatusFields at ends
  cases status : process.status with
  | error errno =>
      simp only [status, Except.error.injEq] at ends
      rw [← ends]
      exact reasons_addInaccessible_ne_nil _ _ _ _ _
  | ok text =>
      simp only [status] at ends
      split at ends
      · rename_i some_
        cases ends
        exact List.ne_nil_of_length_pos some_
      · cases ends

/-- Nothing is counted before the mappings are. -/
theorem counts_probeExe {process : CheckedProcess} {report : CheckReport}
    (continues : beforeScans process = .ok report) :
    (probeExe process report).counts = countsOf [] 0 := by
  rw [onlyScanned_counts.probeExe, onlyScanned_counts.beforeScans continues]
  rfl

/-! ## Mappings -/

/-- One line is counted under its class. -/
theorem counts_scanMapsLine {scan : MapsScan} {seen : List Bytes} {dumpableFds : ℕ}
    (counted : scan.report.counts = countsOf seen dumpableFds) (mapsLine : Bytes) :
    (scanMapsLine scan mapsLine).report.counts =
      countsOf (seen ++ [mapsLine]) dumpableFds := by
  simp only [CheckReport.counts, countsOf, CheckCounts.mk.injEq] at counted
  rcases counted with ⟨vmas, kernelMaps, bytes, fds⟩
  unfold scanMapsLine
  split
  · rename_i fails
    simp only [CheckReport.counts, countsOf, dumpedBytes, linesOf_append,
      linesOf_unparsable fails, vmas, kernelMaps, bytes, fds]
    simp
  · rename_i parsed parses
    split
    all_goals
      rename_i class_
      simp only [CheckReport.counts, countsOf, dumpedBytes, linesOf_append,
        linesOf_singleton parses, class_, vmas, kernelMaps, bytes, fds]
      simp

theorem counts_scanMapsLines {report : CheckReport} {dumpableFds : ℕ}
    (counted : report.counts = countsOf [] dumpableFds) (lines : List Bytes) :
    (lines.foldl scanMapsLine ⟨report, [], []⟩).report.counts = countsOf lines dumpableFds := by
  induction lines using List.reverseRecOn with
  | nil => exact counted
  | append_singleton seen mapsLine ih =>
      rw [List.foldl_append]
      exact counts_scanMapsLine ih mapsLine

theorem counts_mapsVerdicts (readFails : Bool) (scan : MapsScan) :
    (mapsVerdicts readFails scan).counts = scan.report.counts := by
  simp [mapsVerdicts]

/-! ## Descriptors -/

theorem counts_scanFdEntry {files : FdFiles} {report : CheckReport} {lines seen : List Bytes}
    (counted : report.counts = countsOf lines (dumpedFds files seen).length) (name : Bytes) :
    (scanFdEntry files report name).counts =
      countsOf lines (dumpedFds files (seen ++ [name])).length := by
  simp only [CheckReport.counts, countsOf, CheckCounts.mk.injEq] at counted
  rcases counted with ⟨vmas, kernelMaps, bytes, fds⟩
  rw [dumpedFds_append, dumpedFds_singleton]
  unfold scanFdEntry
  split
  · rename_i notDigit
    simp_all [CheckReport.counts, countsOf]
  · split
    all_goals simp_all [CheckReport.counts, countsOf]

theorem counts_scanFdEntries {files : FdFiles} {report : CheckReport} {lines : List Bytes}
    (counted : report.counts = countsOf lines 0) (names : List Bytes) :
    (names.foldl (scanFdEntry files) report).counts =
      countsOf lines (dumpedFds files names).length := by
  induction names using List.reverseRecOn with
  | nil => exact counted
  | append_singleton seen name ih =>
      rw [List.foldl_append]
      exact counts_scanFdEntry ih name

/-! ## The report -/

theorem counts_probePtrace (process : CheckedProcess) (report : CheckReport) :
    (probePtrace process report).counts = report.counts := by
  have detach : ∀ report, (probeDetach process report).counts = report.counts := by
    intro report
    unfold probeDetach
    split
    · rfl
    · exact onlyScanned_counts.addReason report _ _
  unfold probePtrace
  repeat' split
  all_goals simp [detach, onlyScanned_counts.addReason]
  all_goals rfl

/-- The scans of Check are reached and complete. -/
structure ScansComplete (process : CheckedProcess) (maps : MapsFile) (names : List Bytes) :
    Prop where
  reached : ∃ report, beforeScans process = .ok report
  maps : process.maps = .ok maps
  names : process.files.directory = some names

/-- What a report says after complete scans. -/
theorem counts_checkOne {process : CheckedProcess} {maps : MapsFile} {names : List Bytes}
    (complete : ScansComplete process maps names) (probe : Bool) :
    (checkOne process probe).counts =
      countsOf (fgetsLines mapsLineMax maps.text) (dumpedFds process.files names).length := by
  rcases complete.reached with ⟨report, continues⟩
  have scanned : (scanFds process (scanMaps process (probeExe process report))).counts =
      countsOf (fgetsLines mapsLineMax maps.text) (dumpedFds process.files names).length := by
    simp only [scanFds, complete.names, scanMaps, complete.maps]
    apply counts_scanFdEntries
    rw [counts_mapsVerdicts]
    exact counts_scanMapsLines (counts_probeExe continues) _
  have children : ∀ report, (countChildren process report).counts = report.counts := by
    intro report
    unfold countChildren
    split <;> rfl
  simp only [checkOne, continues]
  split
  · rw [counts_probePtrace, children]
    exact scanned
  · rw [children]
    exact scanned

end Ksnap
