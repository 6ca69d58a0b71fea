import Ksnap.Engine.Check
import Mathlib.Data.List.Induction

/-!
# The arguments that Check counts

The kernel ends each argument with a NUL. The loop counts the arguments with a character in
them, so that empty ones are lost, and a process whose arguments are all empty is taken for
a kernel thread. The count and the reasons against kernel threads are settled before the
scans, which keep both.
-/

namespace Ksnap

open Foundation

/-- `/proc/<pid>/cmdline` of these arguments. -/
def cmdlineText (argv : List Bytes) : Bytes :=
  argv.flatMap fun arg => arg ++ [0]

/-! ## The loop -/

/-- One argument and its terminator. -/
theorem foldl_countArgument {arg : Bytes} (nulFree : 0 ∉ arg) (counted : ℕ) :
    (arg ++ [0]).foldl countArgument (counted, false) =
      (if arg = [] then counted else counted + 1, false) := by
  have visible : arg.foldl countArgument (counted, false) = (counted, !arg.isEmpty) := by
    induction arg using List.reverseRecOn with
    | nil => rfl
    | append_singleton front character ih =>
        have notNul : character ≠ 0 := fun same => nulFree (by simp [same])
        rw [List.foldl_append, ih fun mem => nulFree (List.mem_append_left _ mem)]
        simp [countArgument, notNul]
  rw [List.foldl_append, visible]
  cases arg with
  | nil => rfl
  | cons character rest => simp [countArgument]

/-- The arguments with a character in them are counted. -/
theorem foldl_countArguments {argv : List Bytes} (nulFree : ∀ arg ∈ argv, 0 ∉ arg) (counted : ℕ) :
    (cmdlineText argv).foldl countArgument (counted, false) =
      (counted + (argv.filter (· ≠ [])).length, false) := by
  induction argv generalizing counted with
  | nil => rfl
  | cons arg argv ih =>
      have others := ih fun other mem => nulFree other (List.mem_cons_of_mem _ mem)
      rw [cmdlineText, List.flatMap_cons, List.foldl_append,
        foldl_countArgument (nulFree arg List.mem_cons_self), ← cmdlineText, others]
      by_cases empty : arg = []
      · simp [empty]
      · simp [empty]
        omega

theorem argc_readCmdlineArgc {argv : List Bytes} (nulFree : ∀ arg ∈ argv, 0 ∉ arg)
    {process : CheckedProcess} (cmdline : process.cmdline = some (cmdlineText argv))
    (report : CheckReport) :
    (readCmdlineArgc process report).argc = (argv.filter (· ≠ [])).length := by
  rw [readCmdlineArgc, cmdline]
  simp [foldl_countArguments nulFree]

/-- Nothing is counted where nothing stands but NULs. -/
theorem foldl_countArgument_eq_zero_iff (raw : Bytes) (counted : ℕ × Bool) :
    (if (raw.foldl countArgument counted).2 then (raw.foldl countArgument counted).1 + 1
      else (raw.foldl countArgument counted).1) = 0 ↔
      counted = (0, false) ∧ ∀ byte ∈ raw, byte = 0 := by
  rcases counted with ⟨count, pending⟩
  induction raw generalizing count pending with
  | nil => cases pending <;> simp
  | cons character raw ih =>
      rw [List.foldl_cons, countArgument, List.forall_mem_cons]
      by_cases isNul : character = 0
      · rw [if_pos isNul, ih]
        cases pending <;> simp [isNul]
      · rw [if_neg isNul, ih]
        simp [isNul]

theorem argc_eq_zero_iff (process : CheckedProcess) {report : CheckReport}
    (fresh : report.argc = 0) : (readCmdlineArgc process report).argc = 0 ↔
      ∀ byte ∈ process.cmdline.getD [], byte = 0 := by
  cases cmdline : process.cmdline with
  | none => simp [readCmdlineArgc, cmdline, fresh]
  | some raw =>
      have none_ := foldl_countArgument_eq_zero_iff raw (0, false)
      simpa [readCmdlineArgc, cmdline] using none_

theorem length_filter_eq_iff {argv : List Bytes} :
    (argv.filter (· ≠ [])).length = argv.length ↔ [] ∉ argv := by
  rw [List.length_filter_eq_length_iff]
  constructor
  · intro visible mem
    exact absurd rfl (of_decide_eq_true (visible [] mem))
  · intro noEmpty arg mem
    exact decide_eq_true fun empty => noEmpty (empty ▸ mem)

/-! ## What the scans keep -/

/-- The arguments are counted, and the process is not taken for a kernel thread. -/
structure UserProcess (argc : ℕ) (report : CheckReport) : Prop where
  argc : report.argc = argc
  reasons : ∀ reason ∈ report.reasons, reason.code ≠ .kernelThread

namespace UserProcess

variable {argc : ℕ} {report : CheckReport} {process : CheckedProcess}

theorem addReason (user : UserProcess argc report) {code : ReasonCode}
    (other : code ≠ .kernelThread) (detail : Bytes) :
    UserProcess argc (addReason report code detail) := by
  rw [Ksnap.addReason]
  split
  · exact user
  · refine ⟨user.argc, ?_⟩
    intro reason mem
    rcases List.mem_append.mp mem with mem | mem
    · exact user.reasons reason mem
    · rw [List.mem_singleton.mp mem]
      exact other

theorem reasonIf (user : UserProcess argc report) (condition : Bool) {code : ReasonCode}
    (other : code ≠ .kernelThread) (detail : Bytes) :
    UserProcess argc (reasonIf condition code detail report) := by
  rw [Ksnap.reasonIf]
  split
  · exact user.addReason other detail
  · exact user

theorem addInaccessible (user : UserProcess argc report) (errno : Errno) (name : Bytes)
    {otherwise : ReasonCode} (other : otherwise ≠ .kernelThread) (detail : Bytes) :
    UserProcess argc (addInaccessible report errno name otherwise detail) := by
  rw [Ksnap.addInaccessible]
  split
  · exact user.addReason (by decide) _
  · exact user.addReason other detail

/-- With an argument counted, the reason against kernel threads is not given. -/
theorem withoutKernelThread (user : UserProcess argc report) (positive : argc ≠ 0)
    (detail : Bytes) :
    UserProcess argc (Ksnap.reasonIf (report.argc = 0) .kernelThread detail report) := by
  rw [Ksnap.reasonIf, if_neg]
  · exact user
  · simpa [user.argc] using positive

theorem cheapVerdicts (user : UserProcess argc report) (positive : argc ≠ 0) :
    UserProcess argc (cheapVerdicts report) := by
  simp only [Ksnap.cheapVerdicts]
  apply withoutKernelThread _ positive
  exact ((user.reasonIf _ (by decide) _).reasonIf _ (by decide) _).reasonIf _ (by decide) _

theorem probeExe (user : UserProcess argc report) : UserProcess argc (probeExe process report) := by
  have withPath : ∀ path, UserProcess argc { report with exePath := path } :=
    fun _ => ⟨user.argc, user.reasons⟩
  rw [Ksnap.probeExe]
  split
  · exact user.addInaccessible _ _ (by decide) _
  · simp only [probeExePath]
    split
    · exact (withPath _).addReason (by decide) _
    · split
      · exact (withPath _).addReason (by decide) _
      · split
        · exact (withPath _).addReason (by decide) _
        · exact withPath _

theorem scanMapsLine {scan : MapsScan} (user : UserProcess argc scan.report) (mapsLine : Bytes) :
    UserProcess argc (scanMapsLine scan mapsLine).report := by
  rw [Ksnap.scanMapsLine]
  split
  · exact user
  · simp only []
    split
    all_goals exact ⟨user.argc, user.reasons⟩

theorem scanMaps (user : UserProcess argc report) : UserProcess argc (scanMaps process report) := by
  rw [Ksnap.scanMaps]
  split
  · exact user.addInaccessible _ _ (by decide) _
  · next file _ =>
    have scanned : UserProcess argc
        ((fgetsLines mapsLineMax file.text).foldl Ksnap.scanMapsLine ⟨report, [], []⟩).report :=
      List.foldlRecOn (motive := fun scan : MapsScan => UserProcess argc scan.report) _ _ user
        fun scan kept mapsLine _ => kept.scanMapsLine mapsLine
    exact ((((scanned.reasonIf _ (by decide) _).reasonIf _ (by decide) _).reasonIf _
      (by decide) _).reasonIf _ (by decide) _).reasonIf _ (by decide) _

theorem scanFdEntry (user : UserProcess argc report) (files : FdFiles) (name : Bytes) :
    UserProcess argc (scanFdEntry files report name) := by
  rw [Ksnap.scanFdEntry]
  split
  · exact user
  · split
    all_goals exact ⟨user.argc, user.reasons⟩

theorem scanFds (user : UserProcess argc report) : UserProcess argc (scanFds process report) := by
  rw [Ksnap.scanFds]
  split
  · exact user
  · exact List.foldlRecOn _ _ user fun _ kept name _ => kept.scanFdEntry process.files name

theorem countChildren (user : UserProcess argc report) :
    UserProcess argc (countChildren process report) := by
  rw [Ksnap.countChildren]
  split
  · exact user
  · exact ⟨user.argc, user.reasons⟩

theorem probeDetach (user : UserProcess argc report) :
    UserProcess argc (probeDetach process report) := by
  rw [Ksnap.probeDetach]
  split
  · exact user
  · have added := user.addReason (show ReasonCode.ptraceRefused ≠ .kernelThread by decide)
    exact ⟨(added _).argc, (added _).reasons⟩

theorem probePtrace (user : UserProcess argc report) :
    UserProcess argc (probePtrace process report) := by
  have probed : UserProcess argc { report with ptraceProbed := true } := ⟨user.argc, user.reasons⟩
  simp only [Ksnap.probePtrace]
  split
  · exact probed.addReason (by decide) _
  · split
    · exact probed.addReason (by decide) _
    · split
      · exact probeDetach ⟨user.argc, user.reasons⟩
      · exact (probed.addReason (by decide) _).probeDetach

end UserProcess

/-! ## The report -/

section

variable {process : CheckedProcess}

theorem reasons_readStatusLine (report : CheckReport) (line : Bytes) :
    (readStatusLine report line).reasons = report.reasons := by
  rw [readStatusLine]
  split
  · rfl
  · next field found =>
    split
    · have mem := List.mem_of_find?_eq_some found
      simp only [statusFields, List.mem_cons, List.not_mem_nil, or_false] at mem
      rcases mem with rfl | rfl | rfl | rfl | rfl | rfl
      all_goals
        next value _ => cases value <;> rfl
    · rfl

/-- A process with counted arguments is reported as a user process, whatever else is found. -/
theorem userProcess_checkOne {text : Bytes} {argc : ℕ} (status : process.status = .ok text)
    (counted : ∀ report, (readCmdlineArgc process report).argc = argc) (positive : argc ≠ 0)
    (probe : Bool) : UserProcess argc (checkOne process probe) := by
  have read : readStatusFields process (.initial process.pid) =
      .ok ((fgetsLines 512 text).foldl readStatusLine (.initial process.pid)) := by
    rw [readStatusFields, status]
  have none_ : ((fgetsLines 512 text).foldl readStatusLine (.initial process.pid)).reasons = [] :=
    List.foldlRecOn (motive := fun report : CheckReport => report.reasons = []) _ _ rfl
      fun report none_ line _ => (reasons_readStatusLine report line).trans none_
  generalize (fgetsLines 512 text).foldl readStatusLine (.initial process.pid) = report
    at read none_
  have start : UserProcess argc (readCmdlineArgc process report) := by
    refine ⟨counted report, ?_⟩
    have kept : (readCmdlineArgc process report).reasons = report.reasons := by
      rw [readCmdlineArgc]
      split <;> rfl
    rw [kept, none_]
    exact fun reason mem => absurd mem List.not_mem_nil
  have cheap := start.cheapVerdicts positive
  simp only [checkOne, beforeScans, read]
  by_cases ends : (cheapVerdicts (readCmdlineArgc process report)).reasons.length > 0
  · rw [if_pos ends]
    exact cheap
  · rw [if_neg ends]
    have scanned : UserProcess argc (countChildren process (scanFds process (scanMaps process
        (probeExe process (cheapVerdicts (readCmdlineArgc process report)))))) :=
      cheap.probeExe.scanMaps.scanFds.countChildren
    simp only []
    split
    · exact scanned.probePtrace
    · exact scanned

/-- Without a status there is no reason against a kernel thread either. -/
theorem userProcess_of_unreadable {errno : Errno} (status : process.status = .error errno)
    (probe : Bool) : UserProcess 0 (checkOne process probe) := by
  have start : UserProcess 0 (.initial process.pid) := 
    ⟨rfl, fun reason mem => absurd mem List.not_mem_nil⟩
  simp only [checkOne, beforeScans, readStatusFields, status]
  exact start.addInaccessible errno _ (by decide) _

end

end Ksnap
