import Ksnap.Check.Agreement
import Ksnap.Check.Promise
import Ksnap.Engine.CheckMode

/-!
# Runs of Check

Where the kernel's answers are those of a `/proc` that does not change while it is looked at, Check
comes to an end, prints the report of each process it is asked about, and exits with the code for
it. A sweep leaves out the engine itself and what is no process.
-/

namespace Ksnap

open Foundation Foundation.Program

/-! ## Processes that are answered for -/

/-- What the kernel says of every process, while Check runs. -/
structure ProcFs where
  names : Option (List Bytes)
  self : Int32
  access : Bytes → Option Errno
  process : Int32 → CheckedProcess
  pid_eq : ∀ pid, (process pid).pid = pid
  access_eq : ∀ pid, (process pid).access = access

/-- The answers of a `/proc`. -/
def ProcFs.Answers (proc : ProcFs) : CheckEvent → Prop
  | ⟨.openProc, reply⟩ => reply = proc.names
  | ⟨.getPid, reply⟩ => reply = proc.self
  | ⟨.readStatus pid, reply⟩ => reply = (proc.process pid).status
  | ⟨.readCmdline pid, reply⟩ => reply = (proc.process pid).cmdline
  | ⟨.readExe pid, reply⟩ => reply = (proc.process pid).exe
  | ⟨.access path, reply⟩ => reply = proc.access path
  | ⟨.readMaps pid, reply⟩ => reply = (proc.process pid).maps
  | ⟨.readFds pid, reply⟩ => reply = (proc.process pid).files
  | ⟨.readChildren pid, reply⟩ => reply = (proc.process pid).children
  | ⟨.seize pid, reply⟩ => reply = (proc.process pid).seize
  | ⟨.interrupt pid, reply⟩ => reply = (proc.process pid).interrupt
  | ⟨.waitStop pid, reply⟩ => reply = (proc.process pid).waitStop
  | ⟨.detach pid, reply⟩ => reply = (proc.process pid).detach
  | ⟨.printReport _, _⟩ => True

/-- What a call prints. -/
def printedBy : CheckCall → List CheckReport
  | .printReport report => [report]
  | _ => []

/-- Check among these processes, with the reports it has printed. -/
abbrev procWorld (proc : ProcFs) : Environment CheckInterface where
  State := List CheckReport
  step := fun printed request reply after =>
    proc.Answers ⟨request, reply⟩ ∧ after = printed ++ printedBy request

/-- The exit code for a report. -/
def exitCodeOf (report : CheckReport) : ℤ :=
  if report.reasons.length = 0 then checkExitDumpable else checkExitBlocked

variable {proc : ProcFs} {printed : List CheckReport}

theorem finishes_perform {request : CheckCall} {post : request.Reply → List CheckReport → Prop}
    (holds : ∀ reply, proc.Answers ⟨request, reply⟩ → post reply (printed ++ printedBy request)) :
    request.perform.Finishes (procWorld proc) post printed := by
  rintro reply _ ⟨answer, rfl⟩
  exact holds reply answer

theorem finishes_probeExe (pid : Int32) (report : CheckReport) :
    (CheckMode.probeExe pid report).Finishes (procWorld proc)
      (fun result after => result = probeExe (proc.process pid) report ∧ after = printed)
      printed := by
  rw [CheckMode.probeExe, finishes_bind]
  apply finishes_perform
  rintro exe rfl
  rw [probeExe]
  cases proc.process pid |>.exe with
  | error errno => exact ⟨rfl, List.append_nil _⟩
  | ok link =>
      dsimp only
      split
      · rw [finishes_bind]
        apply finishes_perform
        rintro denied rfl
        refine ⟨?_, by simp [printedBy]⟩
        simp only [probeExePath, proc.access_eq]
      · next asks =>
        refine ⟨?_, by simp [printedBy]⟩
        simp only [CheckMode.asksAccess, Bool.and_eq_true, decide_eq_true_eq, Bool.not_eq_true',
          not_and, Bool.not_eq_false] at asks
        simp only [probeExePath]
        split
        · rfl
        · next some_ => rw [if_pos (asks some_), if_pos (asks some_)]

theorem finishes_probePtrace (pid : Int32) (report : CheckReport) :
    (CheckMode.probePtrace pid report).Finishes (procWorld proc)
      (fun result after => result = probePtrace (proc.process pid) report ∧ after = printed)
      printed := by
  rw [CheckMode.probePtrace, finishes_bind]
  apply finishes_perform
  intro seized seizes
  have seize : (proc.process pid).seize = seized := seizes.symm
  cases seized with
  | some errno =>
      refine ⟨?_, List.append_nil _⟩
      simp only [probePtrace, seize]
  | none =>
      dsimp only
      rw [finishes_bind]
      apply finishes_perform
      intro interrupted interrupts
      have interrupt : (proc.process pid).interrupt = interrupted := interrupts.symm
      cases interrupted with
      | some errno =>
          dsimp only
          rw [finishes_bind]
          apply finishes_perform
          intro detached _
          refine ⟨?_, by simp [printedBy]⟩
          simp only [probePtrace, seize, interrupt]
          rfl
      | none =>
          dsimp only
          rw [finishes_bind]
          apply finishes_perform
          rintro stopped rfl
          rw [finishes_bind]
          apply finishes_perform
          rintro detached rfl
          refine ⟨?_, by simp [printedBy]⟩
          simp only [probePtrace, seize, interrupt]
          rfl

/-- What a check of one process comes to. -/
def Concludes (process : CheckedProcess) (probe : Bool) (printed : List CheckReport) (code : ℤ)
    (after : List CheckReport) : Prop :=
  after = printed ++ [checkOne process probe] ∧ code = exitCodeOf (checkOne process probe)

theorem beforeScans_error {process : CheckedProcess} {report : CheckReport}
    (read : readStatusFields process (.initial process.pid) = .error report) :
    beforeScans process = .error report := by
  rw [beforeScans, read]

theorem beforeScans_ok {process : CheckedProcess} {report : CheckReport}
    (read : readStatusFields process (.initial process.pid) = .ok report) :
    beforeScans process =
      if (cheapVerdicts (readCmdlineArgc process report)).reasons.length > 0 then
        .error (cheapVerdicts (readCmdlineArgc process report))
      else .ok (cheapVerdicts (readCmdlineArgc process report)) := by
  rw [beforeScans, read]

theorem finishes_conclude {process : CheckedProcess} {report : CheckReport}
    (before : beforeScans process = .error report) (probe : Bool) :
    (CheckMode.conclude report checkExitBlocked).Finishes (procWorld proc)
      (Concludes process probe printed) printed := by
  have whole : checkOne process probe = report := by rw [checkOne, before]
  have some_ : report.reasons.length ≠ 0 := by
    rw [ne_eq, List.length_eq_zero_iff]
    exact reasons_of_beforeScans before
  apply finishes_perform
  rintro reply _
  rw [Concludes, whole, exitCodeOf, if_neg some_]
  exact ⟨rfl, rfl⟩

theorem checkOne_of_before {process : CheckedProcess} {report : CheckReport}
    (before : beforeScans process = .ok report) (probe : Bool) :
    checkOne process probe =
      let scanned :=
        countChildren process (scanFds process (scanMaps process (probeExe process report)))
      if probe && scanned.reasons.length = 0 then probePtrace process scanned else scanned := by
  rw [checkOne, before]

theorem finishes_probeClean (pid : Int32) (probe : Bool) (report : CheckReport) :
    (CheckMode.probeClean pid probe report).Finishes (procWorld proc)
      (fun result after => result = (if probe && report.reasons.length = 0 then
        probePtrace (proc.process pid) report else report) ∧ after = printed) printed := by
  rw [CheckMode.probeClean]
  split
  · exact finishes_probePtrace pid report
  · exact ⟨rfl, rfl⟩

theorem finishes_scanProcess {pid : Int32} {report : CheckReport}
    (before : beforeScans (proc.process pid) = .ok report) (probe : Bool) :
    (CheckMode.scanProcess pid probe report).Finishes (procWorld proc)
      (Concludes (proc.process pid) probe printed) printed := by
  rw [CheckMode.scanProcess, finishes_bind]
  refine (finishes_probeExe pid report).mono ?_
  rintro _ after ⟨rfl, same⟩
  rw [same, finishes_bind]
  apply finishes_perform
  rintro maps rfl
  rw [finishes_bind]
  apply finishes_perform
  rintro files rfl
  rw [finishes_bind]
  apply finishes_perform
  rintro children rfl
  have nothing : printed ++ printedBy (.readMaps pid) ++ printedBy (.readFds pid) ++
      printedBy (.readChildren pid) = printed := by simp [printedBy]
  rw [nothing, finishes_bind]
  have whole := checkOne_of_before before probe
  refine (finishes_probeClean pid probe _).mono ?_
  rintro result after ⟨probed, same⟩
  have final : result = checkOne (proc.process pid) probe := probed.trans whole.symm
  rw [final, same]
  exact finishes_perform fun _ _ => ⟨rfl, rfl⟩

/-- A check of one process comes to an end, with one report on it. -/
theorem finishes_checkOne (pid : Int32) (probe : Bool) :
    (CheckMode.checkOne pid probe).Finishes (procWorld proc)
      (Concludes (proc.process pid) probe printed) printed := by
  rw [CheckMode.checkOne, finishes_bind]
  apply finishes_perform
  rintro status rfl
  have fields : readStatusFields { unasked pid with status := (proc.process pid).status }
      (.initial pid) = readStatusFields (proc.process pid) (.initial pid) := rfl
  rw [fields]
  have nothing : printed ++ printedBy (.readStatus pid) = printed := by simp [printedBy]
  rw [nothing]
  cases read : readStatusFields (proc.process pid) (.initial pid) with
  | error report =>
      have own : readStatusFields (proc.process pid) (.initial (proc.process pid).pid) =
          .error report := by
        rw [proc.pid_eq]
        exact read
      exact finishes_conclude (beforeScans_error own) probe
  | ok report =>
      dsimp only
      rw [finishes_bind]
      apply finishes_perform
      rintro cmdline rfl
      have counted : readCmdlineArgc { unasked pid with cmdline := (proc.process pid).cmdline }
          report = readCmdlineArgc (proc.process pid) report := rfl
      have none_ : printed ++ printedBy (.readCmdline pid) = printed := by simp [printedBy]
      rw [counted, none_]
      have own : readStatusFields (proc.process pid) (.initial (proc.process pid).pid) =
          .ok report := by
        rw [proc.pid_eq]
        exact read
      have before := beforeScans_ok own
      generalize cheapVerdicts (readCmdlineArgc (proc.process pid) report) = settled at before ⊢
      by_cases refused : settled.reasons.length > 0
      · rw [if_pos refused] at before ⊢
        exact finishes_conclude before probe
      · rw [if_neg refused] at before ⊢
        exact finishes_scanProcess before probe

/-! ## The process of a report -/

theorem onlyScanned_pid : OnlyScanned CheckReport.pid :=
  onlyScanned_of_kept fun _ _ _ _ _ _ _ _ _ _ => rfl

theorem pid_beforeScans (process : CheckedProcess) :
    (match beforeScans process with
      | .error report => report
      | .ok report => report).pid = process.pid := by
  cases read : readStatusFields process (.initial process.pid) with
  | error report =>
      rw [beforeScans_error read]
      rw [readStatusFields] at read
      split at read
      · cases read
        exact onlyScanned_pid.addInaccessible _ _ _ _ _
      · cases read
  | ok report =>
      have fields : report.pid = process.pid := by
        rw [readStatusFields] at read
        split at read
        · cases read
        · cases read
          exact onlyScanned_pid.readStatusLines _ _
      have settled : (cheapVerdicts (readCmdlineArgc process report)).pid = process.pid := by
        rw [onlyScanned_pid.cheapVerdicts, onlyScanned_pid.readCmdlineArgc, fields]
      rw [beforeScans_ok read]
      generalize cheapVerdicts (readCmdlineArgc process report) = final at settled ⊢
      by_cases some_ : final.reasons.length > 0
      · rw [if_pos some_]
        exact settled
      · rw [if_neg some_]
        exact settled

theorem pid_scanMaps (process : CheckedProcess) (report : CheckReport) :
    (scanMaps process report).pid = report.pid := by
  rw [scanMaps]
  split
  · exact onlyScanned_pid.addInaccessible _ _ _ _ _
  · next file _ =>
    have scanned : ((fgetsLines mapsLineMax file.text).foldl scanMapsLine
        ⟨report, [], []⟩).report.pid = report.pid := by
      refine List.foldlRecOn (motive := fun scan : MapsScan => scan.report.pid = report.pid) _ _ rfl
        fun scan kept mapsLine _ => ?_
      rw [scanMapsLine]
      split
      · exact kept
      · dsimp only
        split <;> exact kept
    simp only [mapsVerdicts, onlyScanned_pid.reasonIf]
    exact scanned

theorem pid_scanFds (process : CheckedProcess) (report : CheckReport) :
    (scanFds process report).pid = report.pid := by
  rw [scanFds]
  split
  · rfl
  · next names _ =>
    refine List.foldlRecOn (motive := fun scanned : CheckReport => scanned.pid = report.pid) _ _ rfl
      fun scanned kept name _ => ?_
    rw [scanFdEntry]
    split
    · exact kept
    · split <;> exact kept

theorem pid_probePtrace (process : CheckedProcess) (report : CheckReport) :
    (probePtrace process report).pid = report.pid := by
  have detach : ∀ report, (probeDetach process report).pid = report.pid := by
    intro report
    rw [probeDetach]
    split
    · rfl
    · exact onlyScanned_pid.addReason report _ _
  simp only [probePtrace]
  split
  · exact onlyScanned_pid.addReason _ _ _
  · split
    · exact onlyScanned_pid.addReason _ _ _
    · split
      · exact detach _
      · exact (detach _).trans (onlyScanned_pid.addReason _ _ _)

/-- A report is on the process that was asked about. -/
theorem pid_checkOne (process : CheckedProcess) (probe : Bool) :
    (checkOne process probe).pid = process.pid := by
  have before := pid_beforeScans process
  rw [checkOne]
  cases ends : beforeScans process with
  | error report =>
      rw [ends] at before
      exact before
  | ok report =>
      rw [ends] at before
      have scanned : (countChildren process (scanFds process (scanMaps process
          (probeExe process report)))).pid = process.pid := by
        have children : ∀ report, (countChildren process report).pid = report.pid := by
          intro report
          rw [countChildren]
          split <;> rfl
        rw [children, pid_scanFds, pid_scanMaps, onlyScanned_pid.probeExe]
        exact before
      dsimp only
      split
      · exact (pid_probePtrace _ _).trans scanned
      · exact scanned

/-! ## A sweep -/

/-- The processes that a sweep reports on. -/
def sweptPids (self : Int32) (names : List Bytes) : List Int32 :=
  (names.filter fun name => startsWithDigit name && 0 < atoi name && atoi name ≠ self).map atoi

theorem finishes_checkEntries (self : Int32) (names : List Bytes) :
    (CheckMode.checkEntries self names).Finishes (procWorld proc)
      (fun _ after => after = printed ++ (sweptPids self names).map fun pid =>
        checkOne (proc.process pid) false) printed := by
  induction names generalizing printed with
  | nil => exact (List.append_nil _).symm
  | cons name names ih =>
      rw [CheckMode.checkEntries, finishes_bind, CheckMode.checkEntry]
      split
      · next swept =>
        rw [finishes_bind]
        refine (finishes_checkOne (atoi name) false).mono ?_
        rintro code after ⟨same, _⟩
        refine ih.mono ?_
        rintro _ final rfl
        rw [same, sweptPids, sweptPids, List.filter_cons, if_pos swept, List.append_assoc]
        rfl
      · next skipped =>
        refine ih.mono ?_
        rintro _ final rfl
        rw [sweptPids, sweptPids, List.filter_cons, if_neg skipped]

/-- What `check` comes to. -/
def CheckEnds (proc : ProcFs) (pid : Int32) (code : ℤ) (reports : List CheckReport) : Prop :=
  if pid = -1 then
    match proc.names with
    | none => code = checkExitError ∧ reports = []
    | some names => code = checkExitDumpable ∧
        reports = (sweptPids proc.self names).map fun pid => checkOne (proc.process pid) false
  else code = exitCodeOf (checkOne (proc.process pid) true) ∧
    reports = [checkOne (proc.process pid) true]

theorem finishes_check (proc : ProcFs) (pid : Int32) :
    (CheckMode.check pid).Finishes (procWorld proc) (CheckEnds proc pid) [] := by
  unfold CheckMode.check CheckEnds
  split
  · rw [CheckMode.checkAll, finishes_bind]
    apply finishes_perform
    rintro names rfl
    cases proc.names with
    | none => exact ⟨rfl, rfl⟩
    | some names =>
        dsimp only
        rw [finishes_bind]
        apply finishes_perform
        rintro self rfl
        rw [finishes_bind]
        refine (finishes_checkEntries proc.self names).mono ?_
        rintro _ after rfl
        exact ⟨rfl, rfl⟩
  · refine (finishes_checkOne pid true).mono ?_
    rintro code after ⟨rfl, rfl⟩
    exact ⟨rfl, rfl⟩

/-- Check always comes to an end. Asked about one process it prints the report on it, asked about
all it prints one report for each process of `/proc` but the engine itself, in their order, and
its exit code says how the report on the one process ended or that `/proc` was read. -/
theorem check_reports (proc : ProcFs) (pid : Int32) :
    (CheckMode.check pid).Finishes (procWorld proc) (CheckEnds proc pid) [] :=
  finishes_check proc pid

end Ksnap
