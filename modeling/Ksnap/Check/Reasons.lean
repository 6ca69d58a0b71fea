import Ksnap.Check.Arguments
import Ksnap.Check.Lost
import Ksnap.Check.StatusText

/-!
# The reasons that Check gives

What Check has against a process, read off the process itself: the reasons of each stage in
their order, where a stage is reached only when the ones before it found nothing. A process
never has more reasons than the report has room for, so that none is lost.
-/

namespace Ksnap

open Foundation

/-! ## What there is against a process -/

/-- A code that is given under a condition. -/
def refusal (condition : Prop) [Decidable condition] (code : ReasonCode) : List ReasonCode :=
  if condition then [code] else []

/-- A file of `/proc` that does not open. -/
def inaccessible (errno : Errno) (otherwise : ReasonCode) : ReasonCode :=
  if errno.denied then .notInspectable else otherwise

/-- What rules a process out from the start: it is not one thread of a live process that
nobody traces, or it shows no argument with a character in it. -/
def scopeRefusals (shown : ShownStatus) (cmdline : Option Bytes) : List ReasonCode :=
  refusal (1 < shown.threads.number) .multiThreaded ++
    (refusal (shown.state.letter = 90 ∨ shown.state.letter = 88) .zombie ++
      (refusal (shown.tracerPid.number ≠ 0) .alreadyTraced ++
        refusal ((cmdline.getD []).all (· = 0)) .kernelThread))

/-- What keeps a restore from running the executable. -/
def exeRefusals (process : CheckedProcess) : List ReasonCode :=
  match process.exe with
  | .error errno => [inaccessible errno .exeUnreadable]
  | .ok link =>
      let path := link.take (pathMax - 1)
      if path = [] then [.exeUnreadable]
      else if hasDeletedSuffix path then [.exeDeleted]
      else refusal ((process.access (cString path)).isSome) .exeNotExecutable

/-- What keeps a dump from copying the memory. -/
def mapsRefusals (process : CheckedProcess) : List ReasonCode :=
  match process.maps with
  | .error errno => [inaccessible errno .gone]
  | .ok file =>
      let lines := fgetsLines mapsLineMax file.text
      refusal (file.readFails = true) .gone ++
        (refusal (linesOf .skipShared lines ≠ []) .sharedMapping ++
          (refusal (deviceLines lines ≠ []) .deviceMapping ++
            (refusal (maxKernelMaps < (linesOf .kernel lines).length) .tooManyKernelMaps ++
              refusal (linesOf .dump lines = []) .noDumpableMapping)))

/-- What keeps the engine from attaching. -/
def attachRefusals (process : CheckedProcess) : List ReasonCode :=
  if process.seize.isSome ∨ process.interrupt.isSome then [.ptraceRefused]
  else refusal (process.waitStop ≠ some true) .ptraceRefused ++
    refusal process.detach.isSome .ptraceRefused

/-- Everything that there is against a process, with what its status shows. -/
def refusals (process : CheckedProcess) (probe : Bool) :
    Except Errno ShownStatus → List ReasonCode
  | .error errno => [inaccessible errno .gone]
  | .ok shown =>
      if scopeRefusals shown process.cmdline ≠ [] then scopeRefusals shown process.cmdline
      else
        let scanned := exeRefusals process ++ mapsRefusals process
        if scanned = [] ∧ probe = true then attachRefusals process else scanned

/-! ## Reasons one by one -/

theorem mem_refusal {condition : Prop} [Decidable condition] {code given : ReasonCode}
    (mem : given ∈ refusal condition code) : given = code ∧ condition := by
  unfold refusal at mem
  split at mem
  · next holds => exact ⟨List.mem_singleton.mp mem, holds⟩
  · cases mem

/-- The reasons of the report have these codes, and are so many at most. -/
structure Gives (report : CheckReport) (codes : List ReasonCode) (most : ℕ) : Prop where
  same : report.reasons.map CheckReason.code = codes
  few : codes.length ≤ most

namespace Gives

variable {report : CheckReport} {codes : List ReasonCode} {most : ℕ}

theorem length_eq_zero_iff (gives : Gives report codes most) :
    report.reasons.length = 0 ↔ codes = [] := by
  rw [← gives.same, List.length_eq_zero_iff, List.map_eq_nil_iff]

theorem of_reasons (gives : Gives report codes most) {other : CheckReport}
    (same : other.reasons = report.reasons) : Gives other codes most :=
  ⟨(congrArg _ same).trans gives.same, gives.few⟩

/-- Where there is room, a reason is put behind the others. -/
theorem addReason (gives : Gives report codes most) (room : most < maxReasons)
    (code : ReasonCode) (detail : Bytes) :
    Gives (addReason report code detail) (codes ++ [code]) (most + 1) := by
  have notFull : report.reasons.length ≠ maxReasons := by
    have few := gives.few
    rw [← gives.same, List.length_map] at few
    omega
  refine ⟨?_, by simpa using gives.few⟩
  rw [Ksnap.addReason, if_neg notFull, List.map_append, gives.same]
  rfl

theorem reasonIf (gives : Gives report codes most) (room : most < maxReasons)
    {condition : Bool} {holds : Prop} [Decidable holds] (same : condition = true ↔ holds)
    (code : ReasonCode) (detail : Bytes) :
    Gives (reasonIf condition code detail report) (codes ++ refusal holds code) (most + 1) := by
  rw [Ksnap.reasonIf, refusal]
  by_cases given : holds
  · rw [if_pos given, if_pos (same.mpr given)]
    exact gives.addReason room code detail
  · rw [if_neg given, if_neg fun isTrue => given (same.mp isTrue), List.append_nil]
    exact ⟨gives.same, Nat.le_succ_of_le gives.few⟩

theorem addInaccessible (gives : Gives report codes most) (room : most < maxReasons)
    (errno : Errno) (name : Bytes) (otherwise : ReasonCode) (detail : Bytes) :
    Gives (addInaccessible report errno name otherwise detail)
      (codes ++ [inaccessible errno otherwise]) (most + 1) := by
  rw [Ksnap.addInaccessible, inaccessible]
  split
  · exact gives.addReason room _ _
  · exact gives.addReason room _ _

end Gives

/-- What reasons leave alone. -/
theorem view_reasonIf {α : Type} {view : CheckReport → α}
    (other : ∀ report reasons, view { report with reasons := reasons } = view report)
    (report : CheckReport) (condition : Bool) (code : ReasonCode) (detail : Bytes) :
    view (reasonIf condition code detail report) = view report := by
  unfold reasonIf addReason
  split
  · split
    · rfl
    · exact other _ _
  · rfl

/-! ## Before the scans -/

theorem toInt_number {number : ℕ} (small : number < 2 ^ 31) :
    ((UInt32.ofNat number).toInt32).toInt = number :=
  Int32.toInt_ofNat_of_lt small

theorem gives_cheapVerdicts {shown : ShownStatus} {cmdline : Option Bytes} {report : CheckReport}
    (gives : Gives report [] 0)
    (threads : report.threads = (UInt32.ofNat shown.threads.number).toInt32)
    (state : report.state = shown.state.letter)
    (tracerPid : report.tracerPid = (UInt32.ofNat shown.tracerPid.number).toInt32)
    (argc : report.argc = 0 ↔ ∀ byte ∈ cmdline.getD [], byte = 0) :
    Gives (cheapVerdicts report) (scopeRefusals shown cmdline) 4 := by
  have several : decide (1 < report.threads) = true ↔ 1 < shown.threads.number := by
    rw [decide_eq_true_iff, Int32.lt_iff_toInt_lt, threads, toInt_number shown.threads.small]
    have unit : (1 : Int32).toInt = 1 := rfl
    omega
  have dead : (decide (report.state = 90) || decide (report.state = 88)) = true ↔
      shown.state.letter = 90 ∨ shown.state.letter = 88 := by
    simp [state]
  have traced : decide (report.tracerPid ≠ 0) = true ↔ shown.tracerPid.number ≠ 0 := by
    rw [decide_eq_true_iff, ne_eq, ← Int32.toInt_inj, tracerPid,
      toInt_number shown.tracerPid.small]
    have zero : (0 : Int32).toInt = 0 := rfl
    omega
  have kernel : decide (report.argc = 0) = true ↔ (cmdline.getD []).all (· = 0) := by
    rw [decide_eq_true_iff, argc, List.all_eq_true]
    simp only [decide_eq_true_iff]
  have whole := (((gives.reasonIf (by decide) several .multiThreaded
    (ascii "the dump seizes the main thread only, this process has " ++
      decimal report.threads.toInt)).reasonIf (by decide) dead .zombie
    (ascii "the process is dead, there is no address space to copy")).reasonIf (by decide)
      traced .alreadyTraced (ascii "process " ++ decimal report.tracerPid.toInt ++
        ascii " is tracing it, ptrace allows one tracer")).reasonIf (by decide) kernel .kernelThread
    (ascii "kernel threads own no memory that could be snapshotted")
  simp only [List.nil_append, List.append_assoc] at whole
  simp only [cheapVerdicts, @view_reasonIf _ CheckReport.state fun _ _ => rfl,
    @view_reasonIf _ CheckReport.tracerPid fun _ _ => rfl,
    @view_reasonIf _ CheckReport.argc fun _ _ => rfl]
  exact whole

theorem beforeScans_shown {shown : ShownStatus} {process : CheckedProcess}
    (status : process.status = .ok (statusText shown.lines)) :
    ∃ report, Gives report (scopeRefusals shown process.cmdline) 4 ∧
      beforeScans process = if scopeRefusals shown process.cmdline = [] then .ok report
        else .error report := by
  have fields : readStatusFields process (.initial process.pid) =
      .ok (shown.reported process.pid) := reported_of_shown shown status
  have fresh : (shown.reported process.pid).argc = 0 := rfl
  have argc := argc_eq_zero_iff process fresh
  have kept : ∀ {α : Type} (view : CheckReport → α),
      (∀ report argc, view { report with argc := argc } = view report) →
        view (readCmdlineArgc process (shown.reported process.pid)) =
          view (shown.reported process.pid) := by
    intro α view other
    cases cmdline : process.cmdline with
    | none => rw [readCmdlineArgc, cmdline]
    | some raw =>
        rw [readCmdlineArgc, cmdline]
        exact other _ _
  have initially : Gives (shown.reported process.pid) [] 0 := ⟨rfl, le_rfl⟩
  have gives := gives_cheapVerdicts
    (initially.of_reasons (kept CheckReport.reasons fun _ _ => rfl))
    (kept CheckReport.threads fun _ _ => rfl) (kept CheckReport.state fun _ _ => rfl)
    (kept CheckReport.tracerPid fun _ _ => rfl) argc
  refine ⟨_, gives, ?_⟩
  simp only [beforeScans, fields]
  by_cases none_ : scopeRefusals shown process.cmdline = []
  · rw [if_pos none_, if_neg]
    have noReason := gives.length_eq_zero_iff.mpr none_
    omega
  · rw [if_neg none_, if_pos]
    exact Nat.pos_of_ne_zero fun noReason => none_ (gives.length_eq_zero_iff.mp noReason)

/-! ## Scans -/

theorem gives_probeExe {report : CheckReport} {codes : List ReasonCode} {most : ℕ}
    (gives : Gives report codes most) (room : most < maxReasons) (process : CheckedProcess) :
    Gives (probeExe process report) (codes ++ exeRefusals process) (most + 1) := by
  have withPath : ∀ path, Gives { report with exePath := path } codes most :=
    fun _ => gives.of_reasons rfl
  cases exe : process.exe with
  | error errno =>
      simp only [probeExe, exeRefusals, exe]
      exact gives.addInaccessible room _ _ _ _
  | ok link =>
      simp only [probeExe, exeRefusals, exe, probeExePath, List.length_eq_zero_iff]
      split
      · exact (withPath _).addReason room _ _
      · split
        · exact (withPath _).addReason room _ _
        · cases access : process.access (cString (link.take (pathMax - 1))) with
          | some errno => exact (withPath _).addReason room _ _
          | none =>
              rw [refusal, if_neg (by simp), List.append_nil]
              exact ⟨gives.same, Nat.le_succ_of_le gives.few⟩

theorem ofNat_eq_zero_iff {number : ℕ} (small : number < 2 ^ 32) :
    UInt32.ofNat number = 0 ↔ number = 0 := by
  rw [← UInt32.toNat_inj, UInt32.toNat_ofNat', Nat.mod_eq_of_lt small]
  rfl

theorem length_linesOf_le (vmaClass : VmaClass) (lines : List Bytes) :
    (linesOf vmaClass lines).length ≤ lines.length :=
  (List.length_filter_le _ _).trans (List.length_filterMap_le _ _)

theorem refused_probeExe {process : CheckedProcess} {report : CheckReport}
    (before : beforeScans process = .ok report) :
    (probeExe process report).refused = refusedOf [] := by
  rw [onlyScanned_refused.probeExe, onlyScanned_refused.beforeScans before]
  rfl

theorem gives_scanMaps {process : CheckedProcess} {report : CheckReport} {codes : List ReasonCode}
    {most : ℕ} (gives : Gives (probeExe process report) codes most) (room : most + 4 < maxReasons)
    (before : beforeScans process = .ok report)
    (few : process.mapsLines.length < 2 ^ 32) :
    Gives (scanMaps process (probeExe process report)) (codes ++ mapsRefusals process)
      (most + 5) := by
  cases opened : process.maps with
  | error errno =>
      simp only [scanMaps, mapsRefusals, opened]
      have one := gives.addInaccessible (by omega) errno (ascii "maps") .gone goneDetail
      exact ⟨one.same, one.few.trans (by omega)⟩
  | ok file =>
      simp only [CheckedProcess.mapsLines, opened] at few
      have small : ∀ vmaClass, (linesOf vmaClass (fgetsLines mapsLineMax file.text)).length <
          2 ^ 32 := fun vmaClass => (length_linesOf_le vmaClass _).trans_lt few
      have devices : (deviceLines (fgetsLines mapsLineMax file.text)).length < 2 ^ 32 :=
        (List.length_filter_le _ _).trans_lt (small .dump)
      have refused := refused_scanMapsLines (refused_probeExe before)
        (fgetsLines mapsLineMax file.text)
      have counts := counts_scanMapsLines (counts_probeExe before)
        (fgetsLines mapsLineMax file.text)
      simp only [CheckReport.refused, refusedOf, Prod.mk.injEq] at refused
      simp only [CheckReport.counts, countsOf, CheckCounts.mk.injEq] at counts
      have scanned := gives.of_reasons (reasons_scanMapsLines ⟨probeExe process report, [], []⟩
        (fgetsLines mapsLineMax file.text))
      simp only [scanMaps, mapsRefusals, opened, mapsVerdicts, sharedVmas_reasonIf,
        deviceVmas_reasonIf, kernelMaps_reasonIf, dumpableVmas_reasonIf, refused.1, refused.2,
        counts.1, counts.2.1]
      have counted : ∀ vmaClass, (0 < UInt32.ofNat
          (linesOf vmaClass (fgetsLines mapsLineMax file.text)).length) ↔
            linesOf vmaClass (fgetsLines mapsLineMax file.text) ≠ [] := fun vmaClass => by
        rw [UInt32.pos_iff_ne_zero, ne_eq, ofNat_eq_zero_iff (small vmaClass),
          List.length_eq_zero_iff]
      have shared : decide (0 < UInt32.ofNat (linesOf .skipShared
          (fgetsLines mapsLineMax file.text)).length) = true ↔
            linesOf .skipShared (fgetsLines mapsLineMax file.text) ≠ [] := by
        rw [decide_eq_true_iff, counted]
      have device : decide (0 < UInt32.ofNat (deviceLines
          (fgetsLines mapsLineMax file.text)).length) = true ↔
            deviceLines (fgetsLines mapsLineMax file.text) ≠ [] := by
        rw [decide_eq_true_iff, UInt32.pos_iff_ne_zero, ne_eq, ofNat_eq_zero_iff devices,
          List.length_eq_zero_iff]
      have many : decide (maxKernelMaps < (UInt32.ofNat (linesOf .kernel
          (fgetsLines mapsLineMax file.text)).length).toNat) = true ↔
            maxKernelMaps < (linesOf .kernel (fgetsLines mapsLineMax file.text)).length := by
        rw [decide_eq_true_iff, UInt32.toNat_ofNat', Nat.mod_eq_of_lt (small .kernel)]
      have nothing : decide (UInt32.ofNat (linesOf .dump
          (fgetsLines mapsLineMax file.text)).length = 0) = true ↔
            linesOf .dump (fgetsLines mapsLineMax file.text) = [] := by
        rw [decide_eq_true_iff, ofNat_eq_zero_iff (small .dump), List.length_eq_zero_iff]
      simp only [← List.append_assoc]
      exact ((((scanned.reasonIf (by omega) Iff.rfl _ _).reasonIf (by omega) shared _ _).reasonIf
        (by omega) device _ _).reasonIf (by omega) many _ _).reasonIf (by omega) nothing _ _

/-! ## The probe -/

theorem gives_probeDetach {report : CheckReport} {codes : List ReasonCode} {most : ℕ}
    (gives : Gives report codes most) (room : most < maxReasons) (process : CheckedProcess) :
    Gives (probeDetach process report)
      (codes ++ refusal process.detach.isSome .ptraceRefused) (most + 1) := by
  cases detach : process.detach with
  | none =>
      simp only [probeDetach, refusal, detach]
      rw [if_neg (by simp), List.append_nil]
      exact ⟨gives.same, Nat.le_succ_of_le gives.few⟩
  | some errno =>
      simp only [probeDetach, refusal, detach]
      exact (gives.addReason room .ptraceRefused
        (ascii "cannot detach again: " ++ errno.text)).of_reasons rfl

theorem gives_probePtrace {report : CheckReport} (gives : Gives report [] 0)
    (process : CheckedProcess) :
    Gives (probePtrace process report) (attachRefusals process) 2 := by
  have probed : Gives { report with ptraceProbed := true } [] 0 := gives.of_reasons rfl
  have one : ∀ {report code}, Gives report [code] 1 → Gives report [code] 2 :=
    fun gives => ⟨gives.same, by simp⟩
  cases seize : process.seize with
  | some errno =>
      simp only [probePtrace, attachRefusals, seize]
      exact one (probed.addReason (by decide) _ _)
  | none =>
      cases interrupt : process.interrupt with
      | some errno =>
          simp only [probePtrace, attachRefusals, seize, interrupt]
          exact one (probed.addReason (by decide) _ _)
      | none =>
          simp only [probePtrace, attachRefusals, seize, interrupt]
          by_cases stopped : process.waitStop = some true
          · rw [if_pos stopped, if_neg (by simp), refusal, if_neg (by simp [stopped])]
            have ok : Gives { report with ptraceProbed := true, ptraceOk := true } [] 0 :=
              gives.of_reasons rfl
            have detached := gives_probeDetach ok (by decide) process
            exact ⟨detached.same, detached.few.trans (by decide)⟩
          · rw [if_neg stopped, if_neg (by simp), refusal, if_pos stopped]
            exact gives_probeDetach (probed.addReason (by decide) _ _) (by decide) process

/-! ## The whole check -/

/-- The process as the kernel shows it: a status that opens is as the kernel prints it. -/
structure ShownTo (process : CheckedProcess) (shown : Except Errno ShownStatus) : Prop where
  status : process.status = shown.map fun shown => statusText shown.lines
  fewMaps : process.mapsLines.length < 2 ^ 32

theorem codes_of_status {process : CheckedProcess} {shown : ShownStatus}
    (status : process.status = .ok (statusText shown.lines))
    (fewMaps : process.mapsLines.length < 2 ^ 32) (probe : Bool) :
    (checkOne process probe).reasons.map CheckReason.code =
      refusals process probe (.ok shown) := by
  rcases beforeScans_shown status with ⟨report, gives, before⟩
  by_cases inScope : scopeRefusals shown process.cmdline = []
  · rw [if_pos inScope] at before
    rw [inScope] at gives
    have begins : Gives report [] 0 := ⟨gives.same, le_rfl⟩
    have scanned := gives_scanMaps (gives_probeExe begins (by decide) process) (by decide) before
      fewMaps
    rw [List.nil_append] at scanned
    have counted := scanned.of_reasons ((reasons_countChildren process _).trans
      (reasons_scanFds process (scanMaps process (probeExe process report))))
    simp only [checkOne, before, refusals, inScope, ne_eq, not_true_eq_false, if_false]
    by_cases probes : exeRefusals process ++ mapsRefusals process = [] ∧ probe = true
    · rcases probes with ⟨nothing, rfl⟩
      rw [nothing] at counted
      rw [if_pos (by simp [counted.length_eq_zero_iff]), if_pos ⟨nothing, rfl⟩]
      exact (gives_probePtrace ⟨counted.same, le_rfl⟩ process).same
    · rw [if_neg (by simpa [counted.length_eq_zero_iff, and_comm] using probes), if_neg probes]
      exact counted.same
  · rw [if_neg inScope] at before
    simp only [checkOne, before, refusals, if_pos inScope]
    exact gives.same

/-- A process whose status does not open has that against it and nothing else. -/
theorem codes_of_noStatus {process : CheckedProcess} {errno : Errno}
    (status : process.status = .error errno) (probe : Bool) :
    (checkOne process probe).reasons.map CheckReason.code =
      refusals process probe (.error errno) := by
  have initially : Gives (.initial process.pid) [] 0 := ⟨rfl, le_rfl⟩
  have gives := initially.addInaccessible (by decide) errno (ascii "status") .gone goneDetail
  simp only [checkOne, beforeScans, readStatusFields, status]
  exact gives.same

/-- Check gives a process exactly the reasons that there are against it, in the order of its
stages, and none is cut off. -/
theorem codes_checkOne {process : CheckedProcess} {shown : Except Errno ShownStatus}
    (isShown : ShownTo process shown) (probe : Bool) :
    (checkOne process probe).reasons.map CheckReason.code = refusals process probe shown := by
  cases shown with
  | error errno => exact codes_of_noStatus isShown.status probe
  | ok shown => exact codes_of_status isShown.status isShown.fewMaps probe

/-- Two threads, a process that traces them, and no arguments. -/
def tracedStatus : ShownStatus :=
  { namedStatus with tracerPid := plainNumber 12 (by decide), threads := plainNumber 2 (by decide) }

def tracedProcess : CheckedProcess :=
  { smallestProcess with
    status := .ok (statusText tracedStatus.lines)
    cmdline := none }

set_option maxRecDepth 4000 in
theorem codes_checkOne_traced :
    (checkOne tracedProcess true).reasons.map CheckReason.code =
      [.multiThreaded, .alreadyTraced, .kernelThread] := by
  have isShown : ShownTo tracedProcess (.ok tracedStatus) := ⟨rfl, by decide⟩
  exact codes_checkOne isShown true

end Ksnap
