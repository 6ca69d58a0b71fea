import Ksnap.Engine.Report
import Ksnap.Foundation.Program

/-!
# Check mode

`check`, `check_all` and `check_one` of `src/checker.c` as programs, with everything they ask
of the kernel in the order they ask it. What they make of the answers is in
`Ksnap.Engine.Check`.
-/

namespace Ksnap

open Foundation Foundation.Program

/-! ## Calls -/

/-- What Check asks of the kernel, and the reports it prints. -/
inductive CheckCall where
  /-- The names in `/proc`, if it opens -/
  | openProc
  | getPid
  | readStatus (pid : Int32)
  | readCmdline (pid : Int32)
  | readExe (pid : Int32)
  /-- `access(path, X_OK)` -/
  | access (path : Bytes)
  | readMaps (pid : Int32)
  | readFds (pid : Int32)
  | readChildren (pid : Int32)
  | seize (pid : Int32)
  | interrupt (pid : Int32)
  /-- `waitpid`, and whether the process stopped -/
  | waitStop (pid : Int32)
  | detach (pid : Int32)
  | printReport (report : CheckReport)

def CheckCall.Reply : CheckCall → Type
  | .openProc => Option (List Bytes)
  | .getPid => Int32
  | .readStatus _ => Except Errno Bytes
  | .readCmdline _ => Option Bytes
  | .readExe _ => Except Errno Bytes
  | .access _ => Option Errno
  | .readMaps _ => Except Errno MapsFile
  | .readFds _ => FdFiles
  | .readChildren _ => Option Bytes
  | .seize _ => Option Errno
  | .interrupt _ => Option Errno
  | .waitStop _ => Option Bool
  | .detach _ => Option Errno
  | .printReport _ => Unit

abbrev CheckInterface : Interface where
  Call := CheckCall
  Reply := CheckCall.Reply

abbrev CheckEvent := Event CheckInterface

abbrev CheckCall.perform (request : CheckCall) : Program CheckInterface request.Reply :=
  @Program.perform CheckInterface request

/-- A process of which nothing has been asked yet. -/
def unasked (pid : Int32) : CheckedProcess where
  pid := pid
  status := .ok []
  cmdline := none
  exe := .ok []
  access := fun _ => none
  maps := .ok ⟨[], false⟩
  files := ⟨none, fun _ => none, fun _ => none, fun _ => none, fun _ => none, fun _ _ => none⟩
  children := none
  seize := none
  interrupt := none
  waitStop := none
  detach := none

/-- `KSNAP_CHECK_EXIT_DUMPABLE`, `KSNAP_CHECK_EXIT_ERROR` and `KSNAP_CHECK_EXIT_BLOCKED` -/
def checkExitDumpable : ℤ := 0

def checkExitError : ℤ := 1

def checkExitBlocked : ℤ := 11

namespace CheckMode

/-! ## One process -/

/-- Whether `probe_exe` gets as far as `access`. -/
def asksAccess (path : Bytes) : Bool :=
  path.length ≠ 0 && !hasDeletedSuffix path

def probeExe (pid : Int32) (report : CheckReport) : Program CheckInterface CheckReport := do
  match ← (CheckCall.readExe pid).perform with
  | .error errno => return Ksnap.probeExe { unasked pid with exe := .error errno } report
  | .ok link =>
      let path := link.take (pathMax - 1)
      if asksAccess path then
        let denied ← (CheckCall.access (cString path)).perform
        return probeExePath { unasked pid with access := fun _ => denied } path report
      else return probeExePath (unasked pid) path report

def probePtrace (pid : Int32) (report : CheckReport) : Program CheckInterface CheckReport := do
  match ← (CheckCall.seize pid).perform with
  | some errno => return Ksnap.probePtrace { unasked pid with seize := some errno } report
  | none =>
      match ← (CheckCall.interrupt pid).perform with
      | some errno =>
          let _ ← (CheckCall.detach pid).perform
          return Ksnap.probePtrace { unasked pid with interrupt := some errno } report
      | none =>
          let waitStop ← (CheckCall.waitStop pid).perform
          let detach ← (CheckCall.detach pid).perform
          return Ksnap.probePtrace { unasked pid with waitStop, detach } report

/-- The probe of a process that nothing has been found against. -/
def probeClean (pid : Int32) (probe : Bool) (report : CheckReport) :
    Program CheckInterface CheckReport :=
  if probe && report.reasons.length = 0 then probePtrace pid report else pure report

/-- The report is printed, and is the answer. -/
def conclude (report : CheckReport) (exitCode : ℤ) : Program CheckInterface ℤ := do
  (CheckCall.printReport report).perform
  return exitCode

/-- The part of `check_one` behind the cheap verdicts. -/
def scanProcess (pid : Int32) (probe : Bool) (report : CheckReport) :
    Program CheckInterface ℤ := do
  let report ← probeExe pid report
  let maps ← (CheckCall.readMaps pid).perform
  let report := scanMaps { unasked pid with maps } report
  let files ← (CheckCall.readFds pid).perform
  let report := scanFds { unasked pid with files } report
  let children ← (CheckCall.readChildren pid).perform
  let report := countChildren { unasked pid with children } report
  let report ← probeClean pid probe report
  conclude report (if report.reasons.length = 0 then checkExitDumpable else checkExitBlocked)

def checkOne (pid : Int32) (probe : Bool) : Program CheckInterface ℤ := do
  let status ← (CheckCall.readStatus pid).perform
  match readStatusFields { unasked pid with status } (.initial pid) with
  | .error report => conclude report checkExitBlocked
  | .ok report =>
      let cmdline ← (CheckCall.readCmdline pid).perform
      let report := cheapVerdicts (readCmdlineArgc { unasked pid with cmdline } report)
      if report.reasons.length > 0 then conclude report checkExitBlocked
      else scanProcess pid probe report

/-! ## Every process -/

/-- One round of the loop in `check_all`. -/
def checkEntry (self : Int32) (name : Bytes) : Program CheckInterface Unit :=
  if startsWithDigit name && 0 < atoi name && atoi name ≠ self then do
    let _ ← checkOne (atoi name) false
    return ()
  else pure ()

/-- The rounds of the loop. -/
def checkEntries (self : Int32) : List Bytes → Program CheckInterface Unit
  | [] => pure ()
  | name :: names => do
      checkEntry self name
      checkEntries self names

def checkAll : Program CheckInterface ℤ := do
  match ← CheckCall.openProc.perform with
  | none => return checkExitError
  | some names =>
      let self ← CheckCall.getPid.perform
      checkEntries self names
      return checkExitDumpable

/-- `check`, on the pid of the configuration. -/
def check (pid : Int32) : Program CheckInterface ℤ :=
  if pid = -1 then checkAll else checkOne pid true

end CheckMode

end Ksnap
