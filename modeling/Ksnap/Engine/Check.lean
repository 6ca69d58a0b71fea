import Ksnap.Engine.Collect

/-!
# Check

`check_one` of `src/checker.c`: what Check reports of one process, and the reasons it
gives against a dump. It walks the mappings and the descriptors through the same
`classifyMapsLine` and `classifyFd` as the dump, counting instead of copying. What
the kernel answers about the process is a parameter.
-/

namespace Ksnap

open Foundation

/-- Why a call failed: whether `errno` is `EACCES` or `EPERM`, and what `strerror` says. -/
structure Errno where
  denied : Bool
  text : Bytes

/-- The answers of the kernel about the process. A text ends where reading it ends. -/
structure CheckedProcess where
  pid : Int32
  status : Except Errno Bytes
  cmdline : Option Bytes
  exe : Except Errno Bytes
  access : Bytes → Option Errno
  maps : Except Errno MapsFile
  files : FdFiles
  children : Option Bytes
  seize : Option Errno
  interrupt : Option Errno
  waitStop : Option Bool
  detach : Option Errno

/-- The stable identifiers of the reasons. -/
inductive ReasonCode where
  | multiThreaded
  | zombie
  | alreadyTraced
  | ptraceRefused
  | kernelThread
  | exeUnreadable
  | exeDeleted
  | exeNotExecutable
  | sharedMapping
  | deviceMapping
  | tooManyKernelMaps
  | noDumpableMapping
  | notInspectable
  | gone
  deriving DecidableEq

/-- `check_reason_t` -/
structure CheckReason where
  code : ReasonCode
  detail : Bytes

/-- `check_report_t`. The counters of descriptors, arguments and children are plain numbers,
the others wrap around as they do in the source. -/
structure CheckReport where
  pid : Int32
  comm : Bytes
  state : UInt8
  threads : Int32
  tracerPid : Int32
  argc : ℕ
  openFds : ℕ
  volatileFds : ℕ
  dumpableFds : ℕ
  children : ℕ
  uid : UInt32
  rssKb : UInt64
  exePath : Bytes
  dumpableVmas : UInt32
  kernelMaps : UInt32
  sharedVmas : UInt32
  deviceVmas : UInt32
  snapshotBytes : UInt64
  ptraceProbed : Bool
  ptraceOk : Bool
  reasons : List CheckReason

/-- The report after the memset, with the pid and a state of `?`. -/
def CheckReport.initial (pid : Int32) : CheckReport :=
  ⟨pid, [], 63, 0, 0, 0, 0, 0, 0, 0, 0, 0, [], 0, 0, 0, 0, 0, false, false, []⟩

/-- `KSNAP_MAX_REASONS` -/
def maxReasons : ℕ := 8

/-- `DETAIL_LEN` -/
def detailLen : ℕ := 160

/-- `%d` and `%u` -/
def decimal (number : ℤ) : Bytes :=
  ascii (toString number)

def addReason (report : CheckReport) (code : ReasonCode) (detail : Bytes) : CheckReport :=
  if report.reasons.length = maxReasons then report
  else { report with reasons := report.reasons ++ [⟨code, detail.take (detailLen - 1)⟩] }

/-- A reason that is given under a condition. -/
def reasonIf (condition : Bool) (code : ReasonCode) (detail : Bytes) (report : CheckReport) :
    CheckReport :=
  if condition then addReason report code detail else report

/-- A file of `/proc` that does not open: no access, or the process is gone. -/
def addInaccessible (report : CheckReport) (errno : Errno) (name : Bytes) (otherwise : ReasonCode)
    (detail : Bytes) : CheckReport :=
  if errno.denied then
    addReason report .notInspectable (ascii "/proc/" ++ decimal report.pid.toInt ++ ascii "/" ++
      name ++ ascii " cannot be read, run the engine as root")
  else addReason report otherwise detail

def goneDetail : Bytes := ascii "the process disappeared while it was inspected"

/-! ## Status and command line -/

/-- One field of `/proc/pid/status`: how its line starts, the conversion after the white
space, and where the value goes. -/
structure StatusField where
  name : Bytes
  conversion : Directive
  store : Field → CheckReport → CheckReport

def nameField : StatusField where
  name := ascii "Name:"
  conversion := .line 63
  store
    | .text comm, report => { report with comm := comm }
    | .number _, report => report

def stateField : StatusField where
  name := ascii "State:"
  conversion := .char
  store
    | .text state, report => { report with state := state.headD 0 }
    | .number _, report => report

def uidField : StatusField where
  name := ascii "Uid:"
  conversion := .integer 10 32 false
  store
    | .number uid, report => { report with uid := UInt32.ofNat uid }
    | .text _, report => report

def threadsField : StatusField where
  name := ascii "Threads:"
  conversion := .integer 10 32 true
  store
    | .number threads, report => { report with threads := (UInt32.ofNat threads).toInt32 }
    | .text _, report => report

def tracerPidField : StatusField where
  name := ascii "TracerPid:"
  conversion := .integer 10 32 true
  store
    | .number tracerPid, report => { report with tracerPid := (UInt32.ofNat tracerPid).toInt32 }
    | .text _, report => report

def rssField : StatusField where
  name := ascii "VmRSS:"
  conversion := .integer 10 64 false
  store
    | .number rssKb, report => { report with rssKb := UInt64.ofNat rssKb }
    | .text _, report => report

/-- The branches of the loop in `read_status_fields`. -/
def statusFields : List StatusField :=
  [nameField, stateField, uidField, threadsField, tracerPidField, rssField]

/-- One line of `/proc/pid/status`. A line that does not scan leaves its field as it is. -/
def readStatusLine (report : CheckReport) (line : Bytes) : CheckReport :=
  match statusFields.find? fun field => startsWith (cString line) field.name with
  | none => report
  | some field =>
      match sscanf (literals field.name ++ [.space, field.conversion]) (cString line) with
      | [value] => field.store value report
      | _ => report

/-- The report with the fields of the status file, or the one that says why there are none. -/
def readStatusFields (process : CheckedProcess) (report : CheckReport) :
    Except CheckReport CheckReport :=
  match process.status with
  | .error errno => .error (addInaccessible report errno (ascii "status") .gone goneDetail)
  | .ok text => .ok ((fgetsLines 512 text).foldl readStatusLine report)

/-- One character of the command line, on the arguments counted so far and whether one is
pending. -/
def countArgument (counted : ℕ × Bool) (character : UInt8) : ℕ × Bool :=
  if character = 0 then (if counted.2 then counted.1 + 1 else counted.1, false)
  else (counted.1, true)

def readCmdlineArgc (process : CheckedProcess) (report : CheckReport) : CheckReport :=
  match process.cmdline with
  | none => report
  | some text =>
      let (argumentCount, pending) := text.foldl countArgument (0, false)
      { report with argc := if pending then argumentCount + 1 else argumentCount }

/-- The verdicts that cost no more files. -/
def cheapVerdicts (report : CheckReport) : CheckReport :=
  let report := reasonIf (1 < report.threads) .multiThreaded
    (ascii "the dump seizes the main thread only, this process has " ++
      decimal report.threads.toInt) report
  let report := reasonIf (report.state = 90 || report.state = 88) .zombie
    (ascii "the process is dead, there is no address space to copy") report
  let report := reasonIf (report.tracerPid ≠ 0) .alreadyTraced
    (ascii "process " ++ decimal report.tracerPid.toInt ++
      ascii " is tracing it, ptrace allows one tracer") report
  reasonIf (report.argc = 0) .kernelThread
    (ascii "kernel threads own no memory that could be snapshotted") report

/-- What comes before the scans: the final report of a process that is out of scope, or the
report to go on with. -/
def beforeScans (process : CheckedProcess) : Except CheckReport CheckReport :=
  match readStatusFields process (.initial process.pid) with
  | .error report => .error report
  | .ok report =>
      let report := cheapVerdicts (readCmdlineArgc process report)
      if report.reasons.length > 0 then .error report else .ok report

/-! ## Scans -/

/-- The part of `probe_exe` after the link was read. -/
def probeExePath (process : CheckedProcess) (raw : Bytes) (report : CheckReport) : CheckReport :=
  let report := { report with exePath := cString raw }
  if raw.length = 0 then addReason report .exeUnreadable (ascii "the executable path is empty")
  else if hasDeletedSuffix raw then
    addReason { report with exePath := cString (raw.take (raw.length - deletedSuffix.length)) }
      .exeDeleted (ascii "the executable no longer exists, the restore could not exec it")
  else
    match process.access report.exePath with
    | some errno =>
        addReason report .exeNotExecutable
          (ascii "the executable cannot be run by the engine: " ++ errno.text)
    | none => report

def probeExe (process : CheckedProcess) (report : CheckReport) : CheckReport :=
  match process.exe with
  | .error errno =>
      addInaccessible report errno (ascii "exe") .exeUnreadable
        (ascii "the executable path cannot be resolved: " ++ errno.text)
  | .ok link => probeExePath process (link.take (pathMax - 1)) report

/-- The variables of the loop in `scan_maps`. -/
structure MapsScan where
  report : CheckReport
  firstShared : Bytes
  firstDevice : Bytes

/-- One round of the loop in `scan_maps`. -/
def scanMapsLine (scan : MapsScan) (mapsLine : Bytes) : MapsScan :=
  match parseMapsLine mapsLine with
  | none => scan
  | some parsed =>
      let report := scan.report
      match classifyMapsLine parsed with
      | .kernel => { scan with report := { report with kernelMaps := report.kernelMaps + 1 } }
      | .skipShared =>
          { scan with
            report := { report with sharedVmas := report.sharedVmas + 1 }
            firstShared :=
              if scan.firstShared = [] then
                if parsed.path = [] then ascii "an anonymous mapping" else parsed.path
              else scan.firstShared }
      | .dump =>
          let device := startsWith parsed.path (ascii "/dev/")
          { scan with
            report := { report with
              deviceVmas := if device then report.deviceVmas + 1 else report.deviceVmas
              dumpableVmas := report.dumpableVmas + 1
              snapshotBytes := report.snapshotBytes + (parsed.stop - parsed.start) }
            firstDevice :=
              if device && scan.firstDevice = [] then parsed.path else scan.firstDevice }
      | .skipUnreadable | .skipPseudo => scan

/-- The verdicts on what the walk over the mappings counted. -/
def mapsVerdicts (readFails : Bool) (scan : MapsScan) : CheckReport :=
  let report := reasonIf readFails .gone (ascii "reading the mappings failed halfway") scan.report
  let report := reasonIf (0 < report.sharedVmas) .sharedMapping
    (decimal report.sharedVmas.toNat ++ ascii " shared " ++
      (if report.sharedVmas = 1 then ascii "mapping" else ascii "mappings") ++
      ascii " would be dropped silently, first " ++ scan.firstShared) report
  let report := reasonIf (0 < report.deviceVmas) .deviceMapping
    (scan.firstDevice ++ ascii " cannot be read through /proc/" ++ decimal report.pid.toInt ++
      ascii "/mem") report
  let report := reasonIf (maxKernelMaps < report.kernelMaps.toNat) .tooManyKernelMaps
    (ascii "the snapshot format holds " ++ decimal maxKernelMaps ++
      ascii " kernel mappings, found " ++ decimal report.kernelMaps.toNat) report
  reasonIf (report.dumpableVmas = 0) .noDumpableMapping
    (ascii "no mapping the engine would copy") report

def scanMaps (process : CheckedProcess) (report : CheckReport) : CheckReport :=
  match process.maps with
  | .error errno => addInaccessible report errno (ascii "maps") .gone goneDetail
  | .ok file =>
      mapsVerdicts file.readFails
        ((fgetsLines mapsLineMax file.text).foldl scanMapsLine ⟨report, [], []⟩)

/-- One round of the loop in `scan_fds`, on one name of the folder. -/
def scanFdEntry (files : FdFiles) (report : CheckReport) (name : Bytes) : CheckReport :=
  if !startsWithDigit name then report
  else
    match (classifyFd files (atoi name)).1 with
    | .skipStdio => report
    | .skipVolatile =>
        { report with openFds := report.openFds + 1, volatileFds := report.volatileFds + 1 }
    | .dump =>
        { report with openFds := report.openFds + 1, dumpableFds := report.dumpableFds + 1 }
    | _ => { report with openFds := report.openFds + 1 }

/-- A folder that cannot be read is no verdict, the counts stay at zero. -/
def scanFds (process : CheckedProcess) (report : CheckReport) : CheckReport :=
  match process.files.directory with
  | none => report
  | some names => names.foldl (scanFdEntry process.files) report

/-- How many integers follow each other in a text. Each takes at least one character, so the
length of the text is enough fuel. -/
def countIntegers : ℕ → Bytes → ℕ
  | 0, _ => 0
  | fuel + 1, text =>
      match scanInteger 10 32 true text with
      | none => 0
      | some (_, rest) => countIntegers fuel rest + 1

def countChildren (process : CheckedProcess) (report : CheckReport) : CheckReport :=
  match process.children with
  | none => report
  | some text => { report with children := countIntegers text.length text }

/-! ## The probe and the report -/

/-- The end of the probe, which lets the process go again. -/
def probeDetach (process : CheckedProcess) (report : CheckReport) : CheckReport :=
  match process.detach with
  | none => report
  | some errno =>
      { addReason report .ptraceRefused (ascii "cannot detach again: " ++ errno.text) with
        ptraceOk := false }

def probePtrace (process : CheckedProcess) (report : CheckReport) : CheckReport :=
  let report := { report with ptraceProbed := true }
  match process.seize with
  | some errno => addReason report .ptraceRefused (ascii "cannot seize the process: " ++ errno.text)
  | none =>
      match process.interrupt with
      | some errno =>
          addReason report .ptraceRefused (ascii "cannot interrupt the process: " ++ errno.text)
      | none =>
          if process.waitStop = some true then
            probeDetach process { report with ptraceOk := true }
          else
            probeDetach process
              (addReason report .ptraceRefused (ascii "the process did not stop for the engine"))

def checkOne (process : CheckedProcess) (probe : Bool) : CheckReport :=
  match beforeScans process with
  | .error report => report
  | .ok report =>
      let report :=
        countChildren process (scanFds process (scanMaps process (probeExe process report)))
      if probe && report.reasons.length = 0 then probePtrace process report else report

end Ksnap
