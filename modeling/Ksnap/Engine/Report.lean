import Ksnap.Engine.Check
import Ksnap.Foundation.Printed

/-!
# Printed reports

`print_report` of `src/checker.c`: one report as a JSON object on a line of its own. The
texts go through `print_json_string`, which escapes what is below the space. The state is
printed as the character it is.
-/

namespace Ksnap

open Foundation

/-- The identifier of a reason, which the panel reads. -/
def ReasonCode.text : ReasonCode → Bytes
  | .multiThreaded => ascii "multi_threaded"
  | .zombie => ascii "zombie"
  | .alreadyTraced => ascii "already_traced"
  | .ptraceRefused => ascii "ptrace_refused"
  | .kernelThread => ascii "kernel_thread"
  | .exeUnreadable => ascii "exe_unreadable"
  | .exeDeleted => ascii "exe_deleted"
  | .exeNotExecutable => ascii "exe_not_executable"
  | .sharedMapping => ascii "shared_mapping"
  | .deviceMapping => ascii "device_mapping"
  | .tooManyKernelMaps => ascii "too_many_kernel_maps"
  | .noDumpableMapping => ascii "no_dumpable_mapping"
  | .notInspectable => ascii "not_inspectable"
  | .gone => ascii "gone"

/-- One round of the loop in `print_json_string`. -/
def escapeByte (byte : UInt8) : Bytes :=
  if byte = 34 then ascii "\\\""
  else if byte = 92 then ascii "\\\\"
  else if byte = 10 then ascii "\\n"
  else if byte = 13 then ascii "\\r"
  else if byte = 9 then ascii "\\t"
  else if byte < 0x20 then ascii "\\u" ++ printNumber 16 4 byte.toNat
  else [byte]

def printJsonString (value : Bytes) : Bytes :=
  ascii "\"" ++ (cString value).flatMap escapeByte ++ ascii "\""

/-- `%s` of a condition. -/
def printBool (condition : Bool) : Bytes :=
  ascii (if condition then "true" else "false")

/-- One round of the loop over the reasons. -/
def printReason (reason : CheckReason) (index : ℕ) : Bytes :=
  ascii (if index = 0 then "" else ",") ++ ascii "\x7b\"code\":\"" ++ reason.code.text ++
    ascii "\",\"detail\":" ++ printJsonString reason.detail ++ ascii "\x7d"

/-- One of the facts that follow the state. -/
def printFact (name : String) (value : Bytes) : Bytes :=
  ascii ",\"" ++ ascii name ++ ascii "\":" ++ value

def printReport (report : CheckReport) : Bytes :=
  ascii "\x7b\"pid\":" ++ decimal report.pid.toInt ++ ascii ",\"dumpable\":" ++
    printBool (report.reasons.length = 0) ++ ascii ",\"reasons\":[" ++
    report.reasons.zipIdx.flatMap (fun entry => printReason entry.1 entry.2) ++
    ascii "],\"facts\":\x7b\"comm\":" ++ printJsonString report.comm ++
    ascii ",\"state\":\"" ++ [report.state] ++ ascii "\"" ++
    printFact "threads" (decimal report.threads.toInt) ++
    printFact "tracer_pid" (decimal report.tracerPid.toInt) ++
    printFact "uid" (decimal report.uid.toNat) ++
    printFact "rss_kb" (decimal report.rssKb.toNat) ++
    printFact "argc" (decimal report.argc) ++
    printFact "exe" (printJsonString report.exePath) ++
    printFact "open_fds" (decimal report.openFds) ++
    printFact "volatile_fds" (decimal report.volatileFds) ++
    printFact "dumpable_fds" (decimal report.dumpableFds) ++
    printFact "children" (decimal report.children) ++
    printFact "dumpable_vmas" (decimal report.dumpableVmas.toNat) ++
    printFact "kernel_maps" (decimal report.kernelMaps.toNat) ++
    printFact "shared_vmas" (decimal report.sharedVmas.toNat) ++
    printFact "device_vmas" (decimal report.deviceVmas.toNat) ++
    printFact "snapshot_bytes" (decimal report.snapshotBytes.toNat) ++
    printFact "ptrace_probed" (printBool report.ptraceProbed) ++
    printFact "ptrace_ok" (printBool report.ptraceOk) ++ ascii "\x7d\x7d\n"

end Ksnap
