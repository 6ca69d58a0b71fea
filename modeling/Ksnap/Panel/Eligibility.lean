import Ksnap.Panel.Check
import Mathlib.Data.List.Sort

/-!
# What the panel makes of a report

`eligibility.py` reads a report of the engine as a verdict: the engine's own reasons block,
the facts are read as risks, and the most severe reason gives the level. The gate in front
of a dump refuses what is blocked and what the engine said nothing about.
-/

namespace Ksnap.Panel

open Foundation Raising

/-! ## Values of a report -/

/-- `bool(value)` -/
def truthy : Json → Bool
  | .null => false
  | .boolean value => value
  | .integer number => number ≠ 0
  | .float literal => !isZeroFloat literal
  | .string value => value ≠ []
  | .list items => !items.isEmpty
  | .dict members => !members.isEmpty

/-- `value.get(name)`, where only an object has such a method. -/
def get (name : String) : Json → Except PythonError (Option Json)
  | .dict members => .ok (member (text name) members)
  | _ => .error .attributeError

/-- `value[name]` -/
def item (name : String) : Json → Except PythonError Json
  | .dict members =>
      match member (text name) members with
      | some value => .ok value
      | none => .error .keyError
  | _ => .error .typeError

/-- `for item in value` -/
def iterate : Json → Except PythonError (List Json)
  | .list items => .ok items
  | .string value => .ok (value.map fun c => .string [c])
  | .dict members => .ok (members.map fun entry => .string entry.1)
  | _ => .error .typeError

/-- A number in a calculation. The engine prints integers only, so floats are left out. -/
def number : Json → Except PythonError ℤ
  | .integer number => .ok number
  | .boolean value => .ok (if value then 1 else 0)
  | _ => .error .typeError

/-- `" " in value` -/
def containsSpace : Json → Except PythonError Bool
  | .string value => .ok (32 ∈ value)
  | .list items =>
      .ok (items.any fun
        | .string value => value = [32]
        | _ => false)
  | .dict members => .ok (members.any (·.1 = [32]))
  | _ => .error .typeError

/-! ## Verdicts -/

/-- `OK`, `RISKY`, `BLOCKED` and `UNKNOWN` -/
inductive VerdictLevel : Type where
  | ok
  | risky
  | blocked
  | unknown
  deriving DecidableEq

/-- What `_reason` builds. -/
structure VerdictReason where
  code : Json
  level : VerdictLevel
  message : Json

structure Verdict where
  level : VerdictLevel
  reasons : List VerdictReason
  source : Text
  facts : Json

/-- `_SEVERITY`, which has no entry for what is unknown. -/
def severity : VerdictLevel → Except PythonError ℤ
  | .ok => .ok 0
  | .risky => .ok 1
  | .blocked => .ok 2
  | .unknown => .error .keyError

/-- `reasons.sort(key=lambda item: -_SEVERITY[item["level"]])` -/
def sortReasons (reasons : List VerdictReason) : Except PythonError (List VerdictReason) := do
  let keyed ← reasons.mapM fun reason => do
    let weight ← severity reason.level
    return (weight, reason)
  return (keyed.insertionSort fun first second => second.1 ≤ first.1).map Prod.snd

/-- `_count` -/
def count (number : ℤ) (singular plural : String) : Text :=
  decimal number ++ text " " ++ text (if number = 1 then singular else plural)

/-- A caveat with its text. -/
def caveat (code : String) (message : Text) : VerdictReason :=
  ⟨.string (text code), .risky, .string message⟩

/-! ## Caveats -/

/-- `facts.get(name, 0)` -/
def fact (name : String) (facts : Json) : Except PythonError Json := do
  let given ← get name facts
  return given.getD (.integer 0)

/-- A fact that is calculated with. -/
def factNumber (name : String) (facts : Json) : Except PythonError ℤ := do
  let value ← fact name facts
  number value

def argumentsCaveat (facts : Json) : Except PythonError (List VerdictReason) := do
  let argc ← factNumber "argc" facts
  return if 1 < argc then
    [caveat "arguments_not_restored" (text ("command line arguments are not stored in the " ++
      "snapshot, the process is restarted without them"))]
  else []

/-- What is lost, in words. -/
def lostDetails (lost volatileFds : ℤ) : List Text :=
  (if volatileFds ≠ 0 then [count volatileFds "socket or pipe" "sockets or pipes"] else []) ++
    if 0 < lost - volatileFds then
      [count (lost - volatileFds) "other descriptor" "other descriptors"]
    else []

/-- `separator.join(parts)` -/
def join (separator : Text) (parts : List Text) : Text :=
  separator.intercalate parts

def openFilesCaveat (facts : Json) : Except PythonError (List VerdictReason) := do
  let given ← fact "volatile_fds" facts
  let openFds ← factNumber "open_fds" facts
  let dumpableFds ← factNumber "dumpable_fds" facts
  let lost := openFds - dumpableFds
  if 0 < lost then do
    let volatileFds ← number given
    return [caveat "open_files" (text "the snapshot reopens regular files only, so " ++
      join (text " and ") (lostDetails lost volatileFds) ++ text " will be lost on restore")]
  else return []

def childrenCaveat (facts : Json) : Except PythonError (List VerdictReason) := do
  let given ← fact "children" facts
  if truthy given then do
    let children ← number given
    return [caveat "has_children" (text "the process has " ++
      count children "child process" "child processes" ++ text ", which " ++
      text (if children = 1 then "is" else "are") ++ text " neither dumped nor restored")]
  else return []

def sizeCaveat (maxSnapshotMb : ℤ) (facts : Json) : Except PythonError (List VerdictReason) := do
  let snapshotBytes ← factNumber "snapshot_bytes" facts
  let snapshotMb := snapshotBytes / (1024 * 1024)
  return if maxSnapshotMb < snapshotMb then
    [caveat "large_snapshot" (text "the snapshot would hold " ++ decimal snapshotMb ++
      text " MiB of memory")]
  else []

def pathCaveat (facts : Json) : Except PythonError (List VerdictReason) := do
  let given ← get "exe" facts
  let spaced ← containsSpace (given.getD (.string []))
  return if spaced then
    [caveat "path_with_space" (text ("the executable path contains a space, which the engine " ++
      "maps parser truncates"))]
  else []

/-- `_caveats` -/
def caveats (maxSnapshotMb : ℤ) (facts : Json) : Except PythonError (List VerdictReason) := do
  let arguments ← argumentsCaveat facts
  let openFiles ← openFilesCaveat facts
  let children ← childrenCaveat facts
  let size ← sizeCaveat maxSnapshotMb facts
  let path ← pathCaveat facts
  return arguments ++ openFiles ++ children ++ size ++ path

/-! ## The verdict -/

/-- A reason of the engine as it is, with its code where it has no detail. -/
def engineReason (given : Json) : Except PythonError VerdictReason := do
  let code ← item "code" given
  let detail ← get "detail" given
  return ⟨code, .blocked, if truthy (detail.getD .null) then detail.getD .null else code⟩

/-- `unavailable` -/
def unavailable (message : Text) : Verdict where
  level := .unknown
  reasons := [⟨.string (text "not_checked"), .unknown, .string message⟩]
  source := text "unavailable"
  facts := .dict []

/-- The reason for a refusal that the engine gives no reason for. -/
def silentRefusal : VerdictReason :=
  ⟨.string (text "blocked"), .blocked, .string (text "the engine refused without a reason")⟩

/-- The level of the first reason. -/
def levelOf : List VerdictReason → VerdictLevel
  | [] => .ok
  | first :: _ => first.level

/-- `verdict_from_report` -/
def verdictFromReport (maxSnapshotMb : ℤ) : Json → Except PythonError Verdict
  | .null => .ok (unavailable (text "the engine did not report on this process"))
  | report => do
      let facts ← get "facts" report
      let given ← get "reasons" report
      let items ← iterate (given.getD (.list []))
      let reasons ← items.mapM engineReason
      let dumpable ← get "dumpable" report
      let refusals :=
        if !truthy (dumpable.getD (.boolean false)) && reasons.isEmpty then
          reasons ++ [silentRefusal]
        else reasons
      let risks ← caveats maxSnapshotMb (facts.getD (.dict []))
      let sorted ← sortReasons (refusals ++ risks)
      return ⟨levelOf sorted, sorted, text "engine", facts.getD (.dict [])⟩

/-- `describe` -/
def Verdict.describe (verdict : Verdict) (level : Option VerdictLevel) : List Json :=
  (verdict.reasons.filter fun reason => level.all (· = reason.level)).map VerdictReason.message

/-- `"; ".join(messages)`, which takes strings only. -/
def joinMessages (messages : List Json) : Except PythonError Text := do
  let parts ← messages.mapM fun
    | .string message => Except.ok message
    | _ => .error .typeError
  return join (text "; ") parts

/-! ## The gate -/

/-- `require_dumpable` -/
def requireDumpable (config : Config) (depth : ℕ) (timeout : Text) (maxSnapshotMb pid : ℤ) :
    Request Verdict := do
  let reports ← check config depth timeout (some pid)
  let verdict ← liftExcept (verdictFromReport maxSnapshotMb ((reports.lookup pid).getD .null))
  if verdict.level = .blocked ∨ verdict.level = .unknown then do
    let reasons ← liftExcept (joinMessages (verdict.describe (some verdict.level)))
    throw (.processError (text "pid " ++ decimal pid ++ text " cannot be snapshotted: " ++ reasons))
  else return verdict

end Ksnap.Panel
