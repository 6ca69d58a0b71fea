import Ksnap.Panel.Eligibility
import Ksnap.Panel.Processes

/-!
# The process list of the page

The part of `app.js` that shows the processes: the filter with its timer, the requests to
`/api/processes`, and the table that an answer fills. A request is made with what the filter
and the switch hold at that moment, and its answer is shown whenever it comes.
-/

namespace Ksnap.Frontend

open Foundation
open Panel (ProcessRow VerdictLevel)

/-! ## Texts of the page -/

/-- A string of the language, as its code units. -/
abbrev JsText : Type := List UInt16

/-- White space and line terminators, as `trim` knows them. -/
def isTrimmed (unit : UInt16) : Bool :=
  (9 ≤ unit && unit ≤ 13) || unit == 0x20 || unit == 0xA0 || unit == 0x1680 ||
    (0x2000 ≤ unit && unit ≤ 0x200A) || unit == 0x2028 || unit == 0x2029 || unit == 0x202F ||
      unit == 0x205F || unit == 0x3000 || unit == 0xFEFF

def trim (value : JsText) : JsText :=
  (value.dropWhile isTrimmed).rdropWhile isTrimmed

/-- Letters, digits and `-_.!~*'()`. -/
def isUnescaped (unit : UInt16) : Bool :=
  (48 ≤ unit && unit ≤ 57) || (65 ≤ unit && unit ≤ 90) || (97 ≤ unit && unit ≤ 122) ||
    [45, 95, 46, 33, 126, 42, 39, 40, 41].contains unit

/-- A byte as a percent sign and two digits. -/
def percentByte (byte : UInt8) : Text :=
  let digit (number : ℕ) : CodePoint := codePoint (if number < 10 then 48 + number else 55 + number)
  [37, digit (byte.toNat / 16), digit (byte.toNat % 16)]

def percentChar (c : CodePoint) : Text :=
  (utf8Char c).flatMap percentByte

/-- `encodeURIComponent`, which throws at half of a surrogate pair. -/
def encodeURIComponent : JsText → Option Text
  | [] => some []
  | unit :: rest =>
      if isUnescaped unit then (codePoint unit.toNat :: ·) <$> encodeURIComponent rest
      else if 0xDC00 ≤ unit && unit ≤ 0xDFFF then none
      else if 0xD800 ≤ unit && unit ≤ 0xDBFF then
        match rest with
        | [] => none
        | low :: rest =>
            if 0xDC00 ≤ low && low ≤ 0xDFFF then
              (percentChar (codePoint
                (0x10000 + (unit.toNat - 0xD800) * 1024 + (low.toNat - 0xDC00))) ++ ·) <$>
                encodeURIComponent rest
            else none
      else (percentChar (codePoint unit.toNat) ++ ·) <$> encodeURIComponent rest

/-! ## Answers -/

/-- A reason of a verdict. Its code and its message are texts, as the backend writes them. -/
structure ListedReason where
  code : Text
  message : Text
  deriving DecidableEq

/-- A process as `/api/processes` lists it. -/
structure ListedProcess where
  row : ProcessRow
  level : VerdictLevel
  reasons : List ListedReason
  deriving DecidableEq

structure LevelCounts where
  ok : ℕ
  risky : ℕ
  blocked : ℕ
  unknown : ℕ
  deriving DecidableEq

def LevelCounts.at (counts : LevelCounts) : VerdictLevel → ℕ
  | .ok => counts.ok
  | .risky => counts.risky
  | .blocked => counts.blocked
  | .unknown => counts.unknown

/-- What `/api/processes` answers with. -/
structure ProcessesPayload where
  processes : List ListedProcess
  counts : LevelCounts
  kernelThreads : ℕ

/-! ## The table -/

/-- `LEVELS`, where the class is `text-bg-` and the color. -/
def levelLabel : VerdictLevel → Text
  | .ok => text "restorable"
  | .risky => text "partial"
  | .blocked => text "not restorable"
  | .unknown => text "not checked"

def levelColor : VerdictLevel → Text
  | .ok => text "success"
  | .risky => text "warning"
  | .blocked => text "danger"
  | .unknown => text "secondary"

/-- A process that cannot be selected. -/
def isBlocked (level : VerdictLevel) : Bool :=
  level = .blocked || level = .unknown

structure Badge where
  className : Text
  label : Text
  title : Text
  deriving DecidableEq

/-- `badge` -/
def badge (level : VerdictLevel) (reasons : List ListedReason) : Badge where
  className := text "badge text-bg-" ++ levelColor level
  label :=
    match reasons with
    | [] => levelLabel level
    | reason :: _ => reason.code.map fun c => if c = 95 then 32 else c
  title :=
    match List.intercalate [10] (reasons.map ListedReason.message) with
    | [] => text "the engine handles this process"
    | messages => messages

/-- A row of the table, with what `formatSize` is given for the size. -/
structure TableRow where
  pid : ℤ
  dimmed : Bool
  checked : Bool
  disabled : Bool
  name : Text
  cmdline : Text
  user : Text
  threads : ℤ
  badge : Badge
  size : ℤ
  state : Text
  deriving DecidableEq

inductive TableBody : Type where
  | placeholder (content : Text)
  | rows (rows : List TableRow)
  deriving DecidableEq

def renderRow (selectedPid : Option ℤ) (process : ListedProcess) : TableRow where
  pid := process.row.pid
  dimmed := isBlocked process.level
  checked := some process.row.pid = selectedPid
  disabled := isBlocked process.level
  name := process.row.name
  cmdline := process.row.cmdline
  user := process.row.user
  threads := process.row.threads
  badge := badge process.level process.reasons
  size := process.row.rssKb * 1024
  state := process.row.state

/-- `renderProcesses` -/
def renderProcesses (selectedPid : Option ℤ) : List ListedProcess → TableBody
  | [] =>
      .placeholder (text "No process the engine can restore. Tick 'Show all' to see why.")
  | processes => .rows (processes.map (renderRow selectedPid))

structure SummaryItem where
  dot : Text
  number : ℕ
  label : Text
  deriving DecidableEq

/-- The counts below the table, and the kernel threads on the right. -/
structure Summary where
  items : List SummaryItem
  hidden : Option Text
  deriving DecidableEq

/-- `renderProcessSummary` -/
def renderProcessSummary (counts : LevelCounts) (kernelThreads : ℕ) : Summary where
  items :=
    let shown := [VerdictLevel.ok, .risky, .blocked, .unknown].filter fun level =>
      level ≠ .unknown || counts.at level ≠ 0
    shown.map fun level => {
      dot := text "summary-dot bg-" ++ levelColor level
      number := counts.at level
      label := levelLabel level }
  hidden :=
    if kernelThreads = 0 then none
    else some (Panel.decimal kernelThreads ++ text " kernel " ++
      text (if kernelThreads = 1 then "thread" else "threads") ++ text " hidden")

/-! ## The page -/

/-- What of `state` and of the document the processes are shown with, and the requests that
are not answered, each with its number and its address. -/
structure Page where
  processes : List ListedProcess
  counts : LevelCounts
  kernelThreads : ℕ
  selectedPid : Option ℤ
  dumpDisabled : Bool
  filter : JsText
  showAll : Bool
  filterTimer : Bool
  table : TableBody
  summary : Summary
  alerts : List Text
  issued : ℕ
  pending : List (ℕ × Text)

namespace Page

def showError (page : Page) (message : Text) : Page :=
  { page with alerts := message :: page.alerts }

/-- `refreshProcesses` up to its `await`. -/
def refreshProcesses (page : Page) : Page :=
  match encodeURIComponent (trim page.filter) with
  | none => page.showError (text "URI malformed")
  | some query =>
      let address := text "/api/processes?query=" ++ query ++ text "&all=" ++
        text (if page.showAll then "1" else "")
      { page with
        issued := page.issued + 1
        pending := page.pending ++ [(page.issued, address)] }

/-- `refreshProcesses` behind its `await`. -/
def receive (page : Page) (payload : ProcessesPayload) : Page :=
  let found := payload.processes.any fun process => some process.row.pid = page.selectedPid
  let selectedPid := if found then page.selectedPid else none
  { page with
    processes := payload.processes
    counts := payload.counts
    kernelThreads := payload.kernelThreads
    selectedPid
    dumpDisabled := if found then page.dumpDisabled else true
    table := renderProcesses selectedPid payload.processes
    summary := renderProcessSummary payload.counts payload.kernelThreads }

/-- `selectProcess` -/
def selectProcess (page : Page) (pid : ℤ) : Page :=
  match page.processes.find? (·.row.pid = pid) with
  | some process =>
      { page with selectedPid := some pid, dumpDisabled := isBlocked process.level }
  | none => { page with selectedPid := none, dumpDisabled := true }

/-- The row of this process can be clicked. -/
def offers (page : Page) (pid : ℤ) : Bool :=
  match page.table with
  | .placeholder _ => false
  | .rows rows => rows.any fun row => row.pid = pid && !row.disabled

/-- A radio button that is checked releases the others. -/
def check (page : Page) (pid : ℤ) : Page :=
  match page.table with
  | .placeholder _ => page
  | .rows rows =>
      { page with table := .rows (rows.map fun row => { row with checked := row.pid = pid }) }

end Page

/-! ## What happens to it -/

inductive PageEvent : Type where
  | input (value : JsText)
  | timeout
  | showAll
  | refresh
  /-- A dump has ended its process. -/
  | killed
  | select (pid : ℤ)
  | answer (number : ℕ) (reply : Except Text ProcessesPayload)

/-- Typing sets the timer anew. A timer that is not set does not run out, a row that is not
offered cannot be clicked, and what is answered has been asked. -/
def Page.step (page : Page) : PageEvent → Option Page
  | .input value => some { page with filter := value, filterTimer := true }
  | .timeout =>
      if page.filterTimer then some { page with filterTimer := false }.refreshProcesses else none
  | .showAll => some { page with showAll := !page.showAll }.refreshProcesses
  | .refresh => some page.refreshProcesses
  | .killed => some page.refreshProcesses
  | .select pid => if page.offers pid then some ((page.check pid).selectProcess pid) else none
  | .answer number reply =>
      if number ∈ page.pending.map Prod.fst then
        let page := { page with pending := page.pending.eraseP (·.1 = number) }
        match reply with
        | .ok payload => some (page.receive payload)
        | .error message => some (page.showError message)
      else none

/-- The page when it is loaded, with its first request. The switch may be as it was left. -/
def Page.boot (showAll : Bool) : Page :=
  Page.refreshProcesses {
    processes := []
    counts := ⟨0, 0, 0, 0⟩
    kernelThreads := 0
    selectedPid := none
    dumpDisabled := true
    filter := []
    showAll
    filterTimer := false
    table := .placeholder (text "Loading…")
    summary := ⟨[], none⟩
    alerts := []
    issued := 0
    pending := [] }

end Ksnap.Frontend
