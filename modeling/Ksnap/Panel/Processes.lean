import Ksnap.Foundation.Words
import Ksnap.Panel.Check
import Mathlib.Data.List.Sort

/-!
# The processes that the panel lists

`processes.py` reads `/proc` itself. It takes the name of a process from `stat`, where it
stands in parentheses, and the user and the size of its memory from the lines of `status`,
of which the first one holds the name too.
-/

namespace Ksnap.Panel

open Foundation Raising

/-! ## Texts -/

/-- What `str.isdigit` takes beside the decimal digits, as the first and last of a run. -/
def otherDigits : List (ℕ × ℕ) :=
  [(0xB2, 0xB3), (0xB9, 0xB9), (0x1369, 0x1371), (0x19DA, 0x19DA), (0x2070, 0x2070),
    (0x2074, 0x2079), (0x2080, 0x2089), (0x2460, 0x2468), (0x2474, 0x247C), (0x2488, 0x2490),
    (0x24EA, 0x24EA), (0x24F5, 0x24FD), (0x24FF, 0x24FF), (0x2776, 0x277E), (0x2780, 0x2788),
    (0x278A, 0x2792), (0x10A40, 0x10A43), (0x10E60, 0x10E68), (0x11052, 0x1105A),
    (0x1F100, 0x1F10A)]

/-- `str.isdigit` of one character. -/
def isDigit (c : CodePoint) : Bool :=
  (digitOf c).isSome || otherDigits.any fun run => run.1 ≤ c.val && c.val ≤ run.2

/-- `name.isdigit()` -/
def isDigits (name : Text) : Bool :=
  !name.isEmpty && name.all isDigit

/-- `int(line.split()[1])` -/
def secondNumber (line : Text) : Except PythonError ℤ :=
  match splitWords line with
  | _ :: word :: _ => toInt (.string word)
  | _ => .error .indexError

/-- `raw.rfind(c)` of one character. -/
def lastIndexOf (c : CodePoint) (raw : Text) : Option ℕ :=
  (raw.reverse.findIdx? (· = c)).map fun index => raw.length - 1 - index

/-- What `path.read_text(errors="replace")` makes of the bytes of a file. -/
def fileText (raw : Bytes) : Text :=
  universalNewlines (decodeReplace raw)

/-! ## The files of a process -/

/-- `_parse_stat`: the name between the parentheses, and the words behind them. -/
def parseStat (raw : Text) : Option (Text × List Text) :=
  match raw.findIdx? (· = 40), lastIndexOf 41 raw with
  | some openParen, some closeParen =>
      some ((raw.take closeParen).drop (openParen + 1), splitWords (raw.drop (closeParen + 2)))
  | _, _ => none

/-- The parts of `cmdline`. -/
def argumentsOf (raw : Text) : List Text :=
  (raw.splitOn 0).filter (· ≠ [])

/-- What the loop over the lines of `status` has found. -/
structure StatusFields where
  uid : Option ℤ
  rssKb : ℤ
  deriving DecidableEq

/-- `line.startswith("Uid:")` -/
def isUidLine (line : Text) : Bool :=
  (text "Uid:").isPrefixOf line

/-- `line.startswith("VmRSS:")` -/
def isRssLine (line : Text) : Bool :=
  (text "VmRSS:").isPrefixOf line

/-- A round of the loop. -/
def readStatusLine (fields : StatusFields) (line : Text) : Except PythonError StatusFields :=
  if isUidLine line then do
    let uid ← secondNumber line
    return { fields with uid := some uid }
  else if isRssLine line then do
    let rssKb ← secondNumber line
    return { fields with rssKb }
  else return fields

def readStatus (raw : Text) : Except PythonError StatusFields :=
  (splitlines raw).foldlM readStatusLine { uid := none, rssKb := 0 }

/-- `STATE_NAMES` -/
def stateNames : List (Text × Text) :=
  [(text "R", text "running"),
    (text "S", text "sleeping"),
    (text "D", text "disk sleep"),
    (text "T", text "stopped"),
    (text "t", text "tracing stop"),
    (text "Z", text "zombie"),
    (text "X", text "dead"),
    (text "I", text "idle")]

/-! ## One process -/

/-- What `read_process` returns. -/
structure ProcessRow where
  pid : ℤ
  name : Text
  cmdline : Text
  user : Text
  state : Text
  threads : ℤ
  rssKb : ℤ
  deriving DecidableEq

/-- `read_text` -/
def readText (pid : Text) (file : ProcessFile) : Request (Option Text) :=
  catching
    ((PanelCall.readProcessFile pid file).attempt (Except.map fun raw => some (fileText raw)))
    PythonError.isOsError fun _ => return none

/-- `_username` -/
def username (uid : ℤ) : Request Text :=
  catching ((PanelCall.userName uid).attempt id) (· = .keyError) fun _ => return decimal uid

/-- The owner of the folder in `/proc`, where `status` has named no user. -/
def ownerOf (pid : Text) : Option ℤ → Request ℤ
  | some uid => return uid
  | none =>
      catching ((PanelCall.processOwner pid).attempt id) PythonError.isOsError fun _ => return 0

/-- The part of `read_process` behind the command line. -/
def describeProcess (pid name state : Text) (threads : ℤ) (arguments : List Text) :
    Request ProcessRow := do
  let status ← readText pid .status
  let fields ← liftExcept (readStatus (status.getD []))
  let uid ← ownerOf pid fields.uid
  let number ← liftExcept (toInt (.string pid))
  let user ← username uid
  return {
    pid := number
    name
    cmdline := List.intercalate [32] arguments
    user
    state := (stateNames.lookup state).getD state
    threads
    rssKb := fields.rssKb }

/-- The part of `read_process` behind `stat`. A process without arguments is no target. -/
def readTarget (pid name : Text) (fields : List Text) : Request (Option ProcessRow) := do
  let threads ← liftExcept (toInt (.string (fields.getD 17 [])))
  let cmdline ← readText pid .cmdline
  let arguments := argumentsOf (cmdline.getD [])
  if arguments = [] then return none
  else some <$> describeProcess pid name (fields.getD 0 []) threads arguments

/-- `read_process` -/
def readProcess (pid : Text) : Request (Option ProcessRow) := do
  let stat ← readText pid .stat
  match stat.bind parseStat with
  | none => return none
  | some (name, fields) => if fields.length < 18 then return none else readTarget pid name fields

/-! ## All of them -/

/-- `_matches`, where `lower` is `str.lower`. -/
def ProcessRow.matches (lower : Text → Text) (process : ProcessRow) (query : Text) : Bool :=
  contains (decimal process.pid) query || contains (lower process.name) query ||
    contains (lower process.cmdline) query

/-- What `list_processes` has found, and how many processes have no row. -/
structure ProcessList where
  found : List ProcessRow
  kernelThreads : ℕ

/-- What the loop does with what `read_process` has returned. -/
def ProcessList.add (lower : Text → Text) (query : Text) (list : ProcessList) :
    Option ProcessRow → ProcessList
  | none => { list with kernelThreads := list.kernelThreads + 1 }
  | some process =>
      if query ≠ [] && !process.matches lower query then list
      else { list with found := list.found ++ [process] }

/-- A round of the loop over the names in `/proc`. -/
def listEntry (lower : Text → Text) (query : Text) (list : ProcessList) (entry : Text) :
    Request ProcessList :=
  if isDigits entry then list.add lower query <$> readProcess entry else return list

/-- `list_processes` -/
def listProcesses (lower : Text → Text) (query : Option Text) : Request ProcessList := do
  let entries ← PanelCall.processEntries.ask id
  let list ← entries.foldlM (listEntry lower (lower (strip (query.getD []))))
    { found := [], kernelThreads := 0 }
  return { list with found := list.found.insertionSort fun one other => one.pid ≤ other.pid }

end Ksnap.Panel
