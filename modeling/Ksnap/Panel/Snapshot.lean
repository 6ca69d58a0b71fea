import Ksnap.Engine.DumpFormat
import Ksnap.Foundation.Calendar
import Ksnap.Foundation.Struct
import Ksnap.Panel.Calls

/-!
# Snapshot files, as the panel sees them

`snapshot.py`: which names a snapshot may have, where they lead, and what the panel
reads out of a header. The header is unpacked with a format of its own, next to the
structure the engine writes.
-/

namespace Ksnap.Panel

open Foundation Raising

/-! ## Names -/

/-- `SUFFIX` -/
def suffix : Text := text ".ksnap"

/-- The characters of `NAME_PATTERN`. -/
def isNameChar (c : CodePoint) : Bool :=
  (65 ≤ c.val && c.val ≤ 90) || (97 ≤ c.val && c.val ≤ 122) || (48 ≤ c.val && c.val ≤ 57) ||
    c.val == 46 || c.val == 95 || c.val == 45

/-- `NAME_PATTERN.match`: between 1 and 64 of the characters, and then the end, where `$`
also matches in front of a last newline. -/
def matchesNamePattern (name : Text) : Bool :=
  let run := name.takeWhile isNameChar
  let rest := name.dropWhile isNameChar
  1 ≤ run.length && run.length ≤ 64 && (rest = [] || rest = [10])

/-- The exceptions of `validate_name`. -/
def nameNotString : PythonError := .valueError (text "snapshot name must be a string")

def nameNotMatching : PythonError :=
  .valueError (text ("snapshot name may only contain letters, digits, dot, dash and " ++
    "underscore (max 64 characters)"))

def nameInvalid : PythonError := .valueError (text "invalid snapshot name")

/-- `validate_name` -/
def validateName : Json → Except PythonError Text
  | .string given =>
      let name := strip given
      if !matchesNamePattern name then .error nameNotMatching
      else if name = text "." || name = text ".." then .error nameInvalid
      else if !endsWith name suffix then .ok (name ++ suffix)
      else .ok name
  | _ => .error nameNotString

/-! ## Paths -/

/-- `directory / name` of a single name. -/
def joinPath (directory name : Text) : Text :=
  if directory = text "/" then directory ++ name else directory ++ text "/" ++ name

/-- `path.parent` of an absolute path. -/
def parentOf (path : Text) : Text :=
  match path.rdropWhile (· ≠ 47) with
  | [] => []
  | [root] => [root]
  | above => above.dropLast

/-- `path.name` -/
def nameOf (path : Text) : Text :=
  path.rtakeWhile (· ≠ 47)

/-- The exception of `resolve` for a name that leads elsewhere. -/
def nameEscapes : PythonError :=
  .valueError (text "snapshot name escapes the snapshot directory")

/-- `resolve` -/
def resolve (directory : Text) (name : Json) : Request Text := do
  let directory ← (PanelCall.resolve directory).attempt id
  let name ← liftExcept (validateName name)
  let path ← (PanelCall.resolve (joinPath directory name)).attempt id
  require (parentOf path = directory) nameEscapes
  return path

theorem onlyCalls_resolve {allowed : PanelCall → Prop} {directory : Text} {name : Json}
    (resolves : ∀ path, allowed (.resolve path)) :
    (resolve directory name).run.OnlyCalls allowed := by
  apply OnlyCalls.raising_bind (PanelCall.onlyCalls_attempt (resolves directory))
  intro directory
  apply OnlyCalls.raising_bind onlyCalls_liftExcept
  intro name
  apply OnlyCalls.raising_bind (PanelCall.onlyCalls_attempt (resolves _))
  intro path
  apply OnlyCalls.raising_bind onlyCalls_raising_require
  intro inside
  exact onlyCalls_raising_pure

/-- `delete` -/
def delete (directory : Text) (name : Json) : Request Unit := do
  let path ← resolve directory name
  (PanelCall.unlink path).attempt id

/-! ## Headers -/

/-- `_KERNEL_MAP_FORMAT` -/
def kernelMapFormat : List Char := "QQ32s".toList

/-- `_REGS_COUNT` -/
def regsCount : ℕ := 27

/-- `HEADER_FORMAT`, with `PATH_MAX`, `MAX_KERNEL_MAPS` and `_REGS_COUNT` put in. -/
def headerFormat : List Char :=
  "<8sIIQQQQI4096sI".toList ++ (List.replicate 4 kernelMapFormat).flatten ++
    "27Q".toList ++ "QII".toList ++ "QII".toList

def headerItems : List PackedItem :=
  (parseFormat headerFormat).getD []

/-- `HEADER_SIZE` -/
def headerSize : ℕ := calcsize headerItems

/-- `_RIP` and `_RSP` -/
def ripIndex : ℕ := 16

def rspIndex : ℕ := 19

/-- `_decode`: the text up to the first NUL. -/
def decodeName (raw : Bytes) : Text :=
  decodeReplace (raw.takeWhile (· ≠ 0))

/-- `"0x%x"` -/
def hexText (number : ℕ) : Text :=
  text "0x" ++ (Nat.toDigits 16 number).map fun digit => codePoint digit.toNat

/-- One entry of `kernel_maps`. -/
structure KernelMapView where
  name : Text
  startAddress : Text
  size : ℕ
  deriving DecidableEq

/-- What `read_header` takes out of the header. -/
structure HeaderView where
  version : ℕ
  vmaCount : ℕ
  exePath : Text
  kernelMaps : List KernelMapView
  rip : Text
  rsp : Text
  xstateSize : ℕ
  fdCount : ℕ
  deriving DecidableEq

/-- A number of the unpacked tuple. -/
def numberAt (fields : List PackedField) (index : ℕ) : ℕ :=
  match fields[index]? with
  | some (.number value) => value
  | _ => 0

/-- A byte string of the unpacked tuple. -/
def bytesAt (fields : List PackedField) (index : ℕ) : Bytes :=
  match fields[index]? with
  | some (.bytes raw) => raw
  | _ => []

/-- The entry that three fields of the tuple make up. -/
def kernelMapView (fields : List PackedField) (index : ℕ) : KernelMapView :=
  let entry := (fields.drop (10 + index * 3)).take 3
  { name := decodeName (bytesAt entry 2)
    startAddress := hexText (numberAt entry 0)
    size := numberAt entry 1 }

def regsStart : ℕ := 10 + maxKernelMaps * 3

/-- The fields of the header that the panel shows, by their positions in the tuple. -/
def viewFields (fields : List PackedField) : HeaderView :=
  let exePathLen := numberAt fields 7
  let kernelMapCount := numberAt fields 9
  let regs := (fields.drop regsStart).take regsCount
  { version := numberAt fields 1
    vmaCount := numberAt fields 2
    exePath := decodeName ((bytesAt fields 8).take exePathLen)
    kernelMaps := (List.range (min kernelMapCount maxKernelMaps)).map (kernelMapView fields)
    rip := hexText (numberAt regs ripIndex)
    rsp := hexText (numberAt regs rspIndex)
    xstateSize := numberAt fields (regsStart + regsCount + 1)
    fdCount := numberAt fields (regsStart + regsCount + 4) }

/-- The part of `read_header` between the read and the file's metadata. -/
def parseHeader (raw : Bytes) : Except PythonError HeaderView :=
  if raw.length < headerSize then
    .error (.snapshotError (text "file is too short to hold a snapshot header"))
  else
    match unpack headerItems raw with
    | none => .error .structError
    | some fields =>
        if bytesAt fields 0 ≠ magic then
          .error (.snapshotError (text "not a Ksnap snapshot"))
        else if numberAt fields 1 ≠ formatVersion.toNat then
          .error (.snapshotError (text "snapshot format version " ++ decimal (numberAt fields 1) ++
            text ", this panel understands " ++ decimal formatVersion.toNat))
        else .ok (viewFields fields)

/-- What `read_header` reports of a snapshot file. -/
structure SnapshotView where
  name : Text
  size : ℕ
  createdAt : Text
  header : HeaderView

/-- `datetime.fromtimestamp(mtime, tz=timezone.utc).isoformat()`. The seconds have to fit into a
`time_t` first, their year into a `struct tm`, and then into a `datetime`. -/
def createdAt (mtime : ℤ) : Except PythonError Text :=
  let seconds := mtime / 1000000
  let year := (dateOf mtime).year
  if seconds < -2 ^ 63 ∨ 2 ^ 63 ≤ seconds then .error .overflowError
  else if year - 1900 < -2 ^ 31 ∨ 2 ^ 31 ≤ year - 1900 then
    .error (.osError .other (text "Value too large for defined data type"))
  else if year < 1 ∨ 9999 < year then
    .error (.valueError (text "year " ++ decimal year ++ text " is out of range"))
  else .ok (isoformat mtime)

/-- `read_header` -/
def readHeader (path : Text) : Request SnapshotView := do
  let raw ← (PanelCall.readHead path headerSize).attempt id
  let header ← liftExcept (parseHeader raw)
  let stat ← (PanelCall.stat path).attempt id
  let createdAt ← liftExcept (createdAt stat.mtime)
  return { name := nameOf path, size := stat.size, createdAt := createdAt, header := header }

theorem onlyCalls_readHeader {allowed : PanelCall → Prop} {path : Text}
    (reads : allowed (.readHead path headerSize)) (stats : allowed (.stat path)) :
    (readHeader path).run.OnlyCalls allowed := by
  apply OnlyCalls.raising_bind (PanelCall.onlyCalls_attempt reads)
  intro raw
  apply OnlyCalls.raising_bind onlyCalls_liftExcept
  intro header
  apply OnlyCalls.raising_bind (PanelCall.onlyCalls_attempt stats)
  intro stat
  apply OnlyCalls.raising_bind onlyCalls_liftExcept
  intro createdAt
  exact onlyCalls_raising_pure

end Ksnap.Panel
