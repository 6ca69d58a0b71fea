import Ksnap.Foundation.Loop
import Ksnap.Panel.Snapshot
import Mathlib.Data.List.Lex
import Mathlib.Data.List.Sort
import Mathlib.Order.Fin.Basic

/-!
# The listing of a snapshot folder

`list_snapshots`: a file that cannot be read as a snapshot gets a row that says why. The
handler that makes this row asks for the file once more, and nothing handles what it meets
itself. Neither does it handle a time of change that no `time_t` holds, or whose year `datetime`
does not have.
-/

namespace Ksnap.Panel

open Foundation Raising Program

/-! ## Rows -/

/-- An entry of the list: a header, or a file with the reason why there is none. -/
inductive SnapshotRow : Type where
  | readable (view : SnapshotView) (directory : Text)
  | broken (name : Text) (size : ℕ) (createdAt : Option Text) (error directory : Text)

namespace SnapshotRow

def name : SnapshotRow → Text
  | .readable view _ => view.name
  | .broken name _ _ _ _ => name

/-- `item.get("created_at") or ""` -/
def sortKey : SnapshotRow → Text
  | .readable view _ => view.createdAt
  | .broken _ _ createdAt _ _ => createdAt.getD []

end SnapshotRow

/-- `except (SnapshotError, OSError, struct.error)` -/
def isReported : PythonError → Bool
  | .snapshotError _ => true
  | .osError _ _ => true
  | .structError => true
  | _ => false

/-- `str(error)` of an exception that is reported. The header is unpacked from as many bytes as
it has, so that there is no text of a `struct.error`. -/
def errorText : PythonError → Text
  | .snapshotError message => message
  | .osError _ reason => reason
  | _ => []

/-- The handler in `list_snapshots`. -/
def brokenRow (directory path : Text) (error : PythonError) : Request SnapshotRow := do
  let present ← (PanelCall.pathExists path).attempt id
  if present then do
    let stat ← (PanelCall.stat path).attempt id
    let createdAt ← liftExcept (createdAt stat.mtime)
    return .broken (nameOf path) stat.size (some createdAt) (errorText error) directory
  else return .broken (nameOf path) 0 none (errorText error) directory

/-- One round of the loop in `list_snapshots`. -/
def snapshotRow (directory path : Text) : Request SnapshotRow :=
  catching
    (do
      let view ← readHeader path
      return .readable view directory)
    isReported (brokenRow directory path)

/-- `list_snapshots` -/
def listSnapshots (directory : Text) : Request (List SnapshotRow) := do
  let present ← (PanelCall.isDir directory).attempt id
  if present then do
    let paths : List Text ← (PanelCall.snapshotPaths directory).ask id
    let rows ← paths.mapM (snapshotRow directory)
    return rows.insertionSort fun first second => second.sortKey ≤ first.sortKey
  else return []

/-! ## A folder while it is listed -/

/-- What the calls on a file find, one after another: its first bytes, its metadata, and in
the handler whether it is there, and its metadata again. It may change or vanish at any time
between them. -/
structure FileCourse where
  head : Except OsFailure Bytes
  stat : Except OsFailure FileStat
  present : Except OsFailure Bool
  again : Except OsFailure FileStat

/-- A folder with the paths that the pattern finds in it, each of them once. -/
structure SnapshotFolder where
  isDirectory : Except OsFailure Bool
  paths : List Text
  nodup : paths.Nodup
  course : Text → FileCourse

/-- The files to list. -/
def SnapshotFolder.found (folder : SnapshotFolder) : List Text :=
  match folder.isDirectory with
  | .ok true => folder.paths
  | _ => []

def looksFor (path : Text) : Event PanelInterface → Bool
  | ⟨.pathExists other, _⟩ => other = path
  | _ => false

/-- The handler has looked for the file already. -/
def lookedFor (path : Text) (trace : List (Event PanelInterface)) : Bool :=
  trace.any (looksFor path)

/-- The answers in the folder, in the course of a listing. -/
def SnapshotFolder.Answers (folder : SnapshotFolder) (trace : List (Event PanelInterface)) :
    (request : PanelCall) → request.Reply → Prop
  | .isDir _, reply => reply = orRaise folder.isDirectory
  | .snapshotPaths _, paths => paths = folder.paths
  | .readHead path _, reply => reply = orRaise (folder.course path).head
  | .pathExists path, reply => reply = orRaise (folder.course path).present
  | .stat path, reply => reply =
      orRaise (if lookedFor path trace then (folder.course path).again
        else (folder.course path).stat)
  | _, _ => True

namespace FileCourse

/-- The header is that of a snapshot, and the file was changed at this time. -/
def Shows (course : FileCourse) (mtime : ℤ) : Prop :=
  ∃ raw header stat, course.head = .ok raw ∧ parseHeader raw = .ok header ∧
    course.stat = .ok stat ∧ stat.mtime = mtime

theorem Shows.unique {course : FileCourse} {mtime other : ℤ} (shows : course.Shows mtime)
    (again : course.Shows other) : other = mtime := by
  rcases shows with ⟨raw, header, stat, -, -, found, rfl⟩
  rcases again with ⟨_, _, stat', -, -, same, rfl⟩
  rw [found] at same
  cases same
  rfl

end FileCourse

section Row

variable {course : FileCourse} {directory path : Text}

end Row

/-! ## Runs -/

section Runs

variable {folder : SnapshotFolder} {trace : List (Event PanelInterface)}

/-- The handler has looked for the same files. -/
def SameLooks (trace now : List (Event PanelInterface)) : Prop :=
  ∀ path, lookedFor path now = lookedFor path trace

theorem SameLooks.concat {now : List (Event PanelInterface)} (same : SameLooks trace now)
    {event : Event PanelInterface} (other : ∀ path, looksFor path event = false) :
    SameLooks trace (now ++ [event]) := by
  intro path
  rw [lookedFor, List.any_append, ← lookedFor, List.any_cons, other, List.any_nil, Bool.or_false,
    Bool.or_false, same path]

end Runs

/-! ## Exactly when -/

/-- The one answer to each call of a listing. -/
def SnapshotFolder.reply (folder : SnapshotFolder) (trace : List (Event PanelInterface)) :
    (request : PanelCall) → Option request.Reply
  | .isDir _ => some (orRaise folder.isDirectory)
  | .snapshotPaths _ => some folder.paths
  | .readHead path _ => some (orRaise (folder.course path).head)
  | .pathExists path => some (orRaise (folder.course path).present)
  | .stat path => some (orRaise
      (if lookedFor path trace then (folder.course path).again else (folder.course path).stat))
  | _ => none

def SnapshotFolder.next (folder : SnapshotFolder) (trace : List (Event PanelInterface))
    (request : PanelCall) : Option (request.Reply × List (Event PanelInterface)) :=
  match folder.reply trace request with
  | some reply => some (reply, trace ++ [⟨request, reply⟩])
  | none => none

end Ksnap.Panel
