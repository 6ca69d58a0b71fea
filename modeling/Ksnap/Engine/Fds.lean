import Ksnap.Engine.DumpFormat
import Ksnap.Foundation.Scan

/-!
# Descriptors of a process

`src/fds.c`: what the engine does with one open descriptor, and the offset and
flags of it. Dump and Check both decide through `classifyFd`. What the kernel
answers about the descriptors of the process is a parameter, `FdFiles`.
-/

namespace Ksnap

open Foundation

/-- The part of `struct stat` that is looked at. -/
structure Stat where
  dev : UInt64
  ino : UInt64
  isRegular : Bool
  deriving DecidableEq

/-- The answers of the kernel about the descriptors of one process: the names in
`/proc/pid/fd` when it opens, its links and what stat says of them, stat of a path,
the texts of `/proc/pid/fdinfo`, and kcmp of two of its descriptors. -/
structure FdFiles where
  directory : Option (List Bytes)
  readlink : Int32 → Option Bytes
  statLink : Int32 → Option Stat
  statPath : Bytes → Option Stat
  fdinfo : Int32 → Option Bytes
  kcmp : Int32 → Int32 → Option ℕ

/-- `fd_class_t` -/
inductive FdClass where
  | dump
  | skipStdio
  | skipVolatile
  | skipUnreachable
  | skipOther
  | unreadable
  deriving DecidableEq

/-- `DELETED_SUFFIX` -/
def deletedSuffix : Bytes := ascii " (deleted)"

def hasDeletedSuffix (path : Bytes) : Bool :=
  decide (deletedSuffix.length < path.length) &&
    path.drop (path.length - deletedSuffix.length) == deletedSuffix

/-- The class of a descriptor above 2, given the text of its link as readlink left it. -/
def classifyLink (files : FdFiles) (fd : Int32) (raw : Bytes) : FdClass :=
  if startsWith raw (ascii "socket:") || startsWith raw (ascii "pipe:") ||
      startsWith raw (ascii "anon_inode:") then .skipVolatile
  else
    match files.statLink fd with
    | none => .unreadable
    | some openFile =>
        if !openFile.isRegular then .skipOther
        else if hasDeletedSuffix raw then .skipUnreachable
        else
          match files.statPath (cString raw) with
          | none => .skipUnreachable
          | some byPath =>
              if byPath.dev ≠ openFile.dev || byPath.ino ≠ openFile.ino then .skipUnreachable
              else .dump

/-- The class of a descriptor and the string left in the path buffer, where readlink
cuts a longer text without a word. -/
def classifyFd (files : FdFiles) (fd : Int32) : FdClass × Bytes :=
  if fd ≤ 2 then (.skipStdio, [])
  else
    match files.readlink fd with
    | none => (.unreadable, [])
    | some link =>
        let raw := link.take (pathMax - 1)
        (classifyLink files fd raw, cString raw)

/-- `"pos: %" SCNu64` -/
def positionFormat : List Directive :=
  literals (ascii "pos:") ++ [.space, .integer 10 64 false]

/-- `"flags: %" SCNo32` -/
def flagsFormat : List Directive :=
  literals (ascii "flags:") ++ [.space, .integer 8 32 false]

/-- One line of fdinfo, on top of what the lines before it said. -/
def readFdinfoLine (found : Option UInt64 × Option UInt32) (line : Bytes) :
    Option UInt64 × Option UInt32 :=
  match sscanf positionFormat (cString line) with
  | [.number position] => (some (UInt64.ofNat position), found.2)
  | _ =>
      match sscanf flagsFormat (cString line) with
      | [.number flags] => (found.1, some (UInt32.ofNat flags))
      | _ => found

/-- Offset and flags of a descriptor, or ERROR. -/
def readFdState (files : FdFiles) (fd : Int32) : Option (UInt64 × UInt32) := do
  let text ← files.fdinfo fd
  match (fgetsLines 256 text).foldl readFdinfoLine (none, none) with
  | (some position, some flags) => some (position, flags)
  | _ => none

/-! ## The path of a descriptor -/

theorem classifyFd_path_nulFree (files : FdFiles) (fd : Int32) :
    0 ∉ (classifyFd files fd).2 := by
  unfold classifyFd
  split
  · simp
  · split
    · simp
    · exact zero_notMem_cString _

theorem classifyFd_path_length (files : FdFiles) (fd : Int32) :
    (classifyFd files fd).2.length < pathMax := by
  unfold classifyFd
  split
  · simp [pathMax]
  · split
    · simp [pathMax]
    · rename_i link _
      have cut := List.length_take_le (pathMax - 1) link
      have within : (cString (link.take (pathMax - 1))).length ≤
          (link.take (pathMax - 1)).length := (List.takeWhile_sublist _).length_le
      simp only [pathMax] at cut within ⊢
      omega

/-- Only the three standard descriptors are skipped as such, so a dumped one is above them. -/
theorem two_lt_of_classifyFd {files : FdFiles} {fd : Int32}
    (class_ : (classifyFd files fd).1 ≠ .skipStdio) : 2 < fd := by
  by_contra low
  apply class_
  have : fd ≤ 2 := Int32.not_lt.mp low
  simp [classifyFd, this]

end Ksnap
