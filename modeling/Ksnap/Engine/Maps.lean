import Ksnap.Engine.DumpFormat
import Ksnap.Foundation.Scan

/-!
# Mappings of a process

`src/maps.c`: one line of `/proc/pid/maps`, what the engine does with the mapping
on it, and the search for a named mapping. Dump and Check both decide through
`classifyMapsLine`, after both have split the file with the same `fgets` buffer.

The path of a line ends at the first white space, since it is scanned with `%s`.
-/

namespace Ksnap

open Foundation

/-- `MAPS_LINE_MAX`. -/
def mapsLineMax : ℕ := pathMax + 128

/-- `maps_line_t`: one parsed line. The privileges and the path are C strings. -/
structure MapsLine where
  start : UInt64
  stop : UInt64
  fileOffset : UInt64
  privileges : Bytes
  path : Bytes
  deriving DecidableEq

/-- `"%lx-%lx %4s %lx %*s %*s %4095s"` -/
def mapsLineFormat : List Directive :=
  [.integer 16 64 false, .literal 45, .integer 16 64 false, .space, .word 4, .space,
    .integer 16 64 false, .space, .skipWord, .space, .skipWord, .space, .word (pathMax - 1)]

/-- The checks on the fields of a line, of which only the path may be missing. -/
def checkMapsFields (start stop : ℕ) (privileges : Bytes) (fileOffset : ℕ) (path : Bytes) :
    Option MapsLine :=
  if privileges.length ≠ 4 then none
  else if UInt64.ofNat stop ≤ UInt64.ofNat start then none
  else
    some {
      start := UInt64.ofNat start
      stop := UInt64.ofNat stop
      fileOffset := UInt64.ofNat fileOffset
      privileges := privileges
      path := path }

def parseMapsLine (mapsLine : Bytes) : Option MapsLine :=
  match sscanf mapsLineFormat (cString mapsLine) with
  | [.number start, .number stop, .text privileges, .number fileOffset] =>
      checkMapsFields start stop privileges fileOffset []
  | [.number start, .number stop, .text privileges, .number fileOffset, .text path] =>
      checkMapsFields start stop privileges fileOffset path
  | _ => none

def isKernelMap (mapsPath : Bytes) : Bool :=
  mapsPath == ascii "[vdso]" || startsWith mapsPath (ascii "[vvar")

/-- Of the bracketed names only the heap and the stack are worth copying. -/
def isDumpablePath (mapsPath : Bytes) : Bool :=
  if mapsPath.head? ≠ some 91 then true
  else mapsPath == ascii "[heap]" || mapsPath == ascii "[stack]"

/-- `vma_class_t` -/
inductive VmaClass where
  | dump
  | kernel
  | skipUnreadable
  | skipShared
  | skipPseudo
  deriving DecidableEq

def classifyMapsLine (parsed : MapsLine) : VmaClass :=
  if isKernelMap parsed.path then .kernel
  else if parsed.privileges[0]? ≠ some 114 then .skipUnreadable
  else if parsed.privileges[3]? ≠ some 112 then .skipShared
  else if !isDumpablePath parsed.path then .skipPseudo
  else .dump

/-- `PROT_READ`, `PROT_WRITE` and `PROT_EXEC`, and the flags of mmap. -/
def protRead : UInt32 := 1
def protWrite : UInt32 := 2
def protExec : UInt32 := 4
def mapShared : UInt32 := 1
def mapPrivate : UInt32 := 2

def permsToProt (privileges : Bytes) : UInt32 :=
  (if privileges[0]? = some 114 then protRead else 0) |||
    (if privileges[1]? = some 119 then protWrite else 0) |||
    (if privileges[2]? = some 120 then protExec else 0)

def permsToMapFlags (privileges : Bytes) : UInt32 :=
  if privileges[3]? = some 112 then mapPrivate else mapShared

/-- The lines of `/proc/pid/maps` that parse. Every loop over the file skips the others. -/
def parsedLines (text : Bytes) : List MapsLine :=
  (fgetsLines mapsLineMax text).filterMap parseMapsLine

/-- Compare a string with the one that starts a region of memory. There is no answer
when the comparison would run off the end of the region. -/
def strcmpEq : Bytes → Bytes → Option Bool
  | [], byte :: _ => some (byte = 0)
  | first :: rest, byte :: memory =>
      if first = byte then strcmpEq rest memory else some false
  | _, [] => none

/-- The loop of `find_named_map` over the lines of the file. The name is the memory its
pointer leads to; no result at all means that the search read past that memory. -/
def findNamedLine (name : Bytes) : List Bytes → Option (Option (UInt64 × UInt64))
  | [] => some none
  | mapsLine :: lines =>
      match parseMapsLine mapsLine with
      | none => findNamedLine name lines
      | some parsed =>
          match strcmpEq parsed.path name with
          | none => none
          | some true => some (some (parsed.start, parsed.stop - parsed.start))
          | some false => findNamedLine name lines

/-- Start and size of a mapping, out of the text of `/proc/pid/maps` when it opens. -/
def findNamedMap (maps : Option Bytes) (name : Bytes) : Option (Option (UInt64 × UInt64)) :=
  match maps with
  | none => some none
  | some text => findNamedLine name (fgetsLines mapsLineMax text)

/-! ## Well formed lines -/

/-- What a line that parses can hold. -/
structure MapsLine.WellFormed (parsed : MapsLine) : Prop where
  nonempty : parsed.start < parsed.stop
  privileges_length : parsed.privileges.length = 4
  path_length : parsed.path.length < pathMax
  path_nulFree : 0 ∉ parsed.path

theorem checkMapsFields_wellFormed {start stop fileOffset : ℕ} {privileges path : Bytes}
    {parsed : MapsLine}
    (checked : checkMapsFields start stop privileges fileOffset path = some parsed)
    (length : path.length < pathMax) (nulFree : 0 ∉ path) : parsed.WellFormed := by
  simp only [checkMapsFields] at checked
  split at checked
  · cases checked
  · rename_i fourLetters
    split at checked
    · cases checked
    · rename_i nonempty
      cases checked
      exact ⟨by simpa using nonempty, by simpa using fourLetters, length, nulFree⟩

theorem parseMapsLine_wellFormed {mapsLine : Bytes} {parsed : MapsLine}
    (parses : parseMapsLine mapsLine = some parsed) : parsed.WellFormed := by
  have fit := sscanf_fits mapsLineFormat (zero_notMem_cString mapsLine)
  simp only [parseMapsLine] at parses
  split at parses
  · exact checkMapsFields_wellFormed parses (by simp [pathMax]) (by simp)
  · rename_i start stop privileges fileOffset path fields
    rw [fields] at fit
    simp only [mapsLineFormat, FieldsFit, Directive.assigns, Directive.Fits, if_true] at fit
    rcases fit with ⟨_, _, _, _, ⟨_, length, nulFree, _⟩, _⟩
    exact checkMapsFields_wellFormed parses (Nat.lt_of_le_pred (by decide) length) nulFree
  · cases parses

/-- The protection of a mapping holds no bit that mprotect does not know. -/
theorem permsToProt_known (privileges : Bytes) :
    permsToProt privileges &&& ~~~(protRead ||| protWrite ||| protExec) = 0 := by
  unfold permsToProt
  split <;> split <;> split <;> decide

end Ksnap
