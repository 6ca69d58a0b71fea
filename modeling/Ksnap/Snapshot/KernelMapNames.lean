import Ksnap.Engine.Restore
import Ksnap.Snapshot.SectionBounds

/-!
# The names of the kernel mappings in a snapshot

The names are fields of 32 bytes which are used as strings: the search through the
mappings of the child compares with them, and the error messages print them. The reader
terminates the path of the executable, but it never looks at the names, and nothing else
puts a terminator there. Whether the uses of a name stay in its field is decided by the
bytes of the file.
-/

namespace Ksnap

open Foundation

/-- What `%s` prints of a region of memory. There is no answer when no terminator comes. -/
def printString : Bytes → Option Bytes
  | [] => none
  | byte :: memory => if byte = 0 then some [] else (printString memory).map (byte :: ·)

/-- The child has no mapping of this name, or one of another size. The error names it. -/
def Misses (header : DumpHeader) (wanted : KernelMap) (index : ℕ) (maps : Option Bytes) : Prop :=
  findNamedMap maps (nameMemory header index) = some none ∨
    ∃ start size, findNamedMap maps (nameMemory header index) = some (some (start, size)) ∧
      size ≠ wanted.size

/-- What is done with the name of a recorded mapping stays inside its field, for every text of
the child's mappings: the search that goes on in the memory behind the field finds what a
search in the field alone does, and an error finds the end of what it prints in there. -/
structure NameContained (header : DumpHeader) (wanted : KernelMap) (index : ℕ) : Prop where
  searched : ∀ maps, ∃ found, findNamedMap maps wanted.name.toList = some found ∧
    findNamedMap maps (nameMemory header index) = some found
  printed : ∀ maps, Misses header wanted index maps →
    ∃ shown, printString wanted.name.toList = some shown

def NamesContained (header : DumpHeader) : Prop :=
  ∀ wanted index, (wanted, index) ∈ header.countedKernelMaps → NameContained header wanted index

/-- Each name that the header counts has a terminator among its bytes in the file. -/
def NamesTerminated (file : RegularFile) : Prop :=
  ∀ index < (headerCodec.decode file.bytes).kernelMapCount.toNat,
    0 ∈ slice file.bytes (kernelMapNameOffset index) kernelMapNameLen

/-! ## Terminated strings -/

theorem printString_of_terminated {memory : Bytes} (terminated : 0 ∈ memory) :
    printString memory = some (cString memory) := by
  induction memory with
  | nil => cases terminated
  | cons byte memory ih =>
      by_cases last : byte = 0
      · simp [printString, cString, last]
      · have later : 0 ∈ memory := by
          rcases List.mem_cons.mp terminated with here | later
          · exact absurd here.symm last
          · exact later
        simp [printString, cString, last, ih later]

/-- No end is found in a region that has none. -/
theorem terminated_of_printString {memory shown : Bytes}
    (printed : printString memory = some shown) : 0 ∈ memory := by
  induction memory generalizing shown with
  | nil => cases printed
  | cons byte memory ih =>
      rw [printString] at printed
      split at printed
      · next last => exact List.mem_cons.mpr (.inl last.symm)
      · rcases Option.map_eq_some_iff.mp printed with ⟨rest, later, -⟩
        exact List.mem_cons_of_mem _ (ih later)

theorem cString_append_of_terminated {memory : Bytes} (terminated : 0 ∈ memory) (rest : Bytes) :
    cString (memory ++ rest) = cString memory := by
  induction memory with
  | nil => cases terminated
  | cons byte memory ih =>
      by_cases last : byte = 0
      · simp [cString, last]
      · have later : 0 ∈ memory := by
          rcases List.mem_cons.mp terminated with here | later
          · exact absurd here.symm last
          · exact later
        simpa [cString, last] using ih later

/-- The comparison stops at the terminator at the latest. -/
theorem strcmpEq_of_terminated {path memory : Bytes} (nulFree : 0 ∉ path)
    (terminated : 0 ∈ memory) :
    strcmpEq path memory = some (decide (path = cString memory)) := by
  induction memory generalizing path with
  | nil => cases terminated
  | cons byte memory ih =>
      cases path with
      | nil =>
          by_cases last : byte = 0
          · simp [strcmpEq, cString, last]
          · simp [strcmpEq, cString, last]
      | cons first path =>
          have firstNonzero : first ≠ 0 := fun zero => nulFree (by simp [zero])
          by_cases same : first = byte
          · subst same
            have later : 0 ∈ memory := by
              rcases List.mem_cons.mp terminated with here | later
              · exact absurd here.symm firstNonzero
              · exact later
            have nulFreePath : 0 ∉ path := fun mem => nulFree (List.mem_cons_of_mem _ mem)
            rw [strcmpEq, if_pos rfl, ih nulFreePath later]
            simp [cString, firstNonzero]
          · rw [strcmpEq, if_neg same]
            by_cases last : byte = 0
            · simp [cString, last]
            · simp [cString, last, same]

/-- Start and size of a mapping that was found. -/
def MapsLine.found (parsed : MapsLine) : UInt64 × UInt64 :=
  (parsed.start, parsed.stop - parsed.start)

/-- A terminated name finds the first line with that name. -/
theorem findNamedLine_of_terminated {name : Bytes} (terminated : 0 ∈ name) (lines : List Bytes) :
    findNamedLine name lines =
      some (((lines.filterMap parseMapsLine).find? (·.path = cString name)).map
        MapsLine.found) := by
  induction lines with
  | nil => rfl
  | cons mapsLine lines ih =>
      rw [findNamedLine]
      cases parses : parseMapsLine mapsLine with
      | none => simpa [parses] using ih
      | some parsed =>
          have nulFree := (parseMapsLine_wellFormed parses).path_nulFree
          rw [List.filterMap_cons_some parses]
          simp only [strcmpEq_of_terminated nulFree terminated]
          by_cases named : parsed.path = cString name
          · simp [named, MapsLine.found]
          · simpa [named] using ih

theorem findNamedMap_of_terminated {name : Bytes} (terminated : 0 ∈ name) (text : Bytes) :
    findNamedMap (some text) name =
      some (((parsedLines text).find? (·.path = cString name)).map MapsLine.found) :=
  findNamedLine_of_terminated terminated _

/-! ## Where the names are -/

theorem kernelMaps_decode (raw : Bytes) :
    (headerCodec.decode raw).kernelMaps.toList =
      kernelMapCodec.decodeAll maxKernelMaps (raw.drop 4152) := by
  simp only [headerCodec, Codec.imap, Codec.pair, List.drop_drop]
  rfl

/-- The name in the header is the one in its bytes. -/
theorem name_decode {raw : Bytes} {wanted : KernelMap} {index : ℕ}
    (fits : headerCodec.width ≤ raw.length)
    (recorded : (headerCodec.decode raw).kernelMaps.toList[index]? = some wanted) :
    wanted.name.toList = slice raw (kernelMapNameOffset index) kernelMapNameLen := by
  have inside : index < maxKernelMaps := by
    have := (List.getElem?_eq_some_iff.mp recorded).1
    rwa [List.Vector.toList_length] at this
  rw [kernelMaps_decode, Codec.getElem?_decodeAll _ inside, Option.some.injEq] at recorded
  have room : kernelMapNameLen - (raw.drop (kernelMapNameOffset index)).length = 0 := by
    simp only [headerCodec_width, maxKernelMaps, kernelMapNameLen, kernelMapNameOffset,
      List.length_drop] at *
    omega
  have place : ((raw.drop 4152).drop (index * kernelMapCodec.width)).drop 16 =
      raw.drop (kernelMapNameOffset index) := by
    rw [List.drop_drop, List.drop_drop, kernelMapCodec_width, kernelMapNameOffset]
    congr 1
    omega
  have name : wanted.name = (Codec.bytes kernelMapNameLen).decode
      ((((raw.drop 4152).drop (index * kernelMapCodec.width)).drop 8).drop 8) := by
    rw [← recorded]
    rfl
  rw [name, List.drop_drop, place]
  rw [List.length_drop] at room
  simp [Codec.bytes, List.Vector.toList, room, slice]

/-- In memory the name is followed by the rest of the header. -/
theorem nameMemory_eq {header : DumpHeader} {wanted : KernelMap} {index : ℕ}
    (recorded : header.kernelMaps.toList[index]? = some wanted) :
    ∃ rest, nameMemory header index = wanted.name.toList ++ rest := by
  have fits : headerCodec.width ≤ (headerCodec.encode header).length :=
    (Codec.length_encode _ _).ge
  have name := name_decode fits (by rwa [Codec.decode_encode_self])
  refine ⟨(nameMemory header index).drop kernelMapNameLen, ?_⟩
  rw [name]
  exact (List.take_append_drop _ _).symm

theorem recorded_of_counted {header : DumpHeader} {wanted : KernelMap} {index : ℕ}
    (mem : (wanted, index) ∈ header.countedKernelMaps) :
    header.kernelMaps.toList[index]? = some wanted := by
  rw [DumpHeader.countedKernelMaps, List.mem_zipIdx_iff_getElem?] at mem
  rw [List.getElem?_take] at mem
  split at mem
  · exact mem
  · cases mem

theorem counted_of_lt {header : DumpHeader} {index : ℕ}
    (few : header.kernelMapCount.toNat ≤ maxKernelMaps)
    (inside : index < header.kernelMapCount.toNat) :
    ∃ wanted, (wanted, index) ∈ header.countedKernelMaps := by
  have length : index < header.kernelMaps.toList.length := by
    rw [List.Vector.toList_length]
    omega
  refine ⟨header.kernelMaps.toList[index], ?_⟩
  rw [DumpHeader.countedKernelMaps, List.mem_zipIdx_iff_getElem?, List.getElem?_take, if_pos inside]
  exact List.getElem?_eq_getElem length

/-! ## Names in bounds -/

/-- A terminated name is only used up to its terminator. -/
theorem nameContained_of_terminated {header : DumpHeader} {wanted : KernelMap} {index : ℕ}
    (recorded : header.kernelMaps.toList[index]? = some wanted)
    (terminated : 0 ∈ wanted.name.toList) : NameContained header wanted index where
  printed := fun _ _ => ⟨_, printString_of_terminated terminated⟩
  searched := by
    rcases nameMemory_eq recorded with ⟨rest, memory⟩
    have terminatedMemory : 0 ∈ nameMemory header index := by
      rw [memory]
      exact List.mem_append_left _ terminated
    intro maps
    cases maps with
    | none => exact ⟨none, rfl, rfl⟩
    | some text =>
        refine ⟨_, findNamedMap_of_terminated terminated text, ?_⟩
        rw [findNamedMap_of_terminated terminatedMemory, memory,
          cString_append_of_terminated terminated]

/-- Where the child's mappings cannot be read, the name is printed. -/
theorem terminated_of_nameContained {header : DumpHeader} {wanted : KernelMap} {index : ℕ}
    (contained : NameContained header wanted index) : 0 ∈ wanted.name.toList := by
  rcases contained.printed none (.inl rfl) with ⟨shown, printed⟩
  exact terminated_of_printString printed

/-- The names of an accepted file are used inside their fields, for every text of the child's
mappings, exactly if the file holds a terminator in each of them. -/
theorem namesContained_iff {faults : ReaderFaults} {file : RegularFile} {snapshot : Snapshot}
    (read : readOutcome faults file = .ok snapshot) :
    NamesContained snapshot.header ↔ NamesTerminated file := by
  have accepted := accepted_of_readOutcome read
  have same : snapshot.header.kernelMaps = (headerCodec.decode file.bytes).kernelMaps ∧
      snapshot.header.kernelMapCount = (headerCodec.decode file.bytes).kernelMapCount := by
    rw [accepted.header]
    exact ⟨rfl, rfl⟩
  have few : snapshot.header.kernelMapCount.toNat ≤ maxKernelMaps :=
    same.2 ▸ accepted.headerAccepted.kernelMapCount
  constructor
  · intro contained index inside
    rw [← same.2] at inside
    rcases counted_of_lt few inside with ⟨wanted, mem⟩
    have recorded := recorded_of_counted mem
    rw [same.1] at recorded
    rw [← name_decode accepted.headerFits recorded]
    exact terminated_of_nameContained (contained wanted index mem)
  · intro terminated wanted index mem
    have recorded := recorded_of_counted mem
    refine nameContained_of_terminated recorded ?_
    rw [same.1] at recorded
    rw [name_decode accepted.headerFits recorded]
    apply terminated index
    rw [← same.2]
    rw [DumpHeader.countedKernelMaps, List.mem_zipIdx_iff_getElem?, List.getElem?_take] at mem
    by_contra outside
    rw [if_neg outside] at mem
    cases mem

/-! ## One name -/

/-- The smallest snapshot with one kernel mapping of this name. -/
def namedParts (name : List.Vector UInt8 kernelMapNameLen) : SnapshotParts :=
  { smallestParts 1 with kernelMaps := [⟨0x7000, 0x1000, name⟩] }

theorem namedParts_sound (name : List.Vector UInt8 kernelMapNameLen) : (namedParts name).Sound :=
  have bare : (smallestParts 1).Sound := smallestParts_sound (by decide) (by decide)
  { bare with kernelMaps_le := (by decide : 1 ≤ maxKernelMaps) }

theorem length_namedFile (name : List.Vector UInt8 kernelMapNameLen) :
    ((namedParts name).fileBytes [7]).length = 5217 := by
  have xstate : (namedParts name).xstate.length = 576 := List.length_replicate
  rw [SnapshotParts.fileBytes, length_snapshotBytes, xstate]
  rfl

def namedFile (name : List.Vector UInt8 kernelMapNameLen) : RegularFile where
  bytes := (namedParts name).fileBytes [7]
  size_lt := by
    rw [length_namedFile]
    decide

theorem readOutcome_namedFile (name : List.Vector UInt8 kernelMapNameLen) :
    readOutcome .none (namedFile name) =
      .ok (laidOutSnapshot (namedParts name).header (namedParts name).vmaTable [] []
        (namedParts name).xstate) := by
  have sound := namedParts_sound name
  refine readOutcome_of_accepted (accepted_of_laidOut rfl (laidOut_of_parts sound)
    (headerSound_of_parts sound) (terminateExePath_header sound.exePath_lt) ?_ ?_)
  · intro vma mem
    exact vmaAccepted_of_parts sound rfl rfl mem
  · intro some_
    exact absurd rfl some_

theorem namesTerminated_namedFile {name : List.Vector UInt8 kernelMapNameLen}
    (terminated : 0 ∈ name.toList) : NamesTerminated (namedFile name) := by
  have decoded : headerCodec.decode (namedFile name).bytes = (namedParts name).header :=
    decode_header
  intro index inside
  rw [decoded] at inside
  obtain rfl : index = 0 := Nat.lt_one_iff.mp inside
  have fits : headerCodec.width ≤ (namedFile name).bytes.length :=
    (length_namedFile name).symm ▸ (by decide : headerCodec.width ≤ 5217)
  have recorded : (headerCodec.decode (namedFile name).bytes).kernelMaps.toList[0]? =
      some ⟨0x7000, 0x1000, name⟩ := by
    rw [decoded]
    rfl
  rw [← name_decode fits recorded]
  exact terminated

/-- A name that fills its field, and one with a terminator. -/
def unterminatedName : List.Vector UInt8 kernelMapNameLen := .replicate kernelMapNameLen 65

def vdsoName : List.Vector UInt8 kernelMapNameLen :=
  copyOver kernelMapNameLen 0 (ascii "[vdso]")

theorem namesContained_vdso : NamesContained (namedParts vdsoName).header :=
  (namesContained_iff (readOutcome_namedFile vdsoName)).mpr
    (namesTerminated_namedFile (by decide))

/-- A file with a name that fills its field is accepted. -/
theorem not_namesContained :
    ¬∀ (faults : ReaderFaults) (file : RegularFile) (snapshot : Snapshot),
      readOutcome faults file = .ok snapshot → NamesContained snapshot.header := by
  intro always
  have contained := always _ _ _ (readOutcome_namedFile unterminatedName)
  have counted : (⟨0x7000, 0x1000, unterminatedName⟩, 0) ∈
      (namedParts unterminatedName).header.countedKernelMaps := by
    decide
  have terminated := terminated_of_nameContained (contained _ _ counted)
  exact absurd terminated (by decide)

end Ksnap
