import Ksnap.Dump.Outcome
import Ksnap.Panel.Snapshot

/-!
# One header, read twice

The engine reads a header as a C structure, the panel unpacks it with a format and takes
the fields of the tuple by position. `describes_header` is that both are one layout, so
what the panel shows of an accepted snapshot is what the engine works with.
-/

namespace Ksnap.Panel

open Foundation

/-! ## The layout -/

/-- The tuple that a kernel mapping unpacks to. -/
def kernelMapFields (kernelMap : KernelMap) : List PackedField :=
  [.number kernelMap.startAddress.toNat, .number kernelMap.size.toNat,
    .bytes kernelMap.name.toList]

/-- The tuple that the registers unpack to. -/
def regsFields (regs : UserRegs) : List PackedField :=
  regs.toWords.toList.map fun word => .number word.toNat

/-- The fields in front of the kernel mappings, and those behind the registers. -/
def frontFields (header : DumpHeader) : List PackedField :=
  [.bytes header.magic.toList, .number header.version.toNat, .number header.vmaCount.toNat,
    .number header.vmaTableOffset.toNat, .number header.pathPoolOffset.toNat,
    .number header.pathPoolSize.toNat, .number header.dataOffset.toNat,
    .number header.exePathLen.toNat, .bytes header.exePath.toList,
    .number header.kernelMapCount.toNat]

def tailFields (header : DumpHeader) : List PackedField :=
  [.number header.xstateOffset.toNat, .number header.xstateSize.toNat,
    .number header.xstateReserved.toNat, .number header.fdTableOffset.toNat,
    .number header.fdCount.toNat, .number header.fdReserved.toNat]

/-- The tuple that a header unpacks to. -/
def headerFields (header : DumpHeader) : List PackedField :=
  frontFields header ++ (header.kernelMaps.toList.flatMap kernelMapFields ++
    (regsFields header.regs ++ tailFields header))

theorem describes_kernelMap :
    Describes [.uint64, .uint64, .bytes kernelMapNameLen] kernelMapCodec kernelMapFields :=
  (Describes.word64.pair (Describes.word64.pair (Describes.bytes kernelMapNameLen))).imap
    fun _ => rfl

theorem UserRegs.toWords_ofWords (words : List.Vector UInt64 27) :
    (UserRegs.ofWords words).toWords = words := by
  rw [← List.Vector.ofFn_get words]
  rfl

theorem describes_regs : Describes (List.replicate 27 .uint64) userRegsCodec regsFields := by
  apply (Describes.word64.vector 27).imap
  intro words
  rw [regsFields, UserRegs.toWords_ofWords]
  exact List.map_eq_flatMap ..

/-- The panel's format is the layout of the engine's structure. -/
theorem describes_header : Describes headerItems headerCodec headerFields := by
  have parts := (Describes.bytes 8).pair (Describes.word32.pair (Describes.word32.pair
    (Describes.word64.pair (Describes.word64.pair (Describes.word64.pair (Describes.word64.pair
    (Describes.word32.pair ((Describes.bytes pathMax).pair (Describes.word32.pair
    ((describes_kernelMap.vector maxKernelMaps).pair (describes_regs.pair
    (Describes.word64.pair (Describes.word32.pair (Describes.word32.pair (Describes.word64.pair
    (Describes.word32.pair Describes.word32))))))))))))))))
  exact parts.imap fun _ => rfl

/-! ## What the engine reads -/

/-- A name in the form the panel shows it: the text up to its first NUL. -/
def kernelMapOf (kernelMap : KernelMap) : KernelMapView where
  name := decodeName kernelMap.name.toList
  startAddress := hexText kernelMap.startAddress.toNat
  size := kernelMap.size.toNat

/-- The fields of the engine's structure, in the form the panel shows them. The engine has
put a NUL behind the executable's path. -/
def headerView (header : DumpHeader) : HeaderView where
  version := header.version.toNat
  vmaCount := header.vmaCount.toNat
  exePath := decodeName header.exePath.toList
  kernelMaps := (header.kernelMaps.toList.take header.kernelMapCount.toNat).map kernelMapOf
  rip := hexText header.regs.rip.toNat
  rsp := hexText header.regs.rsp.toNat
  xstateSize := header.xstateSize.toNat
  fdCount := header.fdCount.toNat

/-! ## Positions in the tuple -/

/-- The records of a table that all have one length. -/
theorem take_drop_flatMap {α β : Type} {fields : α → List β} {length : ℕ}
    (lengths : ∀ value, (fields value).length = length) {values : List α} {rest : List β}
    {index : ℕ} (inside : index < values.length) :
    ((values.flatMap fields ++ rest).drop (index * length)).take length =
      fields values[index] := by
  induction values generalizing index with
  | nil => exact absurd inside (Nat.not_lt_zero index)
  | cons value values ih =>
      rw [List.flatMap_cons, List.append_assoc]
      cases index with
      | zero => simp [List.take_left' (lengths value)]
      | succ index =>
          have later : index < values.length := Nat.lt_of_succ_lt_succ inside
          rw [Nat.succ_mul, Nat.add_comm, ← List.drop_drop, List.drop_left' (lengths value)]
          exact ih later

theorem length_kernelMapFields (kernelMap : KernelMap) : (kernelMapFields kernelMap).length = 3 :=
  rfl

theorem length_regsFields (regs : UserRegs) : (regsFields regs).length = regsCount := rfl

theorem length_frontFields (header : DumpHeader) : (frontFields header).length = 10 := rfl

theorem length_kernelMaps (header : DumpHeader) :
    (header.kernelMaps.toList.flatMap kernelMapFields).length = maxKernelMaps * 3 := by
  simp [List.length_flatMap, length_kernelMapFields]

theorem kernelMapView_headerFields {header : DumpHeader} {index : ℕ}
    (inside : index < header.kernelMaps.toList.length) :
    kernelMapView (headerFields header) index =
      kernelMapOf header.kernelMaps.toList[index] := by
  have entry : ((headerFields header).drop (10 + index * 3)).take 3 =
      kernelMapFields header.kernelMaps.toList[index] := by
    rw [← List.drop_drop, headerFields, List.drop_left' (length_frontFields header)]
    exact take_drop_flatMap length_kernelMapFields inside
  rw [kernelMapView, entry]
  rfl

theorem kernelMaps_headerFields {header : DumpHeader}
    (sound : header.kernelMapCount.toNat ≤ maxKernelMaps) :
    (List.range (min header.kernelMapCount.toNat maxKernelMaps)).map
        (kernelMapView (headerFields header)) =
      (header.kernelMaps.toList.take header.kernelMapCount.toNat).map kernelMapOf := by
  have room : header.kernelMaps.toList.length = maxKernelMaps := header.kernelMaps.toList_length
  rw [Nat.min_eq_left sound]
  apply List.ext_getElem
  · simp [room, Nat.min_eq_left sound]
  · intro index inside _
    rw [List.length_map, List.length_range] at inside
    rw [List.getElem_map, List.getElem_range, List.getElem_map, List.getElem_take]
    exact kernelMapView_headerFields (by omega)

theorem drop_regsStart (header : DumpHeader) :
    (headerFields header).drop regsStart = regsFields header.regs ++ tailFields header := by
  rw [regsStart, ← List.drop_drop, headerFields, List.drop_left' (length_frontFields header),
    List.drop_left' (length_kernelMaps header)]

/-- A field behind the registers. -/
theorem numberAt_tailFields (header : DumpHeader) (index : ℕ) :
    numberAt (headerFields header) (regsStart + regsCount + index) =
      numberAt (tailFields header) index := by
  have behind : (headerFields header)[regsStart + regsCount + index]? =
      (tailFields header)[index]? := by
    rw [← List.getElem?_drop, ← List.drop_drop, drop_regsStart,
      List.drop_left' (length_regsFields header.regs)]
  rw [numberAt, numberAt, behind]

/-- The NUL that the engine puts behind the path ends it where its length does. -/
theorem decodeName_terminated {raw : Bytes} {length : ℕ} (inside : length < raw.length) :
    decodeName (raw.set length 0) = decodeName (raw.take length) := by
  rw [decodeName, decodeName, List.set_eq_take_append_cons_drop, if_pos inside,
    List.takeWhile_append]
  split
  · next whole =>
    rw [List.takeWhile_cons_of_neg (by decide), List.append_nil,
      (List.takeWhile_prefix _).eq_of_length whole]
  · rfl

/-- What the panel takes out of the tuple, where the engine would not refuse the header. -/
theorem viewFields_headerFields {header : DumpHeader} (sound : HeaderSound header) :
    viewFields (headerFields header) = headerView (terminateExePath header) := by
  have regs : ((headerFields header).drop regsStart).take regsCount = regsFields header.regs := by
    rw [drop_regsStart, List.take_left' (length_regsFields header.regs)]
  have count : numberAt (headerFields header) 9 = header.kernelMapCount.toNat := rfl
  have inside : header.exePathLen.toNat < header.exePath.toList.length := by
    rw [header.exePath.toList_length]
    exact sound.exePathLen_lt
  have path : decodeName ((bytesAt (headerFields header) 8).take
      (numberAt (headerFields header) 7)) =
        decodeName (terminateExePath header).exePath.toList := (decodeName_terminated inside).symm
  simp only [viewFields]
  rw [regs, count, kernelMaps_headerFields sound.kernelMapCount, path,
    numberAt_tailFields header 1, numberAt_tailFields header 4]
  rfl

/-- What the panel unpacks is what the engine reads as a structure. -/
theorem unpack_header {raw : Bytes} (fits : headerCodec.width ≤ raw.length) :
    unpack headerItems (raw.take headerSize) = some (headerFields (headerCodec.decode raw)) := by
  have size : headerSize = headerCodec.width := describes_header.size
  have whole : (raw.take headerSize).length = calcsize headerItems :=
    List.length_take_of_le (size.trans_le fits)
  have inside : calcsize headerItems ≤ headerSize := le_rfl
  rw [unpack, if_pos whole, unpackItems_take inside, describes_header.read raw fits]

/-- Whatever snapshot the engine accepts, the panel reads its header without an exception
and shows of it what the engine works with. -/
theorem parseHeader_of_readOutcome {faults : ReaderFaults} {file : RegularFile}
    {snapshot : Snapshot} (read : readOutcome faults file = .ok snapshot) :
    parseHeader (file.bytes.take headerSize) = .ok (headerView snapshot.header) := by
  have accepted := accepted_of_readOutcome read
  have sound := accepted.headerAccepted.toHeaderSound
  have size : headerSize = headerCodec.width := describes_header.size
  have whole : (file.bytes.take headerSize).length = headerSize :=
    List.length_take_of_le (size.trans_le accepted.headerFits)
  have isMagic : bytesAt (headerFields (headerCodec.decode file.bytes)) 0 = magic := sound.magic
  have isVersion : numberAt (headerFields (headerCodec.decode file.bytes)) 1 =
      formatVersion.toNat := congrArg UInt32.toNat sound.version
  rw [parseHeader, if_neg (not_lt.mpr whole.ge), unpack_header accepted.headerFits]
  dsimp only
  rw [if_neg (not_not.mpr isMagic), if_neg (not_not.mpr isVersion),
    viewFields_headerFields sound, accepted.header]

/-- The header of the sample, with registers, two areas, two descriptors and two kernel maps. -/
theorem parseHeader_of_readOutcome_sample :
    readOutcome .none sampleSnapshot = .ok sampleParts.snapshot ∧
      parseHeader (sampleSnapshot.bytes.take headerSize) =
        .ok (headerView sampleParts.snapshot.header) :=
  ⟨readOutcome_sample, parseHeader_of_readOutcome readOutcome_sample⟩

end Ksnap.Panel
