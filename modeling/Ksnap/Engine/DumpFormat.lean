import Ksnap.Foundation.Codec

/-!
# The snapshot format

The records of `include/dump_format.h`, with the bytes gcc lays them out in on
x86_64. A snapshot file is a header, the vma table, the fd table, the path
string pool, the XSAVE area and the payloads of the mappings, in this order.

The header is free of implicit padding, which is why every record is the plain
sequence of its fields.
-/

namespace Ksnap

open Foundation

/-- `PATH_MAX` of linux/limits.h. -/
def pathMax : ℕ := 4096

/-- `NAME_MAX` of linux/limits.h. -/
def nameMax : ℕ := 255

/-- `KSNAP_MAGIC`, the letters KSNAPDMP. -/
def magic : Bytes := [75, 83, 78, 65, 80, 68, 77, 80]

/-- `KSNAP_FORMAT_VERSION`. -/
def formatVersion : UInt32 := 4

/-- `KSNAP_MAX_KERNEL_MAPS`, room for [vvar] [vvar_vclock] and [vdso]. -/
def maxKernelMaps : ℕ := 4

/-- `KSNAP_KERNEL_MAP_NAME_LEN`. -/
def kernelMapNameLen : ℕ := 32

/-- `KSNAP_XSTATE_MIN_SIZE`, the FXSAVE region and the XSAVE header. -/
def xstateMinSize : UInt32 := 576

/-- `KSNAP_XSTATE_MAX_SIZE`. -/
def xstateMaxSize : UInt32 := 65536

/-- `struct user_regs_struct` on x86_64. -/
structure UserRegs where
  r15 : UInt64
  r14 : UInt64
  r13 : UInt64
  r12 : UInt64
  rbp : UInt64
  rbx : UInt64
  r11 : UInt64
  r10 : UInt64
  r9 : UInt64
  r8 : UInt64
  rax : UInt64
  rcx : UInt64
  rdx : UInt64
  rsi : UInt64
  rdi : UInt64
  origRax : UInt64
  rip : UInt64
  cs : UInt64
  eflags : UInt64
  rsp : UInt64
  ss : UInt64
  fsBase : UInt64
  gsBase : UInt64
  ds : UInt64
  es : UInt64
  fs : UInt64
  gs : UInt64
  deriving DecidableEq

/-- `kernel_map_t`: a kernel owned mapping, whose address has to be kept. -/
structure KernelMap where
  startAddress : UInt64
  size : UInt64
  name : List.Vector UInt8 kernelMapNameLen
  deriving DecidableEq

/-- `vma_descriptor_t`: one mapping of the process and where its payload is. -/
structure VmaDescriptor where
  startAddress : UInt64
  size : UInt64
  fileOffset : UInt64
  dataOffset : UInt64
  prot : UInt32
  mapFlags : UInt32
  pathOffset : UInt32
  pathLen : UInt32
  deriving DecidableEq

/-- `fd_descriptor_t`: one open regular file of the process. -/
structure FdDescriptor where
  fd : Int32
  dupOf : Int32
  flags : UInt32
  pathOffset : UInt32
  pathLen : UInt32
  reserved : UInt32
  position : UInt64
  deriving DecidableEq

/-- `ksnap_dump_header_t`. -/
structure DumpHeader where
  magic : List.Vector UInt8 8
  version : UInt32
  vmaCount : UInt32
  vmaTableOffset : UInt64
  pathPoolOffset : UInt64
  pathPoolSize : UInt64
  dataOffset : UInt64
  exePathLen : UInt32
  exePath : List.Vector UInt8 pathMax
  kernelMapCount : UInt32
  kernelMaps : List.Vector KernelMap maxKernelMaps
  regs : UserRegs
  xstateOffset : UInt64
  xstateSize : UInt32
  xstateReserved : UInt32
  fdTableOffset : UInt64
  fdCount : UInt32
  fdReserved : UInt32

/-! ## Codecs -/

/-- A signed word in two's complement. -/
def int32Codec : Codec Int32 :=
  Codec.word32.imap UInt32.toInt32 Int32.toUInt32 (by simp)

/-- The registers in the order of the structure. -/
def UserRegs.toWords (regs : UserRegs) : List.Vector UInt64 27 :=
  ⟨[regs.r15, regs.r14, regs.r13, regs.r12, regs.rbp, regs.rbx, regs.r11, regs.r10,
    regs.r9, regs.r8, regs.rax, regs.rcx, regs.rdx, regs.rsi, regs.rdi, regs.origRax,
    regs.rip, regs.cs, regs.eflags, regs.rsp, regs.ss, regs.fsBase, regs.gsBase, regs.ds,
    regs.es, regs.fs, regs.gs], rfl⟩

def UserRegs.ofWords (words : List.Vector UInt64 27) : UserRegs where
  r15 := words.get 0
  r14 := words.get 1
  r13 := words.get 2
  r12 := words.get 3
  rbp := words.get 4
  rbx := words.get 5
  r11 := words.get 6
  r10 := words.get 7
  r9 := words.get 8
  r8 := words.get 9
  rax := words.get 10
  rcx := words.get 11
  rdx := words.get 12
  rsi := words.get 13
  rdi := words.get 14
  origRax := words.get 15
  rip := words.get 16
  cs := words.get 17
  eflags := words.get 18
  rsp := words.get 19
  ss := words.get 20
  fsBase := words.get 21
  gsBase := words.get 22
  ds := words.get 23
  es := words.get 24
  fs := words.get 25
  gs := words.get 26

def userRegsCodec : Codec UserRegs :=
  (Codec.word64.vector 27).imap UserRegs.ofWords UserRegs.toWords (fun _ => rfl)

def kernelMapCodec : Codec KernelMap :=
  (Codec.word64.pair (Codec.word64.pair (Codec.bytes kernelMapNameLen))).imap
    (fun (start, size, name) => ⟨start, size, name⟩)
    (fun kernelMap => (kernelMap.startAddress, kernelMap.size, kernelMap.name))
    (fun _ => rfl)

def vmaCodec : Codec VmaDescriptor :=
  (Codec.word64.pair (Codec.word64.pair (Codec.word64.pair (Codec.word64.pair
    (Codec.word32.pair (Codec.word32.pair (Codec.word32.pair Codec.word32))))))).imap
    (fun (start, size, fileOffset, dataOffset, prot, mapFlags, pathOffset, pathLen) =>
      ⟨start, size, fileOffset, dataOffset, prot, mapFlags, pathOffset, pathLen⟩)
    (fun vma => (vma.startAddress, vma.size, vma.fileOffset, vma.dataOffset, vma.prot,
      vma.mapFlags, vma.pathOffset, vma.pathLen))
    (fun _ => rfl)

def fdCodec : Codec FdDescriptor :=
  (int32Codec.pair (int32Codec.pair (Codec.word32.pair (Codec.word32.pair
    (Codec.word32.pair (Codec.word32.pair Codec.word64)))))).imap
    (fun (fd, dupOf, flags, pathOffset, pathLen, reserved, position) =>
      ⟨fd, dupOf, flags, pathOffset, pathLen, reserved, position⟩)
    (fun entry => (entry.fd, entry.dupOf, entry.flags, entry.pathOffset, entry.pathLen,
      entry.reserved, entry.position))
    (fun _ => rfl)

def headerCodec : Codec DumpHeader :=
  ((Codec.bytes 8).pair (Codec.word32.pair (Codec.word32.pair (Codec.word64.pair
    (Codec.word64.pair (Codec.word64.pair (Codec.word64.pair (Codec.word32.pair
    ((Codec.bytes pathMax).pair (Codec.word32.pair
    ((kernelMapCodec.vector maxKernelMaps).pair (userRegsCodec.pair (Codec.word64.pair
    (Codec.word32.pair (Codec.word32.pair (Codec.word64.pair (Codec.word32.pair
    Codec.word32))))))))))))))))).imap
    (fun (magic, version, vmaCount, vmaTableOffset, pathPoolOffset, pathPoolSize, dataOffset,
        exePathLen, exePath, kernelMapCount, kernelMaps, regs, xstateOffset, xstateSize,
        xstateReserved, fdTableOffset, fdCount, fdReserved) =>
      ⟨magic, version, vmaCount, vmaTableOffset, pathPoolOffset, pathPoolSize, dataOffset,
        exePathLen, exePath, kernelMapCount, kernelMaps, regs, xstateOffset, xstateSize,
        xstateReserved, fdTableOffset, fdCount, fdReserved⟩)
    (fun header => (header.magic, header.version, header.vmaCount, header.vmaTableOffset,
      header.pathPoolOffset, header.pathPoolSize, header.dataOffset, header.exePathLen,
      header.exePath, header.kernelMapCount, header.kernelMaps, header.regs,
      header.xstateOffset, header.xstateSize, header.xstateReserved, header.fdTableOffset,
      header.fdCount, header.fdReserved))
    (fun _ => rfl)

/-! The static assertions of the header file, and the records inside the header. -/

@[simp]
theorem kernelMapCodec_width : kernelMapCodec.width = 48 := rfl

@[simp]
theorem vmaCodec_width : vmaCodec.width = 48 := rfl

@[simp]
theorem fdCodec_width : fdCodec.width = 32 := rfl

@[simp]
theorem headerCodec_width : headerCodec.width = 4592 := rfl

end Ksnap
