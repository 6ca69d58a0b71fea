import Ksnap.Dump.Protocol

/-!
# Target and disk

The world a dump runs in: the stopped target, which does not change, and the file at
the path of the snapshot. The file is written through a buffer, so at any moment the
disk holds some beginning of what the stream took, and all of it only after a flush
or a close that succeeded. A call may fail at any time; one that does not says the
truth about the target.
-/

namespace Ksnap

open Foundation Foundation.Program

/-- The process that is dumped, as the kernel shows it while it is stopped. -/
structure Target where
  regs : UserRegs
  xstate : Bytes
  maps : Option MapsFile
  files : FdFiles
  memory : ℕ → UInt8

/-- The file at the path of the snapshot: whether this dump has opened it, what its stream
took, and what is on the disk. -/
structure SnapshotFile where
  opened : Bool
  taken : Bytes
  disk : Option Bytes

/-- What a reply that is no failure says about the target. -/
def Truthful (target : Target) : DumpEvent → Prop
  | ⟨.getRegs, some regs⟩ => regs = target.regs
  | ⟨.getXstate, some xstate⟩ => xstate = target.xstate
  | ⟨.readMaps, maps⟩ => maps = target.maps
  | ⟨.readFds, files⟩ => files = target.files
  | ⟨.readMemory address _, .chunk bytes _⟩ =>
      ∀ index byte, bytes[index]? = some byte → byte = target.memory (address.toNat + index)
  | _ => True

/-- What a call does to the file. A write may take a part of the bytes only, and the disk
is behind the stream until a flush or the close. -/
def FileStep (before : SnapshotFile) : DumpEvent → SnapshotFile → Prop
  | ⟨.createSnapshot, true⟩, after => after = ⟨true, [], some []⟩
  | ⟨.write bytes, complete⟩, after =>
      if before.opened then ∃ count left, (complete = true → count = bytes.length) ∧
        left <+: before.taken ++ bytes.take count ∧
          after = ⟨true, before.taken ++ bytes.take count, some left⟩
      else after = before
  | ⟨.flush, complete⟩, after | ⟨.closeSnapshot, complete⟩, after =>
      if before.opened then ∃ left, (complete = true → left = before.taken) ∧
        left <+: before.taken ∧ after = ⟨true, before.taken, some left⟩
      else after = before
  | _, after => after = before

/-- The world of a dump of this target. -/
abbrev dumpWorld (target : Target) : Environment DumpInterface where
  State := SnapshotFile
  step := fun before request reply after =>
    Truthful target ⟨request, reply⟩ ∧ FileStep before ⟨request, reply⟩ after

/-- A call that does not touch the file. -/
def Unconcerned : DumpCall → Prop
  | .createSnapshot | .write _ | .flush | .closeSnapshot => False
  | _ => True

theorem eq_of_unconcerned {request : DumpCall} {reply : DumpReply request}
    {before after : SnapshotFile} (unconcerned : Unconcerned request)
    (step : FileStep before ⟨request, reply⟩ after) : after = before := by
  cases request with
  | createSnapshot | write bytes | flush | closeSnapshot => exact unconcerned.elim
  | _ => exact step

/-- Calls that do not touch the file leave it as it is. -/
theorem ensures_unconcerned {α : Type} {target : Target} {program : Program DumpInterface α}
    (onlyCalls : program.OnlyCalls Unconcerned) (file : SnapshotFile) :
    program.Ensures (dumpWorld target) (fun _ => True) (fun _ after => after = file) file := by
  have same : program.Ensures (dumpWorld target) (· = file) (fun _ after => after = file) file := by
    refine onlyCalls.ensures ?_ rfl
    rintro before request reply after unconcerned rfl ⟨_, step⟩
    exact eq_of_unconcerned unconcerned step
  exact same.weaken fun _ _ => trivial

/-! ## The file and the record -/

/-- Whether the last thing that happened to the stream was that it was closed. -/
def closeStream (closed : Bool) : DumpEvent → Bool
  | ⟨.closeSnapshot, complete⟩ => complete
  | ⟨.createSnapshot, _⟩ | ⟨.write _, _⟩ | ⟨.flush, _⟩ => false
  | _ => closed

def streamClosed (trace : DumpTrace) : Bool :=
  trace.foldl closeStream false

theorem streamClosed_concat (trace : DumpTrace) (event : DumpEvent) :
    streamClosed (trace ++ [event]) = closeStream (streamClosed trace) event := by
  simp [streamClosed]

/-- How the file follows from the record of the calls. -/
structure FileFollows (target : Target) (trace : DumpTrace) (file : SnapshotFile) : Prop where
  opened : ⟨.createSnapshot, true⟩ ∈ trace → file.opened = true
  taken : AllWritten trace → file.opened = true → file.taken = writtenBytes trace
  closed : streamClosed trace = true → file.opened = true → file.disk = some file.taken
  truthful : ∀ event ∈ trace, Truthful target event

section

variable {target : Target} {trace : DumpTrace} {file : SnapshotFile}
  (follows : FileFollows target trace file) {event : DumpEvent}
  (truthful : Truthful target event)

include follows truthful

theorem FileFollows.truthful_concat : ∀ other ∈ trace ++ [event], Truthful target other := by
  intro other mem
  rcases List.mem_append.mp mem with earlier | last
  · exact follows.truthful other earlier
  · rw [List.mem_singleton.mp last]
    exact truthful

omit truthful in
theorem FileFollows.opened_concat (noCreate : event ≠ ⟨.createSnapshot, true⟩) :
    ⟨.createSnapshot, true⟩ ∈ trace ++ [event] → file.opened = true := by
  intro mem
  rcases List.mem_append.mp mem with earlier | last
  · exact follows.opened earlier
  · exact absurd (List.mem_singleton.mp last).symm noCreate

/-- A call that leaves the stream alone. -/
theorem FileFollows.quiet (noCreate : event ≠ ⟨.createSnapshot, true⟩)
    (noWrite : ∀ written, handOver written event = written)
    (noClose : ∀ closed, closeStream closed event = closed) :
    FileFollows target (trace ++ [event]) file where
  opened := follows.opened_concat noCreate
  taken := by
    intro all isOpen
    rw [writtenBytes_concat, noWrite]
    exact follows.taken (fun bytes mem => all bytes (List.mem_append_left _ mem)) isOpen
  closed := by
    rw [streamClosed_concat, noClose]
    exact follows.closed
  truthful := follows.truthful_concat truthful

/-- Without an open stream nothing can happen to the file. -/
theorem FileFollows.unopened (noCreate : event ≠ ⟨.createSnapshot, true⟩)
    (notOpen : file.opened = false) : FileFollows target (trace ++ [event]) file where
  opened := follows.opened_concat noCreate
  taken := fun _ isOpen => absurd isOpen (by simp [notOpen])
  closed := fun _ isOpen => absurd isOpen (by simp [notOpen])
  truthful := follows.truthful_concat truthful

/-- A flush or a close, which gets all of the stream to the disk when it succeeds. -/
theorem FileFollows.drain (noCreate : event ≠ ⟨.createSnapshot, true⟩)
    (noWrite : ∀ written, handOver written event = written) {complete : Bool}
    (close : ∀ closed, closeStream closed event = true → complete = true)
    {after : SnapshotFile}
    (taken : if file.opened then ∃ left, (complete = true → left = file.taken) ∧
        left <+: file.taken ∧ after = ⟨true, file.taken, some left⟩
      else after = file) : FileFollows target (trace ++ [event]) after := by
  cases isOpen : file.opened with
  | false =>
      rw [if_neg (by simp [isOpen])] at taken
      exact taken ▸ follows.unopened truthful noCreate isOpen
  | true =>
      rw [if_pos isOpen] at taken
      rcases taken with ⟨left, whole, _, rfl⟩
      exact {
        opened := fun _ => rfl
        taken := by
          intro all _
          rw [writtenBytes_concat, noWrite]
          exact follows.taken (fun bytes mem => all bytes (List.mem_append_left _ mem)) isOpen
        closed := by
          intro closed _
          rw [streamClosed_concat] at closed
          exact congrArg some (whole (close _ closed))
        truthful := follows.truthful_concat truthful }

end

theorem FileFollows.step {target : Target} {trace : DumpTrace} {before after : SnapshotFile}
    (follows : FileFollows target trace before) {request : DumpCall} {reply : DumpReply request}
    (truthful : Truthful target ⟨request, reply⟩)
    (taken : FileStep before ⟨request, reply⟩ after) :
    FileFollows target (trace ++ [⟨request, reply⟩]) after := by
  cases request with
  | createSnapshot =>
      cases reply with
      | false =>
          obtain rfl : after = before := taken
          exact {
            opened := follows.opened_concat (by simp)
            taken := by
              rw [writtenBytes_concat]
              exact fun all => follows.taken fun bytes mem => all bytes (List.mem_append_left _ mem)
            closed := by simp [streamClosed_concat, closeStream]
            truthful := follows.truthful_concat truthful }
      | true =>
          obtain rfl : after = ⟨true, [], some []⟩ := taken
          exact {
            opened := fun _ => rfl
            taken := fun _ _ => (writtenBytes_created trace).symm
            closed := fun _ _ => rfl
            truthful := follows.truthful_concat truthful }
  | write bytes =>
      cases isOpen : before.opened with
      | false =>
          rw [FileStep, if_neg (by simp [isOpen])] at taken
          exact taken ▸ follows.unopened truthful (by simp) isOpen
      | true =>
          rw [FileStep, if_pos isOpen] at taken
          rcases taken with ⟨count, left, complete, _, rfl⟩
          exact {
            opened := fun _ => rfl
            taken := by
              intro all _
              have whole : reply = true := by
                cases reply with
                | true => rfl
                | false => exact absurd (by simp) (all bytes)
              subst whole
              rw [writtenBytes_concat, complete rfl, List.take_length]
              have allBefore : AllWritten trace :=
                fun other mem => all other (List.mem_append_left _ mem)
              exact congrArg (· ++ bytes) (follows.taken allBefore isOpen)
            closed := by simp [streamClosed_concat, closeStream]
            truthful := follows.truthful_concat truthful }
  | flush =>
      exact follows.drain truthful (by simp) (fun _ => rfl)
        (fun _ closed => by simp [closeStream] at closed) taken
  | closeSnapshot =>
      exact follows.drain truthful (by simp) (fun _ => rfl) (fun _ closed => closed) taken
  | _ =>
      obtain rfl : after = before := taken
      exact follows.quiet truthful (by simp) (fun _ => rfl) (fun _ => rfl)

/-! ## Runs -/

/-- The world before a dump, with what is at the path of the snapshot. -/
def untouched (disk : Option Bytes) : SnapshotFile := ⟨false, [], disk⟩

/-- A run has a record which the file follows from. -/
theorem exists_record {α : Type} {target : Target} {program : Program DumpInterface α}
    {disk : Option Bytes} {result : α} {file : SnapshotFile}
    (run : program.Exec (dumpWorld target) (untouched disk) result file) :
    ∃ trace, program.Exec (recording DumpInterface) [] result trace ∧
      FileFollows target trace file := by
  rcases run.traced [] with ⟨trace, recorded⟩
  refine ⟨trace, recorded.record, ?_⟩
  have initially : FileFollows target [] (untouched disk) := {
    opened := by simp
    taken := fun _ isOpen => absurd isOpen (by simp [untouched])
    closed := by simp [streamClosed]
    truthful := by simp }
  have step : ∀ (state : (tracing (dumpWorld target)).State) (request : DumpCall)
      (reply : DumpReply request) (final : (tracing (dumpWorld target)).State),
      FileFollows target state.1 state.2 →
      (tracing (dumpWorld target)).step state request reply final →
        FileFollows target final.1 final.2 := by
    rintro ⟨before, file⟩ request reply ⟨after, file'⟩ follows ⟨rfl, truthful, taken⟩
    exact follows.step truthful taken
  exact recorded.invariant step initially

/-- Each payload is the memory of its mapping. -/
def PayloadsMatch (target : Target) (vmas : List VmaDescriptor) (payloads : List Bytes) : Prop :=
  List.Forall₂ (fun vma payload => payload.length = vma.size.toNat ∧
    ∀ index byte, payload[index]? = some byte →
      byte = target.memory (vma.startAddress.toNat + index)) vmas payloads

/-- The memory of a mapping. -/
def Target.payload (target : Target) (vma : VmaDescriptor) : Bytes :=
  (List.range vma.size.toNat).map fun index => target.memory (vma.startAddress.toNat + index)

theorem payloads_of_payloadsMatch {target : Target} {vmas : List VmaDescriptor}
    {payloads : List Bytes} (payloadsMatch : PayloadsMatch target vmas payloads) :
    payloads = vmas.map target.payload := by
  induction payloadsMatch with
  | nil => rfl
  | @cons vma payload vmas payloads holds _ ih =>
      rw [List.map_cons, ← ih]
      congr 1
      refine List.ext_getElem (by simp [Target.payload, holds.1]) fun index inside _ => ?_
      rw [holds.2 index _ (List.getElem?_eq_getElem inside)]
      simp [Target.payload]

theorem payloadsMatch_payload (target : Target) (vmas : List VmaDescriptor) :
    PayloadsMatch target vmas (vmas.map target.payload) := by
  induction vmas with
  | nil => exact .nil
  | cons vma vmas ih =>
      refine .cons ⟨by simp [Target.payload], fun index byte here => ?_⟩ ih
      rw [Target.payload, List.getElem?_map, Option.map_eq_some_iff] at here
      rcases here with ⟨offset, inRange, rfl⟩
      rcases List.getElem?_eq_some_iff.mp inRange with ⟨_, rfl⟩
      rw [List.getElem_range]

theorem payloadsMatch_of_read {target : Target} {trace : DumpTrace} {file : SnapshotFile}
    (follows : FileFollows target trace file) {vmas : List VmaDescriptor} {payloads : List Bytes}
    (read : PayloadsRead trace vmas payloads) : PayloadsMatch target vmas payloads := by
  refine read.imp fun vma payload holds => ⟨holds.1, fun index byte at_ => ?_⟩
  rcases holds.2 index byte at_ with ⟨start, count, bytes, fits, offset, mem, here, address⟩
  rw [address]
  exact follows.truthful _ mem offset byte here

theorem PayloadsMatch.length {target : Target} {vmas : List VmaDescriptor}
    {payloads : List Bytes} (payloadsMatch : PayloadsMatch target vmas payloads) :
    payloads.flatten.length = payloadSize vmas := by
  induction payloadsMatch with
  | nil => rfl
  | cons payload _ ih => simp [payload.1, ih]

/-- Letting go of the target is nothing to the stream. -/
theorem writtenBytes_lettingGo (trace : DumpTrace) {rest : DumpTrace}
    (lettingGo : ∀ event ∈ rest, LettingGo event.request) :
    writtenBytes (trace ++ rest) = writtenBytes trace ∧
      streamClosed (trace ++ rest) = streamClosed trace ∧
        (AllWritten trace → AllWritten (trace ++ rest)) := by
  induction rest generalizing trace with
  | nil => simp
  | cons event rest ih =>
      obtain ⟨written, closed, all⟩ := ih (trace ++ [event])
        fun later mem => lettingGo later (List.mem_cons_of_mem _ mem)
      rw [writtenBytes_concat] at written
      rw [streamClosed_concat] at closed
      rw [← List.append_cons] at written closed all
      rcases event with ⟨request, reply⟩
      have calls := lettingGo _ List.mem_cons_self
      refine ⟨written.trans ?_, closed.trans ?_, fun before => all (before.concat ?_)⟩
      · rcases calls with rfl | rfl | rfl <;> rfl
      · rcases calls with rfl | rfl | rfl <;> rfl
      · rcases calls with rfl | rfl | rfl <;> simp

/-- Once the snapshot was saved, it is on the disk in full. -/
theorem disk_of_saved {target : Target} {parts : SnapshotParts} {saved rest : DumpTrace}
    {file : SnapshotFile} (follows : FileFollows target (saved ++ rest) file)
    (complete : SnapshotSaved parts saved)
    (lettingGo : ∀ event ∈ rest, LettingGo event.request) :
    ∃ payloads, PayloadsMatch target parts.vmas payloads ∧
      file.disk = some (parts.fileBytes payloads.flatten) := by
  rcases writtenBytes_lettingGo saved lettingGo with ⟨written, closed, all⟩
  rcases complete with ⟨body, payloads, rfl, created, allBody, bytes, read⟩
  have isOpen := follows.opened (by simp [created])
  have longer : body <+: body ++ [⟨.closeMemory, ()⟩, ⟨.flush, true⟩, ⟨.sync, true⟩,
      ⟨.closeSnapshot, true⟩] ++ rest := by
    rw [List.append_assoc]
    exact List.prefix_append _ _
  refine ⟨payloads, payloadsMatch_of_read follows (read.mono longer), ?_⟩
  have closedAll := follows.closed (by rw [closed]; simp [streamClosed, closeStream]) isOpen
  have taken := follows.taken (all fun bytes mem => by simp at mem; exact allBody bytes mem) isOpen
  rw [closedAll, taken, written, ← bytes]
  simp [writtenBytes, handOver]

theorem writeSnapshot_disk {target : Target} {parts : SnapshotParts} (sound : parts.Sound)
    {rounds : ℕ} {disk : Option Bytes} {file : SnapshotFile}
    (run : (writeSnapshot rounds parts).Exec (dumpWorld target) (untouched disk) true file) :
    ∃ payloads, PayloadsMatch target parts.vmas payloads ∧
      file.disk = some (parts.fileBytes payloads.flatten) := by
  rcases exists_record run with ⟨trace, recorded, follows⟩
  have complete := (writeSnapshot_spec sound rounds (by simp [AllWritten])).exec recorded rfl
  rw [← List.append_nil trace] at follows
  exact disk_of_saved follows complete (by simp)

/-- What a dump that returns OK leaves: the file of the parts that were collected from the
target, with its memory as the payloads. -/
theorem dump_disk {target : Target} {config : DumpConfig} {memory : Allocations} {rounds : ℕ}
    {disk : Option Bytes} {file : SnapshotFile}
    (run : (dump config memory rounds).Exec (dumpWorld target) (untouched disk) true file) :
    ∃ parts payloads, Collected target.maps target.files parts ∧ parts.regs = target.regs ∧
      parts.xstate = target.xstate ∧ PayloadsMatch target parts.vmas payloads ∧
        file.disk = some (parts.fileBytes payloads.flatten) := by
  rcases exists_record run with ⟨trace, recorded, follows⟩
  rcases dump_saved recorded with ⟨saved, rest, parts, rfl, lettingGo, collected, complete⟩
  rcases disk_of_saved follows complete lettingGo with ⟨payloads, payloadsMatch, bytes⟩
  rcases collected with ⟨link, maps, files, tables, calls⟩
  have said : ∀ event ∈ saved, Truthful target event :=
    fun event mem => follows.truthful event (List.mem_append_left _ mem)
  have regs : parts.regs = target.regs := said ⟨.getRegs, some _⟩ (calls (by simp))
  have xstate : parts.xstate = target.xstate := said ⟨.getXstate, some _⟩ (calls (by simp))
  have sameMaps : maps = target.maps := said ⟨.readMaps, maps⟩ (calls (by simp))
  have sameFiles : files = target.files := said ⟨.readFds, files⟩ (calls (by simp))
  exact ⟨parts, payloads, sameMaps ▸ sameFiles ▸ tables, regs, xstate, payloadsMatch, bytes⟩

/-! ## A world without failures -/

/-- The kernel and the disk do what they are asked: the link of the executable and the
position in the stream are given, everything else is the target's. -/
def obliging (target : Target) (link : Bytes) (position : ℕ) (before : SnapshotFile) :
    (request : DumpCall) → DumpReply request × SnapshotFile
  | .waitStop => (some true, before)
  | .getRegs => (some target.regs, before)
  | .getXstate => (some target.xstate, before)
  | .readExe => (some link, before)
  | .readMaps => (target.maps, before)
  | .readFds => (target.files, before)
  | .createSnapshot => (true, ⟨true, [], some []⟩)
  | .write bytes =>
      let taken := before.taken ++ bytes
      (true, if before.opened then ⟨true, taken, some taken⟩ else before)
  | .tell => (some position, before)
  | .readMemory address count =>
      let bytes := (List.range count).map fun index => target.memory (address.toNat + index)
      (.chunk bytes (by simp [bytes]), before)
  | .closeMemory | .reap => ((), before)
  | .flush | .closeSnapshot =>
      (true, if before.opened then ⟨true, before.taken, some before.taken⟩ else before)
  | .seize | .interrupt | .allocateXstate | .openMemory | .sync | .kill | .detach =>
      (true, before)

theorem obliging_allowed (target : Target) (link : Bytes) (position : ℕ) (before : SnapshotFile)
    (request : DumpCall) :
    (dumpWorld target).step before request (obliging target link position before request).1
      (obliging target link position before request).2 := by
  cases request with
  | write bytes =>
      refine ⟨trivial, ?_⟩
      simp only [FileStep, obliging]
      split
      · exact ⟨bytes.length, before.taken ++ bytes, fun _ => rfl, by simp, by simp⟩
      · rfl
  | flush =>
      refine ⟨trivial, ?_⟩
      simp only [FileStep, obliging]
      split
      · exact ⟨before.taken, fun _ => rfl, List.prefix_rfl, rfl⟩
      · rfl
  | closeSnapshot =>
      refine ⟨trivial, ?_⟩
      simp only [FileStep, obliging]
      split
      · exact ⟨before.taken, fun _ => rfl, List.prefix_rfl, rfl⟩
      · rfl
  | readMemory address count =>
      refine ⟨?_, rfl⟩
      intro index byte at_
      simp only [List.getElem?_map, Option.map_eq_some_iff] at at_
      rcases at_ with ⟨offset, range, rfl⟩
      rcases List.getElem?_eq_some_iff.mp range with ⟨inside, here⟩
      rw [← here, List.getElem_range]
  | getRegs | getXstate | readMaps | readFds => exact ⟨rfl, rfl⟩
  | _ => exact ⟨trivial, rfl⟩

/-- What evaluates in the obliging world is a run. -/
theorem exec_of_obliging {α : Type} {target : Target} {link : Bytes} {position : ℕ}
    {program : Program DumpInterface α} {before after : SnapshotFile} {result : α}
    (evaluated : program.evaluate (obliging target link position) before = some (result, after)) :
    program.Exec (dumpWorld target) before result after :=
  exec_of_evaluate (obliging_allowed target link position) evaluated

end Ksnap
