import Ksnap.Panel.Headers
import Ksnap.Panel.Known
import Ksnap.System.Machine

/-!
# A dump through the panel

A dump that the panel answers with a report has run the engine to its end. The file under the
folder and the name of the answer is then the image of the process, whatever was there before,
no other file has changed, and the report that the panel reads back out of the header says what
the kernel said of the process.
-/

namespace Ksnap

open Foundation Foundation.Program Raising Panel

/-! ## The header of an image -/

/-- What the panel shows of the snapshot of a target. -/
def Target.view (target : Target) (link : Bytes) : HeaderView where
  version := formatVersion.toNat
  vmaCount := target.tables.vmas.length
  exePath := decodeName (link.take (pathMax - 1))
  kernelMaps := target.tables.kernelMaps.map kernelMapOf
  rip := hexText target.regs.rip.toNat
  rsp := hexText target.regs.rsp.toNat
  xstateSize := target.xstate.length
  fdCount := target.tables.fds.length

theorem decodeName_padded (raw : Bytes) (count : ℕ) :
    decodeName (raw ++ List.replicate count 0) = decodeName raw := by
  have none_ : (List.replicate count (0 : UInt8)).takeWhile (· ≠ 0) = [] := by
    cases count <;> rfl
  rw [decodeName, decodeName, List.takeWhile_append]
  split
  · next whole =>
    rw [none_, List.append_nil, (List.takeWhile_prefix _).eq_of_length whole]
  · rfl

section

variable {target : Target} {link : Bytes} (sound : (target.parts link).Sound)

include sound

theorem headerView_parts : headerView (target.parts link).header = target.view link := by
  have vmas := sound.vmas_lt
  have fds := sound.fds_lt
  have xstate := sound.xstate_lt
  have same := sound.sameData
  have maxSize : xstateMaxSize.toNat = 65536 := rfl
  have exePath : decodeName (target.parts link).header.exePath.toList =
      decodeName (link.take (pathMax - 1)) := by
    simp only [SnapshotParts.header, copyOver_toList sound.exePath_lt.le]
    exact decodeName_padded _ _
  have kernelMaps := same.kernelMaps
  have vmaCount : (target.parts link).header.vmaCount.toNat = target.tables.vmas.length := by
    simp only [SnapshotParts.header, UInt32.toNat_ofNat']
    exact Nat.mod_eq_of_lt vmas
  have fdCount : (target.parts link).header.fdCount.toNat = target.tables.fds.length := by
    simp only [SnapshotParts.header, UInt32.toNat_ofNat']
    exact Nat.mod_eq_of_lt fds
  have xstateSize : (target.parts link).header.xstateSize.toNat = target.xstate.length := by
    simp only [SnapshotParts.header, UInt32.toNat_ofNat']
    exact Nat.mod_eq_of_lt (xstate.trans (by omega))
  rw [headerView, vmaCount, fdCount, xstateSize, exePath]
  simp only [SnapshotParts.snapshot, laidOutSnapshot] at kernelMaps
  rw [kernelMaps]
  rfl

/-- The panel reads what was dumped out of the image's header. -/
theorem parseHeader_image :
    parseHeader ((target.image link).take headerSize) = .ok (target.view link) := by
  have start : headerCodec.encode (target.parts link).header <+: target.image link :=
    List.prefix_append _ _
  have fits : headerCodec.width ≤ (target.image link).length := by
    rw [← Codec.length_encode headerCodec (target.parts link).header]
    exact start.length_le
  have decoded : headerCodec.decode (target.image link) = (target.parts link).header := by
    rcases start with ⟨rest, split⟩
    rw [← split, Codec.decode_encode]
  have headerSound := headerSound_of_parts sound
  have size : headerSize = headerCodec.width := describes_header.size
  have whole : ((target.image link).take headerSize).length = headerSize :=
    List.length_take_of_le (size.trans_le fits)
  have isMagic : bytesAt (headerFields (target.parts link).header) 0 = magic := headerSound.magic
  have isVersion : numberAt (headerFields (target.parts link).header) 1 = formatVersion.toNat :=
    congrArg UInt32.toNat headerSound.version
  rw [parseHeader, if_neg (not_lt.mpr whole.ge), unpack_header fits, decoded]
  dsimp only
  rw [if_neg (not_not.mpr isMagic), if_neg (not_not.mpr isVersion),
    viewFields_headerFields headerSound, terminateExePath_header sound.exePath_lt,
    headerView_parts sound]

end

/-! ## The engine's part -/

/-- Where the folder and the name of a snapshot lead. -/
def Machine.snapshotPlace (machine : Machine) (raw rawName : Bytes) : machine.Place :=
  machine.leads (raw ++ [47] ++ rawName)

/-- A snapshot of a process that had this pid: the file at this place is its image, and all other
files are as before, but those of the panel's own. The process was killed if that was asked for, and
no other one was. -/
structure Machine.Holds {machine : Machine} (before after : machine.State) (pid : ℤ) (kill : Bool)
    (place : machine.Place) (target : Target) (link : Bytes) : Prop where
  process : ∃ number : Int32, number.toInt = pid ∧ machine.shows number target link ∧
    after.killed = before.killed ++ if kill then [number] else []
  collected : Collected target.maps target.files (target.parts link)
  image : after.files place = some (target.image link)
  others : ∀ other, other ≠ place → ¬machine.Own other → after.files other = before.files other
  forked : after.forked = before.forked
  started : after.started = before.started

section Kills

variable {config : DumpConfig} {trace : DumpTrace}

theorem isKill_of_ne {event : DumpEvent} (other : event.request ≠ .kill) :
    isKill event = false := by
  rcases event with ⟨request, reply⟩
  cases request with
  | kill => exact absurd rfl other
  | _ => rfl

theorem countP_isKill_concat {event : DumpEvent} (other : event.request ≠ .kill) :
    (trace ++ [event]).countP isKill = trace.countP isKill := by
  rw [List.countP_append, List.countP_singleton, isKill_of_ne other]
  rfl

theorem detachTarget_kills (result : Bool) :
    (detachTarget result).Ensures (recording DumpInterface) (fun _ => True)
      (fun detached final => (detached = true → result = true) ∧
        final.countP isKill = trace.countP isKill) trace := by
  rw [detachTarget, ensures_perform_bind]
  rintro detached _ rfl
  refine ⟨trivial, fun both => (Bool.and_eq_true_iff.mp both).2, countP_isKill_concat ?_⟩
  exact fun same => by cases same

/-- The label kills where that was asked for and returns OK. -/
theorem finishDump_kills (captured : Bool) (none_ : trace.countP isKill = 0) :
    (finishDump config captured).Ensures (recording DumpInterface) (fun _ => True)
      (fun result final =>
        final.countP isKill = if result && config.killAfterDump then 1 else 0) trace := by
  rw [finishDump]
  split
  · next both =>
    rcases Bool.and_eq_true_iff.mp both with ⟨-, kill⟩
    rw [ensures_perform_bind]
    rintro killed _ rfl
    refine ⟨trivial, ?_⟩
    cases killed with
    | false =>
        rw [if_neg Bool.false_ne_true]
        refine (detachTarget_kills false).mono ?_
        rintro result final ⟨notOk, same⟩
        have failed : result = false := by
          cases result with
          | false => rfl
          | true => cases notOk rfl
        rw [same, failed, List.countP_append, none_]
        rfl
    | true =>
        rw [if_pos rfl, ensures_perform_bind]
        rintro reaped _ rfl
        refine ⟨trivial, ?_⟩
        have notKill : (⟨.reap, reaped⟩ : DumpEvent).request ≠ .kill := fun same => by cases same
        rw [ensures_pure, countP_isKill_concat notKill, List.countP_append, none_, kill]
        rfl
  · next notBoth =>
    refine (detachTarget_kills captured).mono ?_
    rintro result final ⟨isCaptured, same⟩
    rw [same, none_, if_neg]
    intro both
    rcases Bool.and_eq_true_iff.mp both with ⟨isOk, kill⟩
    exact notBoth (Bool.and_eq_true_iff.mpr ⟨isCaptured isOk, kill⟩)

/-- A dump kills its target once, if it returns OK and was asked to, and never otherwise. -/
theorem kills_of_dump {memory : Allocations} {rounds : ℕ} {success : Bool} {trace : DumpTrace}
    (run : (dump config memory rounds).Exec (recording DumpInterface) [] success trace) :
    trace.countP isKill = if success && config.killAfterDump then 1 else 0 := by
  have spec : (dump config memory rounds).Ensures (recording DumpInterface) (fun _ => True)
      (fun result final =>
        final.countP isKill = if result && config.killAfterDump then 1 else 0) [] := by
    rw [dump]
    split
    · rfl
    · rw [ensures_perform_bind]
      rintro seized _ rfl
      refine ⟨trivial, ?_⟩
      cases seized with
      | false => rfl
      | true =>
          rw [if_pos rfl, ensures_bind]
          refine ((onlyCalls_dumpSeized memory rounds).ensures_record _).mono ?_
          rintro outcome _ ⟨new, rfl, capturing⟩
          apply finishDump_kills
          have quiet : new.countP isKill = 0 := by
            rw [List.countP_eq_zero]
            intro event mem
            rw [isKill_of_ne]
            · exact Bool.false_ne_true
            · intro isKill
              have only := capturing event mem
              rw [isKill] at only
              exact only
          rw [List.countP_append, quiet]
          rfl
  exact spec.exec run

end Kills

section Engine

variable {machine : Machine} {before after : machine.State} {code : ℤ}

theorem holds_of_dumps {number : Int32} {raw rawName : Bytes} {kill : Bool}
    (dumps : Machine.Dumps number ⟨some rawName, some raw, kill⟩ before code after)
    (success : code = 0) :
    ∃ target link, Machine.Holds before after number.toInt kill
      (machine.snapshotPlace raw rawName) target link := by
  rw [Machine.Dumps] at dumps
  split at dumps
  · rw [dumps.1] at success
    cases success
  · next path built =>
    have isPath : raw ++ [47] ++ rawName = path := eq_of_buildSnapshotPath built
    rcases dumps with ⟨memory, rounds, target, link, isSuccess, trace, file, files, run, shows,
      isCode, writes, rfl⟩
    obtain rfl : isSuccess = true := exitCode_eq_zero (isCode.symm.trans success)
    rcases image_of_dump run.untraced with ⟨image, collected⟩
    have kills := kills_of_dump run.record
    rw [image] at writes
    subst isPath
    refine ⟨target, link, ⟨number, rfl, shows rfl, ?_⟩, collected, writes.own,
      fun other notOwn _ => writes.others other notOwn, rfl, rfl⟩
    rw [kills]
    cases kill <;> rfl

/-- A run of the engine for a dump that ends with success. -/
theorem holds_of_runs {config : Config} {engine : Text} {pid : ℤ} {directory n : Text}
    {kill : Bool} {completed : Completed Bytes}
    (runs : Machine.Runs (command config engine (.dump pid directory n kill)) before completed
      after) (success : completed.returncode = 0) :
    ∃ raw rawName target link, argumentBytes directory = some raw ∧
      argumentBytes n = some rawName ∧
      Machine.Holds before after pid kill (machine.snapshotPlace raw rawName) target link := by
  cases runs with
  | ended argv passes main =>
      rw [Machine.MainRuns] at main
      rcases settles_request passes with ⟨-, number, raw, rawName, isPid, isRaw, isName, job⟩ |
        ⟨-, failure, -, job⟩
      · rw [job] at main
        rcases holds_of_dumps main success with ⟨target, link, holds⟩
        exact ⟨raw, rawName, target, link, isRaw, isName, isPid ▸ holds⟩
      · rw [job] at main
        have failed : completed.returncode = exitFailure := main.1
        rw [failed] at success
        cases success
  | signalled argv passes negative stopped => omega
  | refused isSudo one same => omega

end Engine

/-! ## The panel's part -/

theorem fsEncode_append {first second : Text} {rawFirst rawSecond : Bytes}
    (isFirst : fsEncode first = some rawFirst) (isSecond : fsEncode second = some rawSecond) :
    fsEncode (first ++ second) = some (rawFirst ++ rawSecond) := by
  rw [fsEncode, Option.map_eq_some_iff] at isFirst isSecond
  rcases isFirst with ⟨characters, mapped, rfl⟩
  rcases isSecond with ⟨others, mappedOthers, rfl⟩
  rw [fsEncode, List.mapM_append, mapped]
  simp [mappedOthers]

theorem fsEncode_of_argumentBytes {value : Text} {raw : Bytes}
    (passed : argumentBytes value = some raw) : fsEncode value = some raw :=
  Option.eq_some_of_filter_eq_some passed

/-- The file name of a file name is the same. -/
theorem validateName_again {given : Json} {n m : Text} (named : Panel.validateName given = .ok n)
    (again : Panel.validateName (.string n) = .ok m) : m = n := by
  cases given with
  | string name =>
      rcases validateName_eq_ok_iff.mp named with ⟨isGiven, rfl⟩
      have chars := nameChar_fileName isGiven.chars
      have solid : strip (fileName (strip name)) = fileName (strip name) :=
        strip_eq_self fun c mem => not_whitespace_of_nameChar (chars c mem)
      rcases validateName_eq_ok_iff.mp again with ⟨-, rfl⟩
      rw [solid, fileName, if_pos (endsWith_fileName (strip name))]
  | _ => cases named

section Panel

variable {machine : Machine} {state : machine.State}

theorem length_of_alike {path other : Text} (alike : machine.Alike path other) {raw : Bytes}
    (encoded : fsEncode path = some raw) : ∃ rawOther, fsEncode other = some rawOther ∧
      machine.leads raw = machine.leads rawOther := by
  rcases alike raw encoded with ⟨rawOther, encodedOther, same⟩
  have whole := same [] (.inl rfl)
  rw [List.append_nil, List.append_nil] at whole
  exact ⟨rawOther, encodedOther, whole⟩

/-- Folders that lead to the same place have the same snapshots. -/
theorem snapshotPlace_of_alike {directory resolved : Text} {raw rawResolved rawName : Bytes}
    (alike : machine.Alike directory resolved) (encoded : fsEncode directory = some raw)
    (encodedResolved : fsEncode resolved = some rawResolved) :
    machine.snapshotPlace raw rawName = machine.snapshotPlace rawResolved rawName := by
  rcases alike raw encoded with ⟨rawOther, encodedOther, same⟩
  cases encodedResolved.symm.trans encodedOther
  rw [Machine.snapshotPlace, Machine.snapshotPlace, List.append_assoc, List.append_assoc]
  exact same ([47] ++ rawName) (.inr rfl)

/-- A folder that leads to the same place may be put in front of a name. -/
theorem leads_joinPath {directory resolved n : Text} {raw rawName : Bytes}
    (alike : machine.Alike directory resolved) (encoded : fsEncode directory = some raw)
    (encodedName : fsEncode n = some rawName) :
    ∃ rawJoined, fsEncode (joinPath resolved n) = some rawJoined ∧
      machine.leads rawJoined = machine.snapshotPlace raw rawName := by
  rcases alike raw encoded with ⟨rawResolved, encodedResolved, same⟩
  have behind := same ([47] ++ rawName) (.inr rfl)
  have slash : fsEncode (text "/") = some [47] := rfl
  rw [joinPath]
  split
  · next root =>
    subst root
    cases slash.symm.trans encodedResolved
    refine ⟨[47] ++ rawName, fsEncode_append slash encodedName, ?_⟩
    rw [Machine.snapshotPlace, List.append_assoc, behind]
    exact (machine.doubled rawName).symm
  · refine ⟨rawResolved ++ [47] ++ rawName,
      fsEncode_append (fsEncode_append encodedResolved slash) encodedName, ?_⟩
    rw [Machine.snapshotPlace, List.append_assoc, List.append_assoc, behind]

theorem fsEncode_split {first second : Text} {raw : Bytes}
    (encoded : fsEncode (first ++ second) = some raw) :
    ∃ rawFirst rawSecond, fsEncode first = some rawFirst ∧ fsEncode second = some rawSecond ∧
      raw = rawFirst ++ rawSecond := by
  rw [fsEncode, Option.map_eq_some_iff, List.mapM_append] at encoded
  rcases encoded with ⟨characters, mapped, rfl⟩
  rcases Option.bind_eq_some_iff.mp mapped with ⟨ofFirst, isFirst, rest⟩
  rcases Option.bind_eq_some_iff.mp rest with ⟨ofSecond, isSecond, same⟩
  cases same
  refine ⟨ofFirst.flatten, ofSecond.flatten, ?_, ?_, List.flatten_append⟩
  · rw [fsEncode, isFirst]
    rfl
  · rw [fsEncode, isSecond]
    rfl

/-- A path is its part up to the last slash, and its name. -/
theorem path_eq (path : Text) : path.rdropWhile (· ≠ 47) ++ nameOf path = path := by
  rw [nameOf, List.rdropWhile, List.rtakeWhile, ← List.reverse_append,
    List.takeWhile_append_dropWhile, List.reverse_reverse]

/-- The parent of a path and its name lead where the path leads. -/
theorem leads_parentOf {path : Text} (absolute : path.head? = some 47) {raw : Bytes}
    (encoded : fsEncode path = some raw) :
    ∃ rawParent rawName, fsEncode (parentOf path) = some rawParent ∧
      fsEncode (nameOf path) = some rawName ∧
        machine.snapshotPlace rawParent rawName = machine.leads raw := by
  have split := path_eq path
  have stops : ∀ whole : path.rdropWhile (· ≠ 47) ≠ [],
      (path.rdropWhile (· ≠ 47)).getLast whole = 47 := fun whole => by
    simpa using List.rdropWhile_last_not (· ≠ 47) path whole
  rw [← split] at encoded
  rcases fsEncode_split encoded with ⟨rawAbove, rawName, isAbove, isName, rfl⟩
  have slash : fsEncode [47] = some [47] := rfl
  rcases above : path.rdropWhile (· ≠ 47) with _ | ⟨first, _ | ⟨second, rest⟩⟩
  · -- an absolute path has a slash
    rw [above, List.nil_append] at split
    have noSlash : 47 ∉ nameOf path := fun mem => by simpa using List.mem_rtakeWhile_imp mem
    rw [split] at noSlash
    exact absurd (List.mem_of_mem_head? absolute) noSlash
  · simp only [above] at stops isAbove
    obtain rfl : first = 47 := stops (List.cons_ne_nil _ _)
    cases slash.symm.trans isAbove
    have isParent : parentOf path = [47] := by rw [parentOf, above]
    exact ⟨[47], rawName, isParent ▸ slash, isName, machine.doubled rawName⟩
  · simp only [above] at stops isAbove
    rw [← List.dropLast_append_getLast (List.cons_ne_nil first (second :: rest)),
      stops (List.cons_ne_nil _ _)] at isAbove
    rcases fsEncode_split isAbove with ⟨rawParent, rawSlash, isParent, isSlash, rfl⟩
    cases slash.symm.trans isSlash
    have dropped : parentOf path = (first :: second :: rest).dropLast := by rw [parentOf, above]
    exact ⟨rawParent, rawName, dropped ▸ isParent, isName, rfl⟩

/-- A path that leads to the snapshot with this folder and this name, as its own name does. -/
def LeadsTo (machine : Machine) (directory n path : Text) : Prop :=
  ∀ raw rawName, fsEncode directory = some raw → fsEncode n = some rawName →
    ∃ rawPath rawShown, fsEncode path = some rawPath ∧ fsEncode (nameOf path) = some rawShown ∧
      machine.leads rawPath = machine.snapshotPlace raw rawName ∧
        machine.snapshotPlace raw rawShown = machine.snapshotPlace raw rawName

theorem succeeds_resolve {β : Type} {directory : Text} {name : Json} {rest : Text → Request β}
    {goal : β → machine.State → Prop}
    (passes : ∀ path n, Panel.validateName name = .ok n → LeadsTo machine directory n path →
      (rest path).run.Ensures machine.world (fun _ => True) (Machine.Succeeds goal) state) :
    (resolve directory name >>= rest).run.Ensures machine.world (fun _ => True)
      (Machine.Succeeds goal) state := by
  rw [resolve, bind_assoc]
  refine Machine.succeeds_attempt fun reply resolved after step isResolved => ?_
  cases reply with
  | error raised => cases isResolved
  | ok found =>
      cases isResolved
      rcases step with ⟨rfl, alike, -⟩
      rw [bind_assoc]
      refine Machine.succeeds_lift fun n named => ?_
      rw [bind_assoc]
      refine Machine.succeeds_attempt fun reply path after step isPath => ?_
      cases reply with
      | error raised => cases isPath
      | ok found =>
          cases isPath
          rcases step with ⟨rfl, alikePath, absolute⟩
          rw [bind_assoc]
          refine Machine.succeeds_require fun inside => ?_
          refine passes path n named fun raw rawName encoded encodedName => ?_
          rcases leads_joinPath alike encoded encodedName with ⟨rawJoined, encodedJoined, leads⟩
          rcases length_of_alike alikePath encodedJoined with ⟨rawPath, encodedPath, same⟩
          rcases leads_parentOf absolute encodedPath with
            ⟨rawParent, rawShown, encodedParent, encodedShown, leadsShown⟩
          rw [of_decide_eq_true inside] at encodedParent
          refine ⟨rawPath, rawShown, encodedPath, encodedShown, same.symm.trans leads, ?_⟩
          rw [snapshotPlace_of_alike alike encoded encodedParent, leadsShown, ← leads, same]

theorem succeeds_readHeader (path : Text) :
    (readHeader path).run.Ensures machine.world (fun _ => True)
      (Machine.Succeeds fun view after => after = state ∧ view.name = nameOf path ∧ ∃ content,
        Machine.At state.files path content ∧ view.size = content.length ∧
          parseHeader (content.take headerSize) = .ok view.header) state := by
  rw [readHeader]
  refine Machine.succeeds_attempt fun reply head after step isHead => ?_
  cases reply with
  | error raised => cases isHead
  | ok found =>
      cases isHead
      rcases step with ⟨rfl, content, here, rfl⟩
      refine Machine.succeeds_lift fun header parsed => ?_
      refine Machine.succeeds_attempt fun reply stat after step isStat => ?_
      cases reply with
      | error raised => cases isStat
      | ok found =>
          cases isStat
          rcases step with ⟨rfl, other, hereToo, size⟩
          have same : other = content := by
            rcases here with ⟨raw, encoded, isContent⟩
            rcases hereToo with ⟨rawToo, encodedToo, isOther⟩
            cases encoded.symm.trans encodedToo
            exact Option.some.inj (isOther.symm.trans isContent)
          refine Machine.succeeds_lift fun created _ => ?_
          exact ⟨rfl, rfl, content, here, same ▸ size, parsed⟩

end Panel

/-! ## The request -/

/-- What a report of the panel says of the machine: there was a process with the pid, its image is
in the file of the folder and the name, also by the name that the report gives it, no other file has
changed but those of the panel's own, and what the report says of the snapshot is so. -/
def Machine.Reported {machine : Machine} (before after : machine.State) (pid : ℤ) (name : Json)
    (kill : Bool) (report : DumpReport) : Prop :=
  ∃ n raw rawName rawShown target link, Panel.validateName name = .ok n ∧
    argumentBytes report.directory = some raw ∧ argumentBytes n = some rawName ∧
    Machine.Holds before after pid kill (machine.snapshotPlace raw rawName) target link ∧
    fsEncode report.snapshot.name = some rawShown ∧
    machine.snapshotPlace raw rawShown = machine.snapshotPlace raw rawName ∧
    report.snapshot.header = target.view link ∧
    report.snapshot.size = (target.image link).length

section Request

variable {machine : Machine} {config : Config} {before : machine.State}

/-- A list is no snapshot. -/
theorem head_of_parseHeader {raw : Bytes} {view : HeaderView}
    (parsed : parseHeader (raw.take headerSize) = .ok view) : raw.head? = some 75 := by
  have size : headerSize = headerCodec.width := describes_header.size
  rw [parseHeader] at parsed
  split at parsed
  · cases parsed
  · next long =>
    have fits : headerCodec.width ≤ raw.length := by
      rw [← size]
      exact (not_lt.mp long).trans (List.length_take_le' _ _)
    rw [unpack_header fits] at parsed
    dsimp only at parsed
    split at parsed
    · cases parsed
    · next isMagic =>
      have start : raw.take 8 ++ List.replicate (8 - raw.length) 0 = magic := not_not.mp isMagic
      cases raw with
      | nil => cases start
      | cons first rest =>
          rw [List.take_succ_cons, List.cons_append] at start
          rw [(List.cons.inj start).1]
          rfl

/-- What is read as a snapshot behind the saving is what was there before it. -/
theorem image_of_saves {place : machine.Place} {image content : Bytes} {view : HeaderView}
    {saved after : machine.State} (saves : Machine.Saves place image saved after)
    (here : after.files place = some content)
    (parsed : parseHeader (content.take headerSize) = .ok view) :
    after.files place = some image := by
  rcases saves.kept with kept | ⟨list, kept, isList⟩
  · exact kept
  · cases here.symm.trans kept
    rw [Machine.IsList, head_of_parseHeader parsed] at isList
    cases isList

theorem Machine.Holds.saved {middle after : machine.State} {pid : ℤ} {kill : Bool}
    {place : machine.Place} {target : Target} {link : Bytes}
    (holds : Machine.Holds before middle pid kill place target link)
    (saves : Machine.Saves place (target.image link) middle after)
    (image : after.files place = some (target.image link)) :
    Machine.Holds before after pid kill place target link where
  process := by
    rw [saves.same]
    exact holds.process
  collected := holds.collected
  image := image
  others := fun other notPlace notOwn =>
    (saves.others other notOwn).trans (holds.others other notPlace notOwn)
  forked := by
    rw [saves.same]
    exact holds.forked
  started := by
    rw [saves.same]
    exact holds.started

/-- What the panel does behind a successful run of the engine. -/
theorem succeeds_finishDump {pid : ℤ} {name : Json} {kill : Bool} {n directory : Text}
    {completed : Completed Text} {middle : machine.State}
    (named : Panel.validateName name = .ok n)
    (ran : completed.returncode = 0 → ∃ raw rawName target link,
      argumentBytes directory = some raw ∧ argumentBytes n = some rawName ∧
        Machine.Holds before middle pid kill (machine.snapshotPlace raw rawName) target link) :
    (Panel.finishDump config n directory completed).run.Ensures machine.world (fun _ => True)
      (Machine.Succeeds fun report after => report.directory = directory ∧
        Machine.Reported before after pid name kill report) middle := by
  rw [Panel.finishDump]
  refine Machine.succeeds_look (OnlyCalls.onlyIf (Machine.looking_log _ _ _)) fun _ => ?_
  rw [refuseFailure]
  by_cases success : completed.returncode = 0
  · rw [if_pos success, pure_bind]
    rcases ran success with ⟨raw, rawName, target, link, isRaw, isName, holds⟩
    refine Machine.succeeds_look (Machine.looking_log _ _ _) fun _ => ?_
    refine Machine.succeeds_bind (Machine.succeeds_remember holds.image _) ?_
    rintro remembered saved saves
    refine Machine.succeeds_look (OnlyCalls.onlyIf (Machine.looking_log _ _ _)) fun _ => ?_
    refine succeeds_resolve fun path again namedAgain leads => ?_
    obtain rfl : again = n := validateName_again named namedAgain
    refine Machine.succeeds_bind (succeeds_readHeader path) ?_
    rintro view _ ⟨rfl, isName_, content, ⟨rawPath, encodedPath, here⟩, size, parsed⟩
    rcases leads raw rawName (fsEncode_of_argumentBytes isRaw) (fsEncode_of_argumentBytes isName)
      with ⟨rawFound, rawShown, encodedFound, encodedShown, place, shown⟩
    cases encodedPath.symm.trans encodedFound
    rw [place] at here
    have image := image_of_saves saves here parsed
    have kept := holds.saved saves image
    rw [image] at here
    cases here
    rw [parseHeader_image holds.collected.sound] at parsed
    exact ⟨rfl, again, raw, rawName, rawShown, target, link, named, isRaw, isName, kept,
      isName_ ▸ encodedShown, shown, (Except.ok.inj parsed).symm, size⟩
  · rw [if_neg success, bind_assoc]
    exact Machine.succeeds_look (Machine.looking_log _ _ _) fun _ => trivial

theorem succeeds_folder (directory : Option Text) (state : machine.State) :
    (directory.elim (snapshotDir config) pure).run.Ensures machine.world (fun _ => True)
      (Machine.Succeeds fun folder after => folder = directory.getD config.snapshotDir ∧
        after = state) state := by
  cases directory with
  | none =>
      refine Machine.succeeds_look (Machine.looking_attempt trivial) fun _ => ?_
      exact ⟨rfl, rfl⟩
  | some directory => exact ⟨rfl, rfl⟩

theorem succeeds_dump (timeout : Text) (pid : ℤ) (name : Json) (kill : Bool)
    (directory : Option Text) :
    (Panel.dump config timeout pid name kill directory).run.Ensures machine.world
      (fun _ => True) (Machine.Succeeds fun report after =>
        report.directory = directory.getD config.snapshotDir ∧
          Machine.Reported before after pid name kill report) before := by
  rw [Panel.dump]
  refine Machine.succeeds_lift fun n named => ?_
  refine Machine.succeeds_bind (succeeds_folder directory before) ?_
  rintro folder looked ⟨isFolder, same⟩
  rw [same]
  refine Machine.succeeds_look Machine.looking_binary fun engine => ?_
  refine Machine.succeeds_look (Machine.looking_log _ _ _) fun _ => ?_
  refine Machine.succeeds_bind (Machine.succeeds_runEngine _ _ before) ?_
  rintro completed middle ⟨raw, code, -, -, runs⟩
  have ran : completed.returncode = 0 → _ := fun success =>
    holds_of_runs runs (code.trans success)
  refine (succeeds_finishDump named ran).mono fun outcome after held => ?_
  cases outcome with
  | ok report => exact ⟨held.1.trans isFolder, held.2⟩
  | error raised => trivial

end Request

end Ksnap
