import Ksnap.Restore.Resumed
import Ksnap.System.Gate

/-!
# There and back

A dump through the panel and a restore through the panel, with anything in between that leaves
the snapshot alone. The restore starts one engine, which opens the file that the dump has written,
and a process that this engine lets run is the one that was dumped.
-/

namespace Ksnap

open Foundation Foundation.Program Raising Panel

/-! ## A restore through the panel -/

section Restore

variable {machine : Machine} {config : Config} {state : machine.State}

theorem succeeds_normalize (path : Text) :
    (normalize path).run.Ensures machine.world (fun _ => True)
      (Machine.Succeeds fun resolved after => after = state ∧
        (path.head? = some 47 → machine.Alike path resolved)) state := by
  refine Machine.succeeds_attempt fun reply expanded after step isExpanded => ?_
  cases reply with
  | error raised => cases isExpanded
  | ok found =>
      cases isExpanded
      rcases step with ⟨rfl, absolute⟩
      intro reply after step
      refine ⟨trivial, ?_⟩
      cases reply with
      | error raised => trivial
      | ok resolved =>
          rcases step with ⟨rfl, alike, -⟩
          refine ⟨rfl, fun slash => ?_⟩
          rw [absolute slash] at alike
          exact alike

/-- A folder of the panel that was given by its path. -/
theorem succeeds_requireKnown (given : Json) :
    (requireKnown config given).run.Ensures machine.world (fun _ => True)
      (Machine.Succeeds fun folder after => after = state ∧
        ∀ path, given = .string path → path.head? = some 47 → machine.Alike path folder)
      state := by
  cases given with
  | null =>
      refine (succeeds_normalize _).mono fun outcome after held => ?_
      cases outcome with
      | error raised => trivial
      | ok folder => exact ⟨held.1, fun path impossible => by cases impossible⟩
  | string path =>
      cases path with
      | nil =>
          refine (succeeds_normalize _).mono fun outcome after held => ?_
          cases outcome with
          | error raised => trivial
          | ok folder =>
              refine ⟨held.1, fun path same slash => ?_⟩
              cases same
              cases slash
      | cons first rest =>
          refine Machine.succeeds_require fun _ => ?_
          refine Machine.succeeds_bind (succeeds_normalize _) ?_
          rintro folder _ ⟨rfl, alike⟩
          refine Machine.succeeds_look Machine.looking_known fun folders => ?_
          refine Machine.succeeds_require fun _ => ?_
          refine ⟨rfl, fun path same slash => ?_⟩
          cases same
          exact alike slash
  | _ => trivial

/-- What the panel has started, and says that it has. -/
def Machine.Started {machine : Machine} (before after : machine.State) (directory n : Text)
    (view : SessionView) : Prop :=
  ∃ process argv, (EngineRequest.restore directory n).argv = some argv ∧
    after = { before with started := before.started ++ [(process, argv)] } ∧
    view.snapshot = n ∧ view.enginePid = process.pid

theorem succeeds_describe (session : RestoreSession) :
    (describe session).run.Ensures machine.world (fun _ => True)
      (Machine.Succeeds fun view after => after = state ∧ view.snapshot = session.name ∧
        view.enginePid = session.process.pid) state := by
  refine Machine.succeeds_look (Machine.looking_attempt trivial) fun finished => ?_
  refine Machine.succeeds_look
    (OnlyCalls.raising_bind (Machine.looking_attempt trivial) fun _ => onlyCalls_raising_pure)
    fun runs => ?_
  refine Machine.succeeds_look (Machine.looking_attempt trivial) fun returncode => ?_
  exact ⟨rfl, rfl, rfl⟩

theorem looking_refuseRunning (current : Option RestoreSession) :
    Machine.Looking (refuseRunning current) := by
  cases current with
  | none => exact onlyCalls_raising_pure
  | some session =>
      refine OnlyCalls.raising_bind ?_ fun _ => onlyCalls_raising_require
      exact OnlyCalls.raising_bind (Machine.looking_attempt trivial) fun _ => onlyCalls_raising_pure

theorem succeeds_spawnEngine (engine n directory : Text) :
    (spawnEngine config engine n directory).run.Ensures machine.world (fun _ => True)
      (Machine.Succeeds fun process after => ∃ argv,
        (EngineRequest.restore directory n).argv = some argv ∧
        after = { state with started := state.started ++ [(process, argv)] }) state := by
  apply Machine.succeeds_catching
  · intro reply after step
    refine ⟨trivial, ?_⟩
    cases reply with
    | error raised => trivial
    | ok process => exact step
  · exact fun raised => ⟨_, rfl⟩

theorem succeeds_startSession (n directory : Text) :
    (startSession config n directory).run.Ensures machine.world (fun _ => True)
      (Machine.Succeeds fun view after => Machine.Started state after directory n view) state := by
  refine Machine.succeeds_look (Machine.looking_attempt trivial) fun current => ?_
  refine Machine.succeeds_look (looking_refuseRunning current) fun _ => ?_
  refine Machine.succeeds_look Machine.looking_binary fun engine => ?_
  refine Machine.succeeds_look (Machine.looking_log _ _ _) fun _ => ?_
  refine Machine.succeeds_bind (succeeds_spawnEngine engine n directory) ?_
  rintro process started ⟨argv, passes, same⟩
  refine Machine.succeeds_look (Machine.looking_attempt trivial) fun startedAt => ?_
  refine Machine.succeeds_attempt fun _ _ after step _ => ?_
  obtain rfl : after = started := step
  refine Machine.succeeds_look (Machine.looking_attempt trivial) fun _ => ?_
  refine (succeeds_describe _).mono fun outcome after held => ?_
  cases outcome with
  | error raised => trivial
  | ok view =>
      rcases held with ⟨sameToo, isName, isPid⟩
      exact ⟨process, argv, passes, sameToo.trans same, isName, isPid⟩

/-- Taking the lock and letting it go leaves the machine as it is. -/
theorem succeeds_withSessionLock {α : Type} {body : Request α} {holds : α → machine.State → Prop}
    (inside : body.run.Ensures machine.world (fun _ => True) (Machine.Succeeds holds) state) :
    (withSessionLock body).run.Ensures machine.world (fun _ => True) (Machine.Succeeds holds)
      state := by
  refine Machine.succeeds_look (Machine.looking_attempt trivial) fun _ => ?_
  rw [ensures_raising_bind, observe, ExceptT.run_mk, ensures_bind]
  refine inside.mono fun outcome after held => ?_
  refine Machine.succeeds_look (Machine.looking_attempt trivial) fun _ => ?_
  cases outcome with
  | error raised => trivial
  | ok value => exact held

theorem succeeds_restore (given : Json) (directory : Text) :
    (restore config given (some directory)).run.Ensures machine.world (fun _ => True)
      (Machine.Succeeds fun view after => ∃ n, Panel.validateName given = .ok n ∧
        Machine.Started state after directory n view) state := by
  rw [restore]
  refine Machine.succeeds_lift fun n named => ?_
  refine Machine.succeeds_bind (succeeds_folder (some directory) state) ?_
  rintro folder looked ⟨isFolder, same⟩
  obtain rfl : folder = directory := isFolder
  rw [same]
  refine succeeds_resolve fun path again namedAgain leads => ?_
  refine Machine.succeeds_look (Machine.looking_attempt trivial) fun present => ?_
  refine Machine.succeeds_require fun _ => ?_
  refine (succeeds_withSessionLock (succeeds_startSession n folder)).mono ?_
  intro outcome after held
  cases outcome with
  | error raised => trivial
  | ok view => exact ⟨n, named, held⟩

/-- A request to restore the snapshot with this folder and this name. -/
structure AsksFor (settings : Settings) (body : Text) (directory n : Text) : Prop where
  absolute : directory.head? = some 47
  payload : ∃ payload given, payloadOf settings.depth body = .ok payload ∧
    field "name" .null payload = .ok given ∧ Panel.validateName given = .ok n ∧
    field "directory" .null payload = .ok (.string directory)

/-- The request takes its own folder and name to the engine. -/
theorem succeeds_readRestore {payload given : Json} {directory : Text}
    (isGiven : field "name" .null payload = .ok given)
    (isDirectory : field "directory" .null payload = .ok (.string directory))
    (absolute : directory.head? = some 47) :
    (readRestore config payload).run.Ensures machine.world (fun _ => True)
      (Machine.Succeeds fun found after => after = state ∧ found.1 = given ∧
        machine.Alike directory found.2) state := by
  refine Machine.succeeds_lift fun name isName => ?_
  cases isGiven.symm.trans isName
  refine Machine.succeeds_require fun _ => ?_
  refine Machine.succeeds_lift fun folder isFolder => ?_
  cases isDirectory.symm.trans isFolder
  refine Machine.succeeds_bind (succeeds_requireKnown _) ?_
  rintro folder _ ⟨rfl, alike⟩
  exact ⟨rfl, rfl, alike directory rfl absolute⟩

theorem succeeds_postRestore {settings : Settings} {body directory n : Text}
    (asks : AsksFor settings body directory n) :
    (postRestore config settings body).run.Ensures machine.world (fun _ => True)
      (Machine.Succeeds fun view after => ∃ folder, machine.Alike directory folder ∧
        Machine.Started state after folder n view) state := by
  rcases asks.payload with ⟨asked, given, isAsked, isGiven, named, isDirectory⟩
  refine Machine.succeeds_lift fun payload isPayload => ?_
  cases isAsked.symm.trans isPayload
  refine Machine.succeeds_bind (succeeds_readRestore isGiven isDirectory asks.absolute) ?_
  rintro ⟨name, folder⟩ _ ⟨rfl, rfl, alike⟩
  refine (succeeds_restore name folder).mono fun outcome after held => ?_
  cases outcome with
  | error raised => trivial
  | ok view =>
      rcases held with ⟨other, namedToo, started⟩
      cases named.symm.trans namedToo
      exact ⟨folder, alike, started⟩

end Restore

/-! ## The engine that was started -/

/-- The restore that these arguments ask for, over these files, comes to a moment in which its child
runs on its own. The child is traced all along, every single step comes to its end, and the code is
always put back. -/
def Machine.LetsRun (machine : Machine) (keeps : Bytes → Bool) (files : machine.Files)
    (argv : List Bytes) (child : Child) : Prop :=
  match main argv with
  | .restores fileName outputDir => ∃ path faults file start,
      buildSnapshotPath fileName outputDir = some path ∧
      files (machine.leads path) = some (RegularFile.bytes file) ∧ Forked start ∧
      start.keepsPosition = keeps ∧
      (restorer faults file).Reaches (childWorld file.bytes Controlled) start child ∧
      child.ranOwn = true
  | _ => False

/-- What the kernel says of a stopped process is so, and its descriptors can be opened again, where
these files keep a position. -/
structure ShownAs (target : Target) (keeps : Bytes → Bool) (maps : MapsFile)
    (descriptors : DescriptorTable Int32 OpenFile) : Prop where
  shows : target.maps = some maps
  disjoint : (linesOf .dump (fgetsLines mapsLineMax maps.text)).Pairwise Disjoint
  reported : Reported target.files descriptors
  honest : target.files.Honest
  reopens : Reopens target.files keeps descriptors

/-- A child that a restore of an image lets run is the process that was dumped. -/
theorem runsAs_of_image {target : Target} {link : Bytes} {maps : MapsFile}
    {descriptors : DescriptorTable Int32 OpenFile} {faults : ReaderFaults} {child met : Child}
    (shown : ShownAs target child.keepsPosition maps descriptors)
    (collected : Collected target.maps target.files (target.parts link)) {file : RegularFile}
    (image : file.bytes = target.image link) (forked : Forked child)
    (reached : (restorer faults file).Reaches (childWorld file.bytes Controlled) child met)
    (ran : met.ranOwn = true) : RunsAs target maps descriptors met := by
  have whole : file.bytes = (target.parts link).fileBytes
      ((target.parts link).vmas.map target.payload).flatten := by
    rw [image, ← List.flatMap_def]
    rfl
  rw [shown.shows] at collected
  exact runsAs_of_collected shown.disjoint shown.reported shown.honest collected rfl rfl
    (payloadsMatch_payload _ _) whole forked shown.reopens reached ran

/-- The snapshot of a dump request is named so. -/
def NamesSnapshot (settings : Settings) (body n : Text) : Prop :=
  ∃ payload number pid given, payloadOf settings.depth body = .ok payload ∧
    field "pid" .null payload = .ok number ∧ pidOf number = .ok pid ∧
    field "name" .null payload = .ok given ∧ Panel.validateName (dumpName pid given) = .ok n

section RoundTrip

variable {machine : Machine} {settings : Settings}

/-- The engine opens the place where the folder and the name of the dump lead. -/
theorem runsAs_of_letsRun {directory folder n : Text} {raw rawName : Bytes}
    (isRaw : argumentBytes directory = some raw) (isName : argumentBytes n = some rawName)
    (alike : machine.Alike directory folder) {argv : List Bytes}
    (passes : (EngineRequest.restore folder n).argv = some argv) {target : Target} {link : Bytes}
    (collected : Collected target.maps target.files (target.parts link)) {files : machine.Files}
    (image : files (machine.snapshotPlace raw rawName) = some (target.image link))
    {keeps : Bytes → Bool} {maps : MapsFile} {descriptors : DescriptorTable Int32 OpenFile}
    (shown : ShownAs target keeps maps descriptors) {child : Child}
    (runs : machine.LetsRun keeps files argv child) : RunsAs target maps descriptors child := by
  rw [Machine.LetsRun] at runs
  rcases settles_request passes with ⟨-, rawFolder, rawToo, isFolder, isNameToo, job⟩ |
    ⟨-, failure, -, job⟩
  · rw [job] at runs
    rcases runs with ⟨path, faults, file, start, built, content, forked, rfl, reached, ran⟩
    cases isName.symm.trans isNameToo
    have isPath : rawFolder ++ [47] ++ rawName = path := eq_of_buildSnapshotPath built
    rcases alike raw (fsEncode_of_argumentBytes isRaw) with ⟨rawOther, encoded, same⟩
    cases encoded.symm.trans (fsEncode_of_argumentBytes isFolder)
    have behind := same ([47] ++ rawName) (.inr rfl)
    rw [Machine.snapshotPlace, List.append_assoc, behind, ← List.append_assoc, isPath, content]
      at image
    exact runsAs_of_image shown collected (Option.some.inj image) forked reached ran
  · rw [job] at runs
    exact runs.elim

end RoundTrip

/-! ## One machine -/

/-- A request to restore what the request of the dump has written. -/
def soloRestoreBody : Text :=
  text "\x7b\"name\": \"pid-7.ksnap\", \"directory\": \"/save\"\x7d"

def soloArguments : List Bytes :=
  [ascii "-m", ascii "Restore", ascii "-d", ascii "/save", ascii "-n", ascii "pid-7.ksnap"]

/-- The answers of the machine to a restore, when nothing was restored before. -/
def soloRestoreAnswer (state : soloMachine.State) :
    (request : PanelCall) → Option (request.Reply × soloMachine.State)
  | .popen command =>
      if command.request = .restore (text "/save") (text "pid-7.ksnap") then
        some (.ok ⟨1, 9⟩, { state with started := state.started ++ [(⟨1, 9⟩, soloArguments)] })
      else none
  | .acquireSession => some ((), state)
  | .releaseSession => some ((), state)
  | .readSession => some (none, state)
  | .writeSession _ => some ((), state)
  | .startStream _ => some (.ok (), state)
  | .readEnd _ => some (⟨none, none⟩, state)
  | .poll _ => some (none, state)
  | .now => some ([], state)
  | request => soloAnswer state request

theorem step_of_soloRestoreAnswer {before after : soloMachine.State} {request : PanelCall}
    {reply : request.Reply} (answered : soloRestoreAnswer before request = some (reply, after)) :
    Machine.Step before ⟨request, reply⟩ after := by
  cases request with
  | popen command =>
      rw [soloRestoreAnswer] at answered
      split at answered
      · next same =>
        cases answered
        exact ⟨soloArguments, by rw [same]; rfl, rfl⟩
      · cases answered
  | acquireSession => cases answered; exact rfl
  | releaseSession => cases answered; exact rfl
  | readSession => cases answered; exact rfl
  | writeSession => cases answered; exact rfl
  | startStream => cases answered; exact rfl
  | readEnd => cases answered; exact rfl
  | poll => cases answered; exact rfl
  | now => cases answered; exact rfl
  | _ => exact step_of_soloAnswer answered

theorem exists_soloRestore (state : soloMachine.State) : ∃ view,
    (postRestore exampleConfig exampleSettings soloRestoreBody).run.Exec soloMachine.world state
      (.ok view) { state with started := state.started ++ [(⟨1, 9⟩, soloArguments)] } := by
  have followed : ∃ view, (postRestore exampleConfig exampleSettings soloRestoreBody).run.follow
      soloRestoreAnswer state = some (.ok view, { state with
        started := state.started ++ [(⟨1, 9⟩, soloArguments)] }) := ⟨_, rfl⟩
  rcases followed with ⟨view, followed⟩
  exact ⟨view, exec_of_follow (fun _ _ _ _ => step_of_soloRestoreAnswer) followed⟩

/-! ## There and back -/

/-- What a dump through the panel has written, a restore through the panel brings back: a request
for the folder and the name of an answered dump starts one engine and changes nothing, and as long
as the file of the dump is as it was, a process that this engine lets run is the one that was
dumped. -/
theorem restored_as_dumped {machine : Machine} {config : Config} {settings : Settings}
    {dumpBody restoreBody n : Text} {report : DumpReport} {killed : Bool} {view : SessionView}
    {first second third fourth : machine.State}
    (dumped : (postDump config settings dumpBody).run.Exec machine.world first
      (.ok (report, killed)) second)
    (restored : (postRestore config settings restoreBody).run.Exec machine.world third (.ok view)
      fourth)
    (names : NamesSnapshot settings dumpBody n)
    (asks : AsksFor settings restoreBody report.directory n) :
    ∃ place pid target link process argv, machine.shows pid target link ∧
      second.files place = some (target.image link) ∧
      fourth = { third with started := third.started ++ [(process, argv)] } ∧
      view.snapshot = n ∧ view.enginePid = process.pid ∧
      ∀ files : machine.Files, files place = second.files place →
        ∀ keeps maps descriptors child, ShownAs target keeps maps descriptors →
          machine.LetsRun keeps files argv child → RunsAs target maps descriptors child := by
  rcases (succeeds_postDump config settings dumpBody first).exec dumped with
    ⟨payload, order, given, answers⟩
  rcases answers.reported with ⟨other, raw, rawName, rawShown, target, link, named, isRaw, isName,
    holds, -⟩
  rcases names with ⟨asked, number, pid, wanted, isAsked, isNumber, isPid, isWanted, namedToo⟩
  cases isAsked.symm.trans answers.isPayload
  rcases answers.orders.pid with ⟨numberToo, isNumberToo, isPidToo⟩
  cases isNumber.symm.trans isNumberToo
  cases isPid.symm.trans isPidToo
  cases isWanted.symm.trans answers.isGiven
  cases named.symm.trans namedToo
  rcases (succeeds_postRestore asks).exec restored with
    ⟨folder, alike, process, argv, passes, same, isView, isEnginePid⟩
  rcases holds.process with ⟨pid, -, shows, -⟩
  refine ⟨machine.snapshotPlace raw rawName, pid, target, link, process, argv, shows,
    holds.image, same, isView, isEnginePid, ?_⟩
  intro files kept keeps maps descriptors child shown runs
  exact runsAs_of_letsRun isRaw isName alike passes holds.collected
    (kept.trans holds.image) shown runs

set_option maxRecDepth 30000 in
/-- The process runs on, with its kernel mappings and the descriptors that share a file. -/
theorem restored_as_dumped_solo : ∃ report view child, ∃ second fourth : soloMachine.State,
    (postDump exampleConfig exampleSettings soloBody).run.Exec soloMachine.world soloStart
      (.ok (report, false)) second ∧
    (postRestore exampleConfig exampleSettings soloRestoreBody).run.Exec soloMachine.world second
      (.ok view) fourth ∧
    child.ranOwn = true ∧
    RunsAs sampleTarget sampleMaps sharedTable child := by
  rcases exists_soloDump with ⟨report, second, folder, dumped⟩
  rcases exists_soloRestore second with ⟨view, restored⟩
  have names : NamesSnapshot exampleSettings soloBody (text "pid-7.ksnap") :=
    ⟨_, _, _, _, rfl, rfl, rfl, rfl, rfl⟩
  have asks : AsksFor exampleSettings soloRestoreBody report.directory (text "pid-7.ksnap") := by
    rw [folder]
    exact ⟨rfl, _, _, rfl, rfl, rfl, rfl⟩
  rcases restored_as_dumped dumped restored names asks with
    ⟨place, pid, target, link, process, argv, ⟨rfl, rfl, rfl⟩, written, same, -, -, runs⟩
  obtain rfl : soloArguments = argv := by
    have started := congrArg Machine.State.started same
    cases List.append_cancel_left started
    rfl
  rw [image_sample] at written
  rcases sample_restored with ⟨child, reached, ran⟩
  have means : main soloArguments =
      .restores (some (ascii "pid-7.ksnap")) (some (ascii "/save")) := rfl
  have built : buildSnapshotPath (some (ascii "pid-7.ksnap")) (some (ascii "/save")) =
      some (ascii "/save/pid-7.ksnap") := by decide
  have letsRun : soloMachine.LetsRun (fun _ => true) (fun _ => some soloImage) soloArguments
      child := by
    rw [Machine.LetsRun, means]
    exact ⟨_, .none, sampleSnapshot, sampleEngine, built, rfl, ⟨rfl, rfl⟩, rfl, reached, ran⟩
  have shown : ShownAs sampleTarget (fun _ => true) sampleMaps sharedTable :=
    ⟨rfl, sampleMaps_disjoint, sharedDescriptors_reported, sharedDescriptors_honest,
      sharedDescriptors_reopens⟩
  exact ⟨report, view, child, second, _, dumped, restored, ran,
    runs (fun _ => some soloImage) written.symm _ _ _ _ shown letsRun⟩

end Ksnap
