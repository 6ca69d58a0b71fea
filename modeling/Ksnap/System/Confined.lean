import Ksnap.System.Site

/-!
# Requests at once

Whatever the interleaving of requests and engines, a file changes only where a dump or a deletion
that was requested has its snapshot, or where the panel keeps its registry. An engine kills only a
process that a request has named for it or a child that it has forked, and the panel signals only
what it has started.
-/

namespace Ksnap

open Foundation Foundation.Program Raising Panel

section Discipline

variable {machine : Machine} {ι : Type} {home : Text → Text} {config : Config}
  {settings : Settings} {requests : ι → PanelRequest} {start : machine.Files} {i : ι}
  {now after : Site machine}

/-! ## Folders and paths -/

theorem serves_normalize (path : Text) :
    Serves home config settings requests start i (fun _ => True) (normalize path)
      (fun folder _ => machine.Resolves (home path) folder) := by
  have expands : Serves home config settings requests start i (fun _ => True)
      ((PanelCall.expandUser path).attempt id : Request Text)
      (fun expanded _ => expanded = home path) := by
    refine serves_attempt ?_ ?_
    · trivial
    · intro now after reply expanded taken isExpanded
      cases isExpanded
      exact taken.1
  refine expands.bind fun expanded => serves_fact fun isHome => ?_
  refine serves_attempt ?_ ?_
  · trivial
  · intro now after reply folder taken isFolder
    cases isFolder
    exact isHome ▸ taken.1

theorem serves_requireKnown (directory : Option Text) :
    Serves home config settings requests start i (fun _ => True)
      (requireKnown config (folderArgument directory))
      (fun folder _ => machine.Resolves (deletesFrom home config directory) folder) := by
  cases directory with
  | none => exact serves_normalize _
  | some path =>
      cases path with
      | nil => exact serves_normalize _
      | cons first rest =>
          refine serves_require fun _ => ?_
          refine (serves_normalize _).bind fun folder => serves_fact fun resolves => ?_
          refine serves_look Machine.looking_known (stable_fact True) fun folders => ?_
          refine serves_require fun _ => ?_
          exact serves_pure resolves

theorem Machine.Alike.trans {path middle other : Text} (first : machine.Alike path middle)
    (second : machine.Alike middle other) : machine.Alike path other := by
  intro raw encoded
  rcases first raw encoded with ⟨rawMiddle, encodedMiddle, same⟩
  rcases second rawMiddle encodedMiddle with ⟨rawOther, encodedOther, sameToo⟩
  exact ⟨rawOther, encodedOther, fun behind ends => (same behind ends).trans (sameToo behind ends)⟩

/-- The name of a snapshot can be a part of a path. -/
theorem encodes_fileName {given : Json} {n : Text} (named : Panel.validateName given = .ok n) :
    ∃ raw, fsEncode n = some raw := by
  cases given with
  | string name =>
      rcases validateName_eq_ok_iff.mp named with ⟨isGiven, rfl⟩
      exact ⟨_, fsEncode_of_argumentBytes (argumentBytes_name (nameChar_fileName isGiven.chars))⟩
  | _ => cases named

theorem serves_resolve (directory : Text) (name : Json) :
    Serves home config settings requests start i (fun _ => True) (resolve directory name)
      (fun path _ => ∃ n, Panel.validateName name = .ok n ∧
        ∃ rawPath, fsEncode path = some rawPath ∧
          machine.IsPlace directory n (machine.leads rawPath)) := by
  have resolves : ∀ path, Serves home config settings requests start i (fun _ => True)
      ((PanelCall.resolve path).attempt id : Request Text)
      (fun resolved _ => machine.Resolves path resolved) := by
    intro path
    refine serves_attempt ?_ ?_
    · trivial
    · intro now after reply resolved taken isResolved
      cases isResolved
      exact taken.1
  refine (resolves directory).bind fun folder => serves_fact fun isFolder => ?_
  refine serves_lift fun n named => ?_
  refine (resolves _).bind fun path => serves_fact fun isPath => ?_
  refine serves_require fun _ => ?_
  refine serves_pure ⟨n, named, ?_⟩
  rcases isFolder.encodes with ⟨raw, encoded⟩
  rcases encodes_fileName named with ⟨rawName, encodedName⟩
  rcases leads_joinPath isFolder.alike encoded encodedName with ⟨rawJoined, encodedJoined, leads⟩
  rcases length_of_alike isPath.alike encodedJoined with ⟨rawPath, encodedPath, same⟩
  exact ⟨rawPath, encodedPath, raw, rawName, encoded, encodedName, same.symm.trans leads⟩

theorem isPlace_of_resolves {path folder n : Text} {place : machine.Place}
    (resolves : machine.Resolves path folder) (isPlace : machine.IsPlace folder n place) :
    machine.IsPlace path n place := by
  rcases isPlace with ⟨rawFolder, rawName, encodedFolder, encodedName, rfl⟩
  rcases resolves.encodes with ⟨raw, encoded⟩
  rcases resolves.alike raw encoded with ⟨rawOther, encodedOther, same⟩
  cases encodedFolder.symm.trans encodedOther
  have behind := same ([47] ++ rawName) (.inr rfl)
  rw [← List.append_assoc, ← List.append_assoc] at behind
  exact ⟨raw, rawName, encoded, encodedName, behind.symm⟩

/-- A file may change that a request is about. -/
theorem Site.Confined.touched {files : machine.Files} {place : machine.Place}
    {content : Option Bytes} (confined : now.Confined home config settings requests start)
    (touches : Touches home config settings (requests i) place)
    (writes : Machine.Writes now.files files place content) :
    ({ now with files := files } : Site machine).Confined home config settings requests start :=
  { confined with
    files := fun other changed => by
      by_cases isOwn : other = place
      · exact .inr ⟨i, isOwn ▸ touches⟩
      · exact confined.files other (writes.others other isOwn ▸ changed) }

/-! ## A deletion -/

theorem serves_deleteSnapshot {name : Text} {directory : Option Text}
    (own : requests i = .deleteSnapshot name directory) :
    Serves home config settings requests start i (fun _ => True)
      (Panel.deleteSnapshot config name directory) (fun _ _ => True) := by
  refine (serves_requireKnown directory).bind fun folder => serves_fact fun isFolder => ?_
  refine serves_after (fun _ _ => True) ?_ fun _ =>
    serves_looking (OnlyCalls.raising_bind (Machine.looking_log _ _ _)
      fun _ => onlyCalls_raising_pure) (stable_fact True)
  refine (serves_resolve folder (.string name)).bind fun path => serves_fact fun found => ?_
  rcases found with ⟨n, named, rawPath, encodedPath, isPlace⟩
  have touches : Touches home config settings (requests i) (machine.leads rawPath) := by
    rw [own]
    exact ⟨n, named, isPlace_of_resolves isFolder isPlace⟩
  apply carries_attempt _ _ (stable_fact True) (fun _ => stable_fact True) (stable_fact True)
  intro now reply after _ confined taken _
  cases reply with
  | error raised =>
      obtain rfl : after = now := taken
      exact ⟨guaranteed_confined confined (List.Subset.refl _), trivial⟩
  | ok done =>
      rcases taken with ⟨raw, files, encoded, writes, rfl⟩
      cases encodedPath.symm.trans encoded
      exact ⟨guaranteed_confined (confined.touched touches writes) (List.Subset.refl _), trivial⟩

/-! ## A dump -/

theorem serves_dumpFolder {folder : Json} (path : Text) (isPath : givenFolder folder = some path) :
    Serves home config settings requests start i (fun _ => True) (dumpFolder (some folder))
      (fun found _ => ∃ directory, found = some directory ∧
        machine.Resolves (home path) directory) := by
  cases folder with
  | string given =>
      have isStrip : path = strip given := by
        rw [givenFolder] at isPath
        split at isPath
        · cases isPath
        · exact (Option.some.inj isPath).symm
      subst isStrip
      refine serves_after (fun directory _ => machine.Resolves (home (strip given)) directory) ?_
        fun directory => serves_fact fun resolves => serves_pure ⟨directory, rfl, resolves⟩
      refine serves_require fun _ => ?_
      refine serves_require fun _ => ?_
      refine serves_look (Machine.looking_attempt trivial) (stable_fact True) fun expanded => ?_
      refine serves_require fun _ => ?_
      refine (serves_normalize _).bind fun directory => serves_fact fun resolves => ?_
      refine serves_require fun _ => ?_
      refine serves_look (OnlyCalls.catching (Machine.looking_attempt trivial)
        fun _ => onlyCalls_raising_throw) (stable_fact True) fun _ => ?_
      refine serves_look (Machine.looking_attempt trivial) (stable_fact True) fun present => ?_
      refine serves_require fun _ => ?_
      exact serves_pure resolves
  | _ => cases isPath

/-- The folder that the panel takes for the one that the body gives. -/
def FolderOf (machine : Machine) (home : Text → Text) : Option Text → Option Text → Prop
  | some path, some folder => machine.Resolves (home path) folder
  | none, none => True
  | _, _ => False

theorem serves_givenFolder (folder : Json) :
    Serves home config settings requests start i (fun _ => True)
      (dumpFolder (if truthy folder then some folder else none))
      (fun found _ => FolderOf machine home (givenFolder folder) found) := by
  by_cases given : truthy folder = true
  · rw [if_pos given]
    cases isPath : givenFolder folder with
    | some path =>
        refine (serves_dumpFolder path isPath).weaken (fun _ holds => holds) ?_ fun _ _ => trivial
        rintro _ _ ⟨directory, rfl, resolves⟩
        exact resolves
    | none =>
        cases folder with
        | string value =>
            have some_ : value ≠ [] := of_decide_eq_true given
            rw [givenFolder, if_neg some_] at isPath
            cases isPath
        | _ => exact serves_throw
  · rw [if_neg given]
    refine serves_pure ?_
    cases folder with
    | string value =>
        have none_ : value = [] := by
          by_contra some_
          exact given (decide_eq_true some_)
        rw [givenFolder, if_pos none_]
        trivial
    | _ => trivial

theorem serves_validatePid (ownPid : ℤ) (value : Json) :
    Serves home config settings requests start i (fun _ => True) (Panel.validatePid ownPid value)
      (fun pid _ => pidOf value = .ok pid ∧ 1 < pid ∧ pid ≠ ownPid) := by
  refine serves_lift fun pid isPid => ?_
  refine serves_require fun large => ?_
  refine serves_require fun notOwn => ?_
  refine serves_look (Machine.looking_attempt trivial) (stable_fact True) fun present => ?_
  refine serves_require fun _ => ?_
  exact serves_pure ⟨isPid, of_decide_eq_true large, of_decide_eq_true notOwn⟩

theorem looking_requireDumpable (depth : ℕ) (timeout : Text) (maxSnapshotMb pid : ℤ) :
    Machine.Looking (requireDumpable config depth timeout maxSnapshotMb pid) := by
  refine OnlyCalls.raising_bind (looking_check _ _ _) fun reports => ?_
  refine OnlyCalls.raising_bind onlyCalls_liftExcept fun verdict => ?_
  split
  · exact OnlyCalls.raising_bind onlyCalls_liftExcept fun reasons => onlyCalls_raising_throw
  · exact onlyCalls_raising_pure

/-- The engine is started for what the request asks for. -/
theorem serves_runEngine {command : EngineCommand}
    (own : HasRun machine home config settings (requests i) command.request) (timedOut : Text) :
    Serves home config settings requests start i (fun _ => True) (runEngine command timedOut)
      (fun _ _ => True) := by
  apply Carries.catching (fun _ => True)
  · refine serves_after (fun _ _ => True) ?_ fun completed => ?_
    · apply carries_attempt _ _ (stable_fact True) (fun _ => stable_fact True) (stable_fact True)
      rintro now reply _ _ confined rfl _
      refine ⟨guaranteed_confined (confined.concat own) (List.Subset.refl _), ?_⟩
      cases reply <;> trivial
    · refine serves_lift fun stdout _ => ?_
      refine serves_lift fun stderr _ => ?_
      exact serves_pure trivial
  · intro raised _
    split
    · exact serves_throw
    · exact serves_throw
  · exact fun _ _ => trivial

theorem looking_resolve (directory : Text) (name : Json) :
    Machine.Looking (resolve directory name) :=
  onlyCalls_resolve fun _ => trivial

theorem looking_refuseFailure (completed : Completed Text) (message : Text) :
    Machine.Looking (refuseFailure config completed message) := by
  rw [refuseFailure]
  split
  · exact onlyCalls_raising_pure
  · exact OnlyCalls.raising_bind (Machine.looking_log _ _ _) fun _ => onlyCalls_raising_throw

/-- Behind the engine's run the panel saves the folder and reads the snapshot back. -/
theorem serves_finishDump (name directory : Text) (completed : Completed Text) :
    Serves home config settings requests start i (fun _ => True)
      (Panel.finishDump config name directory completed) (fun _ _ => True) := by
  refine serves_look (OnlyCalls.onlyIf (Machine.looking_log _ _ _)) (stable_fact True) fun _ => ?_
  refine serves_look (looking_refuseFailure completed _) (stable_fact True) fun _ => ?_
  refine serves_look (Machine.looking_log _ _ _) (stable_fact True) fun _ => ?_
  refine serves_after (fun _ _ => True) (serves_modest (Machine.modest_remember directory)
    (stable_fact True)) fun remembered => ?_
  refine serves_look (OnlyCalls.onlyIf (Machine.looking_log _ _ _)) (stable_fact True) fun _ => ?_
  refine serves_look (looking_resolve _ _) (stable_fact True) fun path => ?_
  exact serves_looking (OnlyCalls.raising_bind (onlyCalls_readHeader trivial trivial)
    fun _ => onlyCalls_raising_pure) (stable_fact True)

theorem serves_dump {timeout : Text} {pid : ℤ} {name : Json} {kill : Bool}
    {directory : Option Text} (own : ∀ n folder, Panel.validateName name = .ok n →
      folder = directory.getD config.snapshotDir →
        HasRun machine home config settings (requests i) (.dump pid folder n kill)) :
    Serves home config settings requests start i (fun _ => True)
      (Panel.dump config timeout pid name kill directory) (fun _ _ => True) := by
  refine serves_lift fun n named => ?_
  have folders : Serves home config settings requests start i (fun _ => True)
      (directory.elim (snapshotDir config) pure)
      (fun folder _ => folder = directory.getD config.snapshotDir) := by
    cases directory with
    | none =>
        refine serves_look (Machine.looking_attempt trivial) (stable_fact True) fun _ => ?_
        exact serves_pure rfl
    | some directory => exact serves_pure rfl
  refine folders.bind fun folder => serves_fact fun isFolder => ?_
  refine serves_look Machine.looking_binary (stable_fact True) fun engine => ?_
  refine serves_look (Machine.looking_log _ _ _) (stable_fact True) fun _ => ?_
  refine (serves_runEngine (own n folder named isFolder) _).bind fun completed => ?_
  exact serves_finishDump _ _ _

theorem serves_postDump {body : Text} (own : requests i = .dump body) :
    Serves home config settings requests start i (fun _ => True) (postDump config settings body)
      (fun _ _ => True) := by
  refine serves_lift fun payload isPayload => ?_
  rw [readOrder, bind_assoc]
  refine serves_lift fun number isNumber => ?_
  rw [bind_assoc]
  refine (serves_validatePid _ _).bind fun pid => serves_fact fun valid => ?_
  rcases valid with ⟨isPid, large, notOwn⟩
  rw [bind_assoc]
  refine serves_lift fun kill isKill => ?_
  rw [bind_assoc]
  refine serves_lift fun folder isFolder => ?_
  rw [bind_assoc]
  refine (serves_givenFolder folder).bind fun directory => serves_fact fun isDirectory => ?_
  rw [pure_bind, serveOrder]
  refine serves_look (looking_requireDumpable _ _ _ _) (stable_fact True) fun verdict => ?_
  refine serves_lift fun given isGiven => ?_
  refine serves_look (onlyCalls_raising_forM fun caveat => Machine.looking_log _ _ _)
    (stable_fact True) fun _ => ?_
  refine serves_after (fun _ _ => True) (serves_dump ?_) fun report =>
    serves_pure trivial
  intro n into named isInto
  rw [own]
  refine ⟨givenFolder folder, ⟨large, notOwn, payload, number, given, folder, isPayload, isNumber,
    isPid, isKill, isGiven, named, isFolder, rfl⟩, ?_⟩
  cases asked : givenFolder folder with
  | none =>
      rw [asked] at isDirectory
      cases directory with
      | none => exact isInto
      | some path => exact isDirectory.elim
  | some path =>
      rw [asked] at isDirectory
      cases directory with
      | none => exact isDirectory.elim
      | some found => exact isInto ▸ isDirectory

/-! ## Sessions -/

theorem looking_running (session : RestoreSession) : Machine.Looking (running session) :=
  OnlyCalls.raising_bind (Machine.looking_attempt trivial) fun _ => onlyCalls_raising_pure

theorem looking_describe (session : RestoreSession) : Machine.Looking (describe session) := by
  refine OnlyCalls.raising_bind (Machine.looking_attempt trivial) fun finished => ?_
  refine OnlyCalls.raising_bind (looking_running session) fun running => ?_
  exact OnlyCalls.raising_bind (Machine.looking_attempt trivial) fun _ => onlyCalls_raising_pure

theorem looking_session : Machine.Looking session := by
  refine OnlyCalls.bracket (Machine.looking_attempt trivial) ?_ (Machine.looking_attempt trivial)
  refine OnlyCalls.raising_bind (Machine.looking_attempt trivial) fun current => ?_
  cases current with
  | none => exact onlyCalls_raising_pure
  | some session =>
      exact OnlyCalls.raising_bind (looking_describe session) fun _ => onlyCalls_raising_pure

theorem looking_getStatus (root : Bool) : Machine.Looking (getStatus config root) := by
  refine OnlyCalls.raising_bind ?_ fun present => ?_
  · refine OnlyCalls.raising_bind (Machine.looking_attempt trivial) fun present => ?_
    split
    · exact Machine.looking_attempt trivial
    · exact onlyCalls_raising_pure
  · exact OnlyCalls.raising_bind looking_session fun _ => onlyCalls_raising_pure

/-- Taking the lock and letting it go changes nothing of what is known. -/
theorem serves_withSessionLock {α : Type} {body : Request α} {holds : α → Site machine → Prop}
    (stable : ∀ value,
      Stable (siteDiscipline home config settings requests start) i (holds value))
    (inside : Serves home config settings requests start i (fun _ => True) body holds) :
    Serves home config settings requests start i (fun _ => True) (withSessionLock body) holds := by
  have leaves : ∀ known, Stable (siteDiscipline home config settings requests start) i known →
      Serves home config settings requests start i known (PanelCall.releaseSession.ask id)
        (fun _ => known) :=
    fun known stable => serves_looking (Machine.looking_attempt trivial) stable
  refine Carries.bracket (serves_looking (Machine.looking_attempt trivial) (stable_fact True))
    inside (fun value => leaves _ (stable value)) (leaves _ (stable_fact True)) stable
    (stable_fact True)

theorem serves_spawnEngine (engine : Text) {n directory : Text}
    (own : HasRun machine home config settings (requests i) (.restore directory n)) :
    Serves home config settings requests start i (fun _ => True)
      (spawnEngine config engine n directory) (fun process site => process ∈ site.started) := by
  apply Carries.catching (fun _ => True)
  · apply carries_attempt _ _ (stable_fact True) (fun process => stable_started process)
      (stable_fact True)
    intro now reply after _ confined taken _
    cases reply with
    | error raised =>
        obtain rfl : after = now := taken
        exact ⟨guaranteed_confined confined (List.Subset.refl _), trivial⟩
    | ok process =>
        cases taken
        have more : now.started ⊆ now.started ++ [process] := List.subset_append_left _ _
        have ownCommand : HasRun machine home config settings (requests i)
            (command config engine (.restore directory n)).request := own
        refine ⟨guaranteed_confined ?_ more, List.mem_concat_self⟩
        exact { confined.concat ownCommand with
          session := fun session isSession => more (confined.session session isSession)
          signalled := fun other mem => more (confined.signalled other mem) }
  · intro raised _
    exact serves_throw
  · exact fun _ _ => trivial

theorem serves_startSession {n directory : Text}
    (own : HasRun machine home config settings (requests i) (.restore directory n)) :
    Serves home config settings requests start i (fun _ => True)
      (startSession config n directory) (fun _ _ => True) := by
  refine serves_look (Machine.looking_attempt trivial) (stable_fact True) fun current => ?_
  refine serves_look (looking_refuseRunning current) (stable_fact True) fun _ => ?_
  refine serves_look Machine.looking_binary (stable_fact True) fun engine => ?_
  refine serves_look (Machine.looking_log _ _ _) (stable_fact True) fun _ => ?_
  refine (serves_spawnEngine engine own).bind fun process => ?_
  refine serves_look (Machine.looking_attempt trivial) (stable_started process) fun startedAt => ?_
  refine serves_after (fun _ _ => True) ?_ fun _ => ?_
  · apply carries_attempt _ _ (stable_started process) (fun _ => stable_fact True)
      (stable_fact True)
    rintro now reply _ isStarted confined rfl _
    refine ⟨guaranteed_confined { confined with session := ?_ } (List.Subset.refl _), trivial⟩
    rintro _ ⟨⟩
    exact isStarted
  · refine serves_look (Machine.looking_attempt trivial) (stable_fact True) fun _ => ?_
    exact serves_looking (looking_describe _) (stable_fact True)

theorem looking_requireKnown (given : Json) : Machine.Looking (requireKnown config given) := by
  cases given with
  | null => exact Machine.looking_normalize _
  | string path =>
      cases path with
      | nil => exact Machine.looking_normalize _
      | cons first rest =>
          refine OnlyCalls.raising_bind onlyCalls_raising_require fun _ => ?_
          refine OnlyCalls.raising_bind (Machine.looking_normalize _) fun folder => ?_
          refine OnlyCalls.raising_bind Machine.looking_known fun folders => ?_
          exact OnlyCalls.raising_bind onlyCalls_raising_require fun _ => onlyCalls_raising_pure
  | _ => exact onlyCalls_raising_throw

theorem serves_postRestore {body : Text} (own : requests i = .restore body) :
    Serves home config settings requests start i (fun _ => True)
      (postRestore config settings body) (fun _ _ => True) := by
  refine serves_lift fun payload isPayload => ?_
  rw [readRestore, bind_assoc]
  refine serves_lift fun given isGiven => ?_
  rw [bind_assoc]
  refine serves_require fun _ => ?_
  rw [bind_assoc]
  refine serves_lift fun directory _ => ?_
  rw [bind_assoc]
  refine serves_look (looking_requireKnown _) (stable_fact True) fun folder => ?_
  rw [pure_bind]
  refine serves_lift fun n named => ?_
  refine serves_look (Machine.looking_folder _) (stable_fact True) fun found => ?_
  refine serves_look (looking_resolve _ _) (stable_fact True) fun path => ?_
  refine serves_look (Machine.looking_attempt trivial) (stable_fact True) fun present => ?_
  refine serves_require fun _ => ?_
  refine serves_withSessionLock (fun _ => stable_fact True) (serves_startSession ?_)
  rw [own]
  exact ⟨payload, given, isPayload, isGiven, named⟩

/-! ## A stop -/

/-- The session that is read is one whose engine was started. -/
theorem serves_readSession :
    Serves home config settings requests start i (fun _ => True)
      (PanelCall.readSession.ask id : Request (Option RestoreSession))
      (fun current site => ∀ session, current = some session → session.process ∈ site.started) := by
  apply carries_attempt _ _ (stable_fact True) _ (stable_fact True)
  · rintro now current after _ confined ⟨rfl, rfl⟩ _
    exact ⟨guaranteed_confined confined (List.Subset.refl _), confined.session⟩
  · exact fun current before now known relied session isSession => relied (known session isSession)

/-- However the signal ends, it goes to an engine that was started. -/
theorem carries_signalGroup (process : EngineProcess) (signal : StopSignal) :
    Carries (siteDiscipline home config settings requests start) anyAnswer i
      (fun site => process ∈ site.started)
      ((PanelCall.signalGroup process signal).attempt id : Request Unit)
      (fun _ site => process ∈ site.started) fun site => process ∈ site.started := by
  apply carries_attempt _ _ (stable_started process) (fun _ => stable_started process)
    (stable_started process)
  rintro now reply _ isStarted confined rfl _
  refine ⟨guaranteed_confined ?_ (List.Subset.refl _), by cases reply <;> exact isStarted⟩
  exact { confined with
    signalled := List.forall_mem_append.mpr
      ⟨confined.signalled, List.forall_mem_singleton.mpr isStarted⟩ }

theorem carries_waitFor (process : EngineProcess) :
    Carries (siteDiscipline home config settings requests start) anyAnswer i
      (fun site => process ∈ site.started)
      ((PanelCall.waitFor process).attempt id : Request ℤ)
      (fun _ site => process ∈ site.started) fun site => process ∈ site.started := by
  apply carries_attempt _ _ (stable_started process) (fun _ => stable_started process)
    (stable_started process)
  intro now reply after isStarted confined taken _
  obtain rfl : after = now := taken
  refine ⟨guaranteed_confined confined (List.Subset.refl _), ?_⟩
  cases reply <;> exact isStarted

theorem serves_stopProcess (process : EngineProcess) :
    Serves home config settings requests start i (fun site => process ∈ site.started)
      (stopProcess process) (fun _ site => process ∈ site.started) := by
  apply Carries.catching (fun site : Site machine => process ∈ site.started)
  · refine (carries_signalGroup process .terminate).bind fun _ => ?_
    exact (carries_waitFor process).bind fun code =>
      carries_pure (stable_started process) fun _ known => known
  · intro raised _
    split
    · exact (carries_signalGroup process .kill).weaken (fun _ known => known)
        (fun _ _ known => known) fun _ _ => trivial
    · exact serves_throw
  · exact fun _ _ => trivial

theorem serves_stop :
    Serves home config settings requests start i (fun _ => True) stop (fun _ _ => True) := by
  have stable : ∀ current : Option RestoreSession,
      Stable (siteDiscipline home config settings requests start) i
        fun site => ∀ session, current = some session → session.process ∈ site.started :=
    fun current before now known relied session isSession => relied (known session isSession)
  refine (serves_withSessionLock stable serves_readSession).bind fun current => ?_
  cases current with
  | none => exact serves_throw
  | some session =>
      have isStable : Stable (siteDiscipline home config settings requests start) i
          fun site => session.process ∈ site.started := stable_started session.process
      have serves : ∀ {body : Request SessionView},
          Serves home config settings requests start i (fun site => session.process ∈ site.started)
            body (fun _ _ => True) →
          Serves home config settings requests start i (fun site => ∀ other,
            some session = some other → other.process ∈ site.started) body (fun _ _ => True) :=
        fun serves state known => serves state (known session rfl)
      apply serves
      refine serves_look (looking_running session) isStable fun running => ?_
      refine serves_look onlyCalls_raising_require isStable fun _ => ?_
      refine serves_look (Machine.looking_log _ _ _) isStable fun _ => ?_
      refine (serves_stopProcess session.process).bind fun _ => ?_
      exact (serves_looking (looking_describe session) isStable).weaken (fun _ known => known)
        (fun _ _ _ => trivial) fun _ _ => trivial

/-! ## All requests -/

theorem looking_listSnapshots (directory : Text) : Machine.Looking (listSnapshots directory) := by
  refine OnlyCalls.raising_bind (Machine.looking_attempt trivial) fun present => ?_
  split
  · refine OnlyCalls.raising_bind (Machine.looking_attempt trivial) fun paths => ?_
    refine OnlyCalls.raising_bind (onlyCalls_raising_mapM fun path => ?_)
      fun _ => onlyCalls_raising_pure
    apply OnlyCalls.catching
    · exact OnlyCalls.raising_bind (onlyCalls_readHeader trivial trivial)
        fun _ => onlyCalls_raising_pure
    · intro raised
      refine OnlyCalls.raising_bind (Machine.looking_attempt trivial) fun present => ?_
      split
      · refine OnlyCalls.raising_bind (Machine.looking_attempt trivial) fun stat => ?_
        exact OnlyCalls.raising_bind onlyCalls_liftExcept fun _ => onlyCalls_raising_pure
      · exact onlyCalls_raising_pure
  · exact onlyCalls_raising_pure

theorem looking_getSnapshots : Machine.Looking (getSnapshots config) := by
  refine OnlyCalls.raising_bind Machine.looking_known fun folders => ?_
  refine OnlyCalls.raising_bind (onlyCalls_raising_mapM looking_listSnapshots) fun rows => ?_
  cases folders with
  | nil => exact onlyCalls_raising_throw
  | cons default others => exact onlyCalls_raising_pure

/-- A thread is done with a request as it is with its outcome. -/
theorem keeps_ignored {α : Type} {body : Request α} {state : Site machine}
    (serves : Serves home config settings requests start i (fun _ => True) body
      (fun _ _ => True)) :
    Keeps (siteDiscipline home config settings requests start) anyAnswer i
      (do let _ ← body.run) (fun _ _ => True) state := by
  rw [keeps_bind]
  exact (serves state trivial).mono fun _ _ _ _ _ => trivial

theorem keeps_serve_site (lower : Text → Text) (state : Site machine) :
    Keeps (siteDiscipline home config settings requests start) anyAnswer i
      ((requests i).serve config settings lower) (fun _ _ => True) state := by
  cases own : requests i with
  | status root => exact keeps_ignored (serves_looking (looking_getStatus root) (stable_fact True))
  | processes all query =>
      exact keeps_ignored (serves_looking (looking_getProcesses _ _ _ _) (stable_fact True))
  | snapshots => exact keeps_ignored (serves_looking looking_getSnapshots (stable_fact True))
  | deleteSnapshot name directory => exact keeps_ignored (serves_deleteSnapshot own)
  | dump body => exact keeps_ignored (serves_postDump own)
  | restore body => exact keeps_ignored (serves_postRestore own)
  | stopRestore => exact keeps_ignored serves_stop

/-! ## Engines -/

theorem means_of_job {request : EngineRequest} {argv : List Bytes} {job : Job}
    (passes : request.argv = some argv) (isJob : main argv = job) (acts : ¬Refuses job) :
    Means request job := by
  subst isJob
  rcases settles_request passes with ⟨-, means⟩ | ⟨-, refuses⟩
  · exact means
  · exact absurd refuses acts

/-- An engine with a dump to make was asked for this very dump. -/
theorem dump_of_job {request : EngineRequest} {argv : List Bytes} {number : Int32}
    {dumpConfig : DumpConfig} (passes : request.argv = some argv)
    (job : main argv = .dumps number dumpConfig) :
    ∃ folder n kill raw rawName, request = .dump number.toInt folder n kill ∧
      argumentBytes folder = some raw ∧ argumentBytes n = some rawName ∧
      dumpConfig = ⟨some rawName, some raw, kill⟩ := by
  have means := means_of_job passes job (by rintro ⟨failure, -, impossible⟩; cases impossible)
  cases request with
  | check pid =>
      cases pid with
      | none => cases means
      | some pid =>
          rcases means with ⟨other, -, impossible⟩
          cases impossible
  | restore folder n =>
      rcases means with ⟨raw, rawName, -, -, impossible⟩
      cases impossible
  | dump pid folder n kill =>
      rcases means with ⟨other, raw, rawName, isPid, isRaw, isName, same⟩
      cases same
      exact ⟨folder, n, kill, raw, rawName, isPid ▸ rfl, isRaw, isName, rfl⟩

/-- A dump that was asked for is made where the request has it, and kills what the request
names. -/
theorem asked_of_hasRun {request : PanelRequest} {pid : ℤ} {folder n : Text} {kill : Bool}
    {raw rawName : Bytes} (isRaw : argumentBytes folder = some raw)
    (isName : argumentBytes n = some rawName)
    (dumped : HasRun machine home config settings request (.dump pid folder n kill)) :
    Touches home config settings request (machine.snapshotPlace raw rawName) ∧
      (kill = true → Kills settings request pid) := by
  cases request with
  | dump body =>
      rcases dumped with ⟨directory, asks, into⟩
      have isPlace : machine.IsPlace folder n (machine.snapshotPlace raw rawName) :=
        ⟨raw, rawName, fsEncode_of_argumentBytes isRaw, fsEncode_of_argumentBytes isName, rfl⟩
      constructor
      · refine ⟨pid, n, kill, directory, asks, ?_⟩
        cases directory with
        | none =>
            obtain rfl : folder = config.snapshotDir := into
            exact isPlace
        | some path => exact isPlace_of_resolves into isPlace
      · rintro rfl
        exact ⟨n, directory, asks⟩
  | _ => exact dumped.elim

/-- An engine with a restore to make was asked for one. -/
theorem restore_of_job {request : EngineRequest} {argv : List Bytes}
    {fileName outputDir : Option Bytes} (passes : request.argv = some argv)
    (job : main argv = .restores fileName outputDir) :
    ∃ folder n, request = .restore folder n := by
  have means := means_of_job passes job (by rintro ⟨failure, -, impossible⟩; cases impossible)
  cases request with
  | check pid =>
      cases pid with
      | none => cases means
      | some pid =>
          rcases means with ⟨other, -, impossible⟩
          cases impossible
  | restore folder n => exact ⟨folder, n, rfl⟩
  | dump pid folder n kill =>
      rcases means with ⟨other, raw, rawName, -, -, -, impossible⟩
      cases impossible

/-- The arguments of an engine with a restore to make are those of a request for it. -/
theorem restores_of_job {request : PanelRequest} {engine : EngineRequest} {argv : List Bytes}
    {fileName outputDir : Option Bytes} (passes : engine.argv = some argv)
    (job : main argv = .restores fileName outputDir)
    (ran : HasRun machine home config settings request engine) :
    Restores settings request argv := by
  rcases restore_of_job passes job with ⟨folder, n, rfl⟩
  cases request with
  | restore body => exact ⟨folder, n, ran, passes⟩
  | _ => exact ran.elim

theorem confined_works {command : EngineCommand} {argv : List Bytes} {deeds : machine.Deeds}
    (confined : now.Confined home config settings requests start)
    (mem : command ∈ now.commands) (passes : command.request.argv = some argv)
    (works : Machine.Works argv now.toDeeds deeds) :
    ({ now with toDeeds := deeds } : Site machine).Confined home config settings requests
      start := by
  rcases confined.commands command mem with ⟨i, ran⟩
  cases works with
  | @writes number dumpConfig path _ files content job built written =>
      rcases dump_of_job passes job with ⟨folder, n, kill, raw, rawName, isDump, isRaw, isName, rfl⟩
      rw [isDump] at ran
      have isPath : raw ++ [47] ++ rawName = path := eq_of_buildSnapshotPath built
      subst isPath
      exact confined.touched (asked_of_hasRun isRaw isName ran).1 written
  | @kills number dumpConfig _ job asked =>
      rcases dump_of_job passes job with ⟨folder, n, kill, raw, rawName, isDump, isRaw, isName, rfl⟩
      rw [isDump] at ran
      have own : Kills settings (requests i) number.toInt :=
        (asked_of_hasRun isRaw isName ran).2 asked
      exact { confined with
        killed := List.forall_mem_append.mpr
          ⟨confined.killed, List.forall_mem_singleton.mpr (.inl ⟨i, own⟩)⟩ }
  | @forks fileName outputDir _ child job =>
      have own := restores_of_job passes job ran
      exact { confined with
        killed := by
          intro number mem
          rcases confined.killed number mem with asked | ⟨other, forked⟩
          · exact .inl asked
          · exact .inr ⟨other, List.mem_append_left _ forked⟩
        forked := by
          intro other number mem
          rcases List.mem_append.mp mem with before | new
          · exact confined.forked other number before
          · cases List.mem_singleton.mp new
            exact ⟨i, own⟩ }
  | @killsChild fileName outputDir _ child job own =>
      exact { confined with
        killed := List.forall_mem_append.mpr
          ⟨confined.killed, List.forall_mem_singleton.mpr (.inr ⟨argv, own⟩)⟩ }

/-! ## Every interleaving -/

theorem confined_of_reaches [DecidableEq ι] {lower : Text → Text}
    {pool : Pool (siteSystem machine home ι) Unit}
    (reaches : Pool.Reaches anyAnswer (siteStart home config settings lower requests start) pool) :
    pool.shared.Confined home config settings requests start := by
  have drifts : ∀ before now,
      (siteDiscipline home config settings requests start).always before →
      (siteSystem machine home ι).drift before now →
        (siteDiscipline home config settings requests start).Unnoticed before now := by
    rintro before _ confined ⟨command, mem, argv, passes, deeds, works, rfl⟩
    exact ⟨confined_works confined mem passes works, fun _ => List.Subset.refl _⟩
  have initially : (siteDiscipline home config settings requests start).always
      (siteStart home config settings lower requests start).shared := by
    refine ⟨List.forall_mem_nil _, fun place changed => absurd rfl changed, List.forall_mem_nil _,
      fun _ _ impossible => ?_, fun session impossible => ?_, List.forall_mem_nil _⟩
    · cases impossible
    · cases impossible
  exact (Pool.reaches_keeps drifts initially (fun i => keeps_serve_site lower _) reaches).1

/-- Whatever requests are under way at once, and however they and the engines they have started
interleave, a file that is not as it was at the start is the snapshot of a dump or of a deletion
that one of the requests asks for, in the folder and under the name that it gives, or it is the
panel's registry or a file that this is written to at first. -/
theorem files_confined [DecidableEq ι] {lower : Text → Text}
    {pool : Pool (siteSystem machine home ι) Unit}
    (reaches : Pool.Reaches anyAnswer (siteStart home config settings lower requests start) pool)
    (place : machine.Place) (changed : pool.shared.files place ≠ start place) :
    machine.Own place ∨ ∃ i, Touches home config settings (requests i) place :=
  (confined_of_reaches reaches).files place changed

/-- However requests and engines interleave, an engine kills no process but one that a dump request
names, with `kill` set and neither 1 nor the panel, or a child that an engine has forked for a
restore request. The panel signals no process group but that of an engine that it has started. -/
theorem processes_confined [DecidableEq ι] {lower : Text → Text}
    {pool : Pool (siteSystem machine home ι) Unit}
    (reaches : Pool.Reaches anyAnswer (siteStart home config settings lower requests start) pool) :
    (∀ number ∈ pool.shared.killed, (∃ i, Kills settings (requests i) number.toInt) ∨
      ∃ i argv, Restores settings (requests i) argv ∧ (argv, number) ∈ pool.shared.forked) ∧
      ∀ process ∈ pool.shared.signalled, process ∈ pool.shared.started := by
  have confined := confined_of_reaches reaches
  refine ⟨fun number mem => (confined.killed number mem).imp_right ?_, confined.signalled⟩
  rintro ⟨argv, forked⟩
  rcases confined.forked argv number forked with ⟨i, restores⟩
  exact ⟨i, argv, restores, forked⟩

end Discipline

/-! ## Three requests at once -/

/-- A dump that is to kill, into a folder of its own, a restore, and the stop of what was
restored. -/
def busyRequests : Fin 3 → PanelRequest
  | 0 => .dump (text "\x7b\"pid\": 7, \"kill\": true, \"directory\": \"/other\"\x7d")
  | 1 => .restore soloRestoreBody
  | 2 => .stopRestore

abbrev BusyPool : Type := Pool (siteSystem soloMachine id (Fin 3)) Unit

def busyStart : BusyPool :=
  siteStart id exampleConfig exampleSettings id busyRequests fun _ => none

/-- Answers under which every request goes well. -/
def busyAnswer (_ : Fin 3) (site : Site soloMachine) :
    (request : PanelCall) → Option (request.Reply × Site soloMachine)
  | .run command =>
      some (.ok ⟨0, printReport (checkOne sampleProcess true), []⟩,
        { site with commands := site.commands ++ [command] })
  | .popen command =>
      some (.ok ⟨1, 9⟩, { site with
        commands := site.commands ++ [command]
        started := site.started ++ [⟨1, 9⟩] })
  | .resolve path => if (fsEncode path).isSome then some (.ok path, site) else none
  | .readSession => some (site.session, site)
  | .writeSession session => some ((), { site with session := some session })
  | .signalGroup process _ =>
      some (.ok (), { site with signalled := site.signalled ++ [process] })
  | .expandUser path => some (.ok path, site)
  | .processIsDir _ => some (.ok true, site)
  | .isFile _ => some (.ok true, site)
  | .isExecutable _ => some (true, site)
  | .makeDirs _ => some (.ok (), site)
  | .isDir _ => some (.ok true, site)
  | .loadRegistry => some (.error (.osError .fileNotFound []), site)
  | .makeRegistryFolder => some (.ok (), site)
  | .createTemporary =>
      if (site.files (soloMachine.temporary 0)).isNone then
        some (.ok 0, { site with
          files := withFile site.files (soloMachine.temporary 0) [] })
      else none
  | .startStream _ => some (.ok (), site)
  | .readEnd _ => some (⟨none, none⟩, site)
  | .poll _ => some (none, site)
  | .acquireSession => some ((), site)
  | .releaseSession => some ((), site)
  | .now => some ([], site)
  | .log _ _ _ => some ((), site)
  | _ => none

theorem step_of_busyAnswer {i : Fin 3} {before after : Site soloMachine} {request : PanelCall}
    {reply : request.Reply} (answered : busyAnswer i before request = some (reply, after)) :
    siteStep id before request reply after := by
  cases request with
  | resolve path =>
      rw [busyAnswer] at answered
      split at answered
      · next isSome =>
        cases answered
        exact ⟨⟨Option.isSome_iff_exists.mp isSome, fun raw encoded =>
          ⟨raw, encoded, fun _ _ => rfl⟩⟩, rfl⟩
      · cases answered
  | run => cases answered; exact rfl
  | popen => cases answered; exact rfl
  | readSession => cases answered; exact ⟨rfl, rfl⟩
  | writeSession => cases answered; exact rfl
  | signalGroup => cases answered; exact rfl
  | expandUser => cases answered; exact ⟨rfl, rfl⟩
  | processIsDir => cases answered; exact rfl
  | isFile => cases answered; exact rfl
  | isExecutable => cases answered; exact rfl
  | createTemporary =>
      rw [busyAnswer] at answered
      split at answered
      · next isNew =>
        cases answered
        exact ⟨_, ⟨Option.isNone_iff_eq_none.mp isNew, writes_withFile _ _ _⟩, rfl⟩
      · cases answered
  | makeDirs => cases answered; exact rfl
  | isDir => cases answered; exact rfl
  | loadRegistry => cases answered; exact rfl
  | makeRegistryFolder => cases answered; exact rfl
  | startStream => cases answered; exact rfl
  | readEnd => cases answered; exact rfl
  | poll => cases answered; exact rfl
  | acquireSession => cases answered; exact rfl
  | releaseSession => cases answered; exact rfl
  | now => cases answered; exact rfl
  | log => cases answered; exact rfl
  | _ => cases answered

def busyDump : EngineCommand :=
  command exampleConfig (text "/Ksnap") (.dump 7 (text "/other") (text "pid-7.ksnap") true)

def busyArguments : List Bytes :=
  [ascii "-m", ascii "Dump", ascii "-p", ascii "7", ascii "-d", ascii "/other",
    ascii "-n", ascii "pid-7.ksnap", ascii "-k"]

def busyRestore : EngineCommand :=
  command exampleConfig (text "/Ksnap") (.restore (text "/save") (text "pid-7.ksnap"))

/-- Both engines were started, the process that was restored has been signalled, and the registry
is about to be written. -/
structure IsBusy (pool : BusyPool) : Prop where
  dumps : busyDump ∈ pool.shared.commands
  restores : busyRestore ∈ pool.shared.commands
  signalled : pool.shared.signalled = [⟨1, 9⟩]
  saves : pool.shared.files (soloMachine.temporary 0) = some []

instance decidable_isBusy (pool : BusyPool) : Decidable (IsBusy pool) :=
  decidable_of_iff (busyDump ∈ pool.shared.commands ∧ busyRestore ∈ pool.shared.commands ∧
      pool.shared.signalled = [⟨1, 9⟩] ∧ pool.shared.files (soloMachine.temporary 0) = some [])
    ⟨fun ⟨dumps, restores, signalled, saves⟩ => ⟨dumps, restores, signalled, saves⟩,
      fun busy => ⟨busy.dumps, busy.restores, busy.signalled, busy.saves⟩⟩

theorem exists_busy : ∃ pool : BusyPool, Pool.Reaches anyAnswer busyStart pool ∧ IsBusy pool := by
  let order : List (Fin 3) := List.replicate 4 0 ++ List.replicate 21 1 ++ List.replicate 19 0 ++
    List.replicate 6 2
  have busy : (Pool.schedule busyAnswer order busyStart).any (fun pool => IsBusy pool) = true := by
    decide +kernel
  rcases (Option.any_eq_true _ _).mp busy with ⟨pool, scheduled, isBusy⟩
  exact ⟨pool, Pool.reaches_of_schedule
    (fun _ _ _ _ _ answered => ⟨step_of_busyAnswer answered, trivial⟩) scheduled,
    of_decide_eq_true isBusy⟩

/-- Where the dump is written. -/
def busyPlace : soloMachine.Place := ascii "/other/pid-7.ksnap"

theorem main_busyArguments : main busyArguments =
    .dumps 7 ⟨some (ascii "pid-7.ksnap"), some (ascii "/other"), true⟩ := rfl

/-- The engine writes while the registry is written to a new file. -/
theorem files_confined_busy : ∃ pool : BusyPool, pool.shared.files busyPlace = some soloImage ∧
    pool.shared.files (soloMachine.temporary 0) = some [] ∧
    ∀ place, pool.shared.files place ≠ none → soloMachine.Own place ∨
      ∃ i, Touches id exampleConfig exampleSettings (busyRequests i) place := by
  rcases exists_busy with ⟨pool, reaches, busy⟩
  have built : buildSnapshotPath (some (ascii "pid-7.ksnap")) (some (ascii "/other")) =
      some (ascii "/other/pid-7.ksnap") := by decide
  let written : soloMachine.Deeds := { pool.shared.toDeeds with
    files := withFile pool.shared.files busyPlace soloImage }
  have writes := writes_withFile pool.shared.files busyPlace soloImage
  have works : Machine.Works busyArguments pool.shared.toDeeds written :=
    .writes main_busyArguments built writes
  have other : ascii "/registry." ≠ ascii "/other/pid-7.ksnap" := by decide
  have confined := files_confined
    (reaches.trans (reaches_of_works busy.dumps rfl (.single works)))
  exact ⟨{ pool with shared := { pool.shared with toDeeds := written } }, writes.own,
    (writes.others _ other).trans busy.saves, confined⟩

/-- The engines kill, one its target and one its child, while the others go on. -/
theorem processes_confined_busy : ∃ pool : BusyPool, pool.shared.signalled = [⟨1, 9⟩] ∧
    7 ∈ pool.shared.killed ∧ 12 ∈ pool.shared.killed ∧
      (∀ number ∈ pool.shared.killed,
        (∃ i, Kills exampleSettings (busyRequests i) number.toInt) ∨
          ∃ i argv, Restores exampleSettings (busyRequests i) argv ∧
            (argv, number) ∈ pool.shared.forked) ∧
      ∀ process ∈ pool.shared.signalled, process ∈ pool.shared.started := by
  rcases exists_busy with ⟨pool, reaches, busy⟩
  have restores : main soloArguments =
      .restores (some (ascii "pid-7.ksnap")) (some (ascii "/save")) := rfl
  let killed : soloMachine.Deeds := { pool.shared.toDeeds with
    killed := pool.shared.killed ++ [7] }
  let dumped : BusyPool := { pool with shared := { pool.shared with toDeeds := killed } }
  let forked : soloMachine.Deeds := { killed with
    forked := pool.shared.forked ++ [(soloArguments, 12)] }
  let ended : soloMachine.Deeds := { forked with killed := killed.killed ++ [12] }
  have kills : Machine.Works busyArguments pool.shared.toDeeds killed :=
    .kills main_busyArguments rfl
  have forks : Machine.Works soloArguments killed forked := .forks restores
  have killsChild : Machine.Works soloArguments forked ended :=
    .killsChild restores List.mem_concat_self
  have passes : busyRestore.request.argv = some soloArguments := rfl
  have isRestore : busyRestore ∈ dumped.shared.commands := busy.restores
  have isDumped := reaches.trans (reaches_of_works busy.dumps rfl (.single kills))
  have confined := processes_confined
    (isDumped.trans (reaches_of_works isRestore passes (.tail (.single forks) killsChild)))
  exact ⟨{ pool with shared := { pool.shared with toDeeds := ended } }, busy.signalled,
    List.mem_append_left _ List.mem_concat_self, List.mem_concat_self, confined⟩

end Ksnap
