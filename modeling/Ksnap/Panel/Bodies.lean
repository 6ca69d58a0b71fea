import Ksnap.Panel.Known
import Ksnap.Panel.Settling
import Ksnap.Panel.Verdicts

/-!
# Which bodies are answered

Every body of a dump or a restore should get the engine started, or end in an exception
that has a handler. A body that is no object does not, nor does an infinite pid, nor a
path over which the system raises something else.
-/

namespace Ksnap.Panel

open Foundation Raising Program

/-! ## The panel and its files -/

/-- A file tree that does not change, what is known of the processes, and what comes of
creating a folder. What is found at a folder for a dump is found after it was created. -/
structure PanelWorld where
  store : FolderStore
  processIsDir : ℤ → Except PythonError Bool
  isFile : Text → Except PythonError Bool
  makeDirs : Text → Except PythonError Unit

/-- The answers in the world. The engine may do anything. -/
def PanelWorld.Answers (world : PanelWorld) : (request : PanelCall) → request.Reply → Prop
  | .processIsDir pid, reply => reply = world.processIsDir pid
  | .isFile path, reply => reply = world.isFile path
  | .makeDirs path, reply => reply = world.makeDirs path
  | request, reply => world.store.Answers request reply

theorem PanelWorld.follows (world : PanelWorld) : world.store.Follows world.Answers where
  expandUser := fun _ _ => Iff.rfl
  resolve := fun _ _ => Iff.rfl
  isDir := fun _ _ => Iff.rfl
  loadRegistry := fun _ => Iff.rfl

/-- The member of an object, None where there is none. -/
def valueOf (name : String) (members : List (Text × Json)) : Json :=
  (member (text name) members).getD .null

/-- What a folder in a dump's body has to be handled for. -/
structure FolderHandled (world : PanelWorld) (path : Text) : Prop where
  expands : Handled (world.store.tree.expandUser path)
  resolves : ∀ expanded, world.store.tree.expandUser path = .ok expanded →
    isAbsolute expanded = true → Handled (world.store.tree.resolve expanded)
  makes : ∀ expanded directory raised, world.store.tree.expandUser path = .ok expanded →
    isAbsolute expanded = true → world.store.tree.resolve expanded = .ok directory →
      directory.length ≤ maxLength → world.makeDirs directory = .error raised →
        raised.isOsError = true ∨ hasHandler raised = true
  looks : ∀ expanded directory, world.store.tree.expandUser path = .ok expanded →
    isAbsolute expanded = true → world.store.tree.resolve expanded = .ok directory →
      directory.length ≤ maxLength → world.makeDirs directory = .ok () →
        Handled (world.store.isDir directory)

/-- The path in a dump's body is that of a folder, or one that could be created. -/
def FolderReady (world : PanelWorld) (path : Text) : Prop :=
  ∃ expanded directory, world.store.tree.expandUser path = .ok expanded ∧
    isAbsolute expanded = true ∧ world.store.tree.resolve expanded = .ok directory ∧
      directory.length ≤ maxLength ∧ world.makeDirs directory = .ok () ∧
        world.store.isDir directory = .ok true

/-- The folder in a dump's body is taken. -/
def FolderTaken (world : PanelWorld) (given : Json) : Prop :=
  truthy given = false ∨ ∃ path, given = .string path ∧ strip path ≠ [] ∧ 0 ∉ strip path ∧
    FolderReady world (strip path)

/-- The pid in the body may be dumped, as far as the panel can tell without a look at it. -/
def Candidate (ownPid : ℤ) (members : List (Text × Json)) (pid : ℤ) : Prop :=
  toInt (valueOf "pid" members) = .ok pid ∧ 1 < pid ∧ pid ≠ ownPid

/-- The members of a body that a dump can be asked for with. Where all of them are taken, the
file of the engine is looked at. -/
structure DumpHandled (config : Config) (world : PanelWorld) (ownPid : ℤ)
    (members : List (Text × Json)) : Prop where
  finite : toInt (valueOf "pid" members) ≠ .error .overflowError
  process : ∀ pid, Candidate ownPid members pid → Handled (world.processIsDir pid)
  folder : ∀ pid kill path, Candidate ownPid members pid → world.processIsDir pid = .ok true →
    (member (text "kill") members).getD (.boolean false) = .boolean kill →
      valueOf "directory" members = .string path → strip path ≠ [] → 0 ∉ strip path →
        FolderHandled world (strip path)
  engine : ∀ pid kill, Candidate ownPid members pid → world.processIsDir pid = .ok true →
    (member (text "kill") members).getD (.boolean false) = .boolean kill →
      FolderTaken world (valueOf "directory" members) →
        Handled (world.isFile config.engineBinary)

/-- The entry leads to a folder of which can be told whether it exists, or to an exception that
has a handler. Nobody looks whether the default store exists. -/
def EntryHandled (store : FolderStore) (default item : Text) : Prop :=
  Handled (store.tree.normalize item) ∧ ∀ folder, store.tree.normalize item = .ok folder →
    folder ≠ default → Handled (store.isDir folder)

/-- The folders of the panel are listed, or the list ends in an exception that has a handler:
the first unusable entry decides. -/
structure ListHandled (config : Config) (store : FolderStore) : Prop where
  default : Handled (store.tree.normalize config.snapshotDir)
  shallow : ∀ default, store.tree.normalize config.snapshotDir = .ok default →
    store.registry ≠ .error .recursionError
  entries : ∀ default before item after, store.tree.normalize config.snapshotDir = .ok default →
    store.entries = before ++ item :: after →
      (∀ other ∈ before, store.Usable default other) → EntryHandled store default item

/-- What `require_known` comes to. -/
def folderOutcome (config : Config) (store : FolderStore) : Json → Except PythonError Text
  | .null => store.tree.normalize config.snapshotDir
  | .string [] => store.tree.normalize config.snapshotDir
  | .string path =>
      demand (0 ∉ path) folderNotPath >>= fun _ =>
        store.tree.normalize path >>= fun directory => knownOutcome store config >>= fun folders =>
          demand (directory ∈ folders)
            (.valueError (directory ++ text " is not a snapshot folder of this panel")) >>= fun _ =>
              .ok directory
  | _ => .error folderNotPath

/-- The file of a restore is looked at, and where it is there, that of the engine. -/
def FileHandled (config : Config) (world : PanelWorld) (path : Text) : Prop :=
  Handled (world.isFile path) ∧
    (world.isFile path = .ok true → Handled (world.isFile config.engineBinary))

/-- The members of a body that a restore can be asked for with. -/
structure RestoreHandled (config : Config) (world : PanelWorld) (members : List (Text × Json)) :
    Prop where
  default : valueOf "directory" members = .null ∨ valueOf "directory" members = .string [] →
    Handled (world.store.tree.normalize config.snapshotDir)
  folder : ∀ path, valueOf "directory" members = .string path → path ≠ [] → 0 ∉ path →
    Handled (world.store.tree.normalize path) ∧ ∀ directory,
      world.store.tree.normalize path = .ok directory → ListHandled config world.store
  file : ∀ n folder, validateName (valueOf "name" members) = .ok n →
    folderOutcome config world.store (valueOf "directory" members) = .ok folder →
      Handled (world.store.tree.resolve folder) ∧ ∀ directory again,
        world.store.tree.resolve folder = .ok directory → validateName (.string n) = .ok again →
          Handled (world.store.tree.resolve (joinPath directory again)) ∧ ∀ path,
            world.store.tree.resolve (joinPath directory again) = .ok path →
              parentOf path = directory → FileHandled config world path

/-! ## Dump -/

section Dump

variable {world : PanelWorld}

theorem only_checksPid (event : Event PanelInterface) (reached : checksPid event = true) :
    runsEngine event.request = true := by
  rcases event with ⟨request, reply⟩
  cases request with
  | run command => rfl
  | popen command => rfl
  | _ => cases reached

theorem only_startsRestore (event : Event PanelInterface) (reached : startsRestore event = true) :
    runsEngine event.request = true := by
  rcases event with ⟨request, reply⟩
  cases request with
  | run command => rfl
  | popen command => rfl
  | _ => cases reached

theorem quiet_normalize (path : Text) : WithoutEngine (normalize path) :=
  OnlyCalls.raising_bind (PanelCall.onlyCalls_attempt rfl) fun _ =>
    PanelCall.onlyCalls_attempt rfl

/-- The end of `validate`, which creates the folder. -/
theorem settles_makeDirs_iff {β : Type} {directory : Text} {rest : Text → Request β}
    {engine : Prop} (settles : Settles world.Answers checksPid (rest directory) ↔ engine) :
    Settles world.Answers checksPid
        (catching ((PanelCall.makeDirs directory).attempt id) PythonError.isOsError (fun error =>
            throw (.valueError (text "cannot create " ++ directory ++ text ": " ++
              error.reason))) >>=
          fun _ => (PanelCall.isDir directory).attempt id >>= fun present =>
            require present (.valueError (directory ++ text " is not a folder")) >>= fun _ =>
              pure directory >>= rest) ↔
      (∀ raised, world.makeDirs directory = .error raised →
        raised.isOsError = true ∨ hasHandler raised = true) ∧
          (world.makeDirs directory = .ok () → Handled (world.store.isDir directory) ∧
            (world.store.isDir directory = .ok true → engine)) := by
  have makes : Yields (answering world.Answers)
      ((PanelCall.makeDirs directory).attempt id : Request Unit) (world.makeDirs directory) :=
    yields_answer _ fun _ => Iff.rfl
  have quiet : WithoutEngine (catching ((PanelCall.makeDirs directory).attempt id)
      PythonError.isOsError fun error =>
        throw (.valueError (text "cannot create " ++ directory ++ text ": " ++
        error.reason)) : Request Unit) :=
    OnlyCalls.catching (PanelCall.onlyCalls_attempt rfl) fun _ => onlyCalls_raising_throw
  have looks : Yields (answering world.Answers)
      ((PanelCall.isDir directory).attempt id : Request Bool) (world.store.isDir directory) :=
    yields_answer _ (world.follows.isDir directory)
  have behind : Settles world.Answers checksPid
      ((PanelCall.isDir directory).attempt id >>= fun present =>
        require present (.valueError (directory ++ text " is not a folder")) >>= fun _ =>
          pure directory >>= rest) ↔ Handled (world.store.isDir directory) ∧
            (world.store.isDir directory = .ok true → engine) := by
    refine (settles_attempt_iff only_checksPid looks rfl).trans (and_congr_right fun _ => ?_)
    constructor
    · intro each there
      exact settles.mp ((settles_require_iff rfl).mp (each true there) rfl)
    · intro reached present found
      refine (settles_require_iff rfl).mpr ?_
      rintro rfl
      exact settles.mpr (reached found)
  refine (settles_bind_iff only_checksPid (makes.catching fun _ => Yields.of_throw) quiet).trans ?_
  cases made : world.makeDirs directory with
  | ok done =>
      constructor
      · rintro ⟨-, later⟩
        refine ⟨?_, fun _ => behind.mp (later done rfl)⟩
        rintro raised ⟨⟩
      · rintro ⟨-, later⟩
        refine ⟨?_, fun _ _ => behind.mpr (later rfl)⟩
        rintro raised ⟨⟩
  | error other =>
      have caught : Handled (rescue PythonError.isOsError (fun error =>
          (.error (.valueError (text "cannot create " ++ directory ++ text ": " ++ error.reason)) :
            Except PythonError Unit)) (.error other)) ↔
              (other.isOsError = true ∨ hasHandler other = true) := by
        rw [rescue]
        split
        · next isOsError => exact iff_of_true (fun _ same => by cases same; rfl) (.inl isOsError)
        · next missed =>
          constructor
          · exact fun handled => .inr (handled other rfl)
          · rintro handled raised ⟨⟩
            exact handled.resolve_left missed
      have notMade : ∀ value : Unit, rescue PythonError.isOsError (fun error =>
          (.error (.valueError (text "cannot create " ++ directory ++ text ": " ++ error.reason)) :
            Except PythonError Unit)) (.error other) ≠ .ok value := by
        intro value same
        rw [rescue] at same
        split at same <;> cases same
      constructor
      · rintro ⟨handled, -⟩
        constructor
        · rintro raised ⟨⟩
          exact caught.mp handled
        · rintro ⟨⟩
      · rintro ⟨each, -⟩
        exact ⟨caught.mpr (each other rfl), fun value same => absurd same (notMade value)⟩

/-- The folder of a dump. -/
theorem settles_validateFolder_iff {β : Type} {path : Text} {rest : Text → Request β}
    {engine : Prop}
    (settles : ∀ directory, Settles world.Answers checksPid (rest directory) ↔ engine) :
    Settles world.Answers checksPid (validateFolder path >>= rest) ↔
      (strip path ≠ [] → 0 ∉ strip path → FolderHandled world (strip path) ∧
        (FolderReady world (strip path) → engine)) := by
  rw [validateFolder]
  simp only [bind_assoc]
  rw [settles_require_iff rfl, settles_require_iff rfl]
  simp only [decide_eq_true_eq]
  refine imp_congr_right fun _ => imp_congr_right fun _ => ?_
  have expands : Yields (answering world.Answers)
      ((PanelCall.expandUser (strip path)).attempt id : Request Text)
      (world.store.tree.expandUser (strip path)) :=
    yields_answer _ (world.follows.expandUser (strip path))
  refine (settles_attempt_iff only_checksPid expands rfl).trans (Iff.trans
    (b := Handled (world.store.tree.expandUser (strip path)) ∧ ∀ expanded,
      world.store.tree.expandUser (strip path) = .ok expanded → isAbsolute expanded = true →
        Handled (world.store.tree.resolve expanded) ∧ ∀ directory,
          world.store.tree.resolve expanded = .ok directory → directory.length ≤ maxLength →
            (∀ raised, world.makeDirs directory = .error raised →
              raised.isOsError = true ∨ hasHandler raised = true) ∧
                (world.makeDirs directory = .ok () → Handled (world.store.isDir directory) ∧
                  (world.store.isDir directory = .ok true → engine)))
    (and_congr_right fun _ => forall_congr' fun expanded => imp_congr_right fun leads => ?_) ?_)
  · have same : world.store.tree.normalize (strip path) = world.store.tree.resolve expanded := by
      rw [Tree.normalize, leads]
    refine (settles_require_iff rfl).trans (imp_congr_right fun _ => ?_)
    refine (settles_bind_iff only_checksPid (yields_normalize world.follows _)
      (quiet_normalize _)).trans ?_
    rw [same]
    refine and_congr_right fun _ => forall_congr' fun directory => imp_congr_right fun _ => ?_
    exact (settles_require_iff rfl).trans
      (imp_congr decide_eq_true_iff (settles_makeDirs_iff (settles directory)))
  · constructor
    · rintro ⟨handled, later⟩
      refine ⟨⟨handled, fun expanded expands absolute => (later expanded expands absolute).1,
        ?_, ?_⟩, ?_⟩
      · exact fun expanded directory raised expands absolute resolves short =>
          ((later expanded expands absolute).2 directory resolves short).1 raised
      · exact fun expanded directory expands absolute resolves short made =>
          (((later expanded expands absolute).2 directory resolves short).2 made).1
      · rintro ⟨expanded, directory, expands, absolute, resolves, short, made, there⟩
        exact (((later expanded expands absolute).2 directory resolves short).2 made).2 there
    · rintro ⟨folder, reached⟩
      refine ⟨folder.expands, fun expanded expands absolute => ?_⟩
      refine ⟨folder.resolves expanded expands absolute, fun directory resolves short => ?_⟩
      refine ⟨fun raised => folder.makes expanded directory raised expands absolute resolves short,
        fun made => ⟨folder.looks expanded directory expands absolute resolves short made, ?_⟩⟩
      exact fun there =>
        reached ⟨expanded, directory, expands, absolute, resolves, short, made, there⟩

/-- The folder of a dump, with none where the body gives none. -/
theorem settles_dumpFolder_iff {β : Type} {given : Json} {rest : Option Text → Request β}
    {engine : Prop}
    (settles : ∀ folder, Settles world.Answers checksPid (rest folder) ↔ engine) :
    Settles world.Answers checksPid
        (dumpFolder (if truthy given then some given else none) >>= rest) ↔
      (∀ path, given = .string path → strip path ≠ [] → 0 ∉ strip path →
        FolderHandled world (strip path)) ∧ (FolderTaken world given → engine) := by
  by_cases present : truthy given = true
  · rw [if_pos present, dumpFolder]
    simp only [bind_assoc, pure_bind]
    cases given with
    | string path =>
        refine (settles_validateFolder_iff fun directory => settles (some directory)).trans ?_
        constructor
        · intro folder
          refine ⟨?_, ?_⟩
          · rintro other ⟨⟩ nonempty noNul
            exact (folder nonempty noNul).1
          · rintro (notGiven | ⟨other, ⟨⟩, nonempty, noNul, ready⟩)
            · rw [present] at notGiven
              cases notGiven
            · exact (folder nonempty noNul).2 ready
        · rintro ⟨each, reached⟩ nonempty noNul
          exact ⟨each path rfl nonempty noNul,
            fun ready => reached (.inr ⟨path, rfl, nonempty, noNul, ready⟩)⟩
    | _ =>
        refine iff_of_true (settles_throw rfl) ⟨nofun, ?_⟩
        rintro (notGiven | ⟨_, same, _⟩)
        · rw [present] at notGiven
          cases notGiven
        · cases same
  · rw [if_neg present, dumpFolder, pure_bind]
    refine (settles none).trans ?_
    constructor
    · intro reached
      refine ⟨?_, fun _ => reached⟩
      rintro path rfl nonempty
      cases path with
      | nil => exact absurd rfl nonempty
      | cons first others => exact absurd rfl present
    · exact fun both => both.2 (.inl (Bool.eq_false_iff.mpr present))

theorem pidOf_eq_ok_iff {value : Json} {pid : ℤ} :
    pidOf value = .ok pid ↔ toInt value = .ok pid := by
  rw [pidOf]
  cases toInt value with
  | ok number => rfl
  | error raised =>
      have noPid : (Except.error raised : Except PythonError ℤ) ≠ .ok pid := by
        intro same
        cases same
      rw [rescue]
      split
      · refine iff_of_false ?_ noPid
        intro same
        cases same
      · exact iff_of_false noPid noPid

/-- Only an infinite number has no handler. -/
theorem handled_pidOf_iff {value : Json} :
    Handled (pidOf value) ↔ toInt value ≠ .error .overflowError := by
  have kinds : ∀ raised, toInt value = .error raised → raised = .typeError ∨
      raised = .valueError [] ∨ raised = .overflowError := by
    intro raised failed
    cases value with
    | float literal =>
        rw [toInt] at failed
        split at failed
        · cases failed
        · cases failed
          exact .inr (.inl rfl)
        · cases failed
          exact .inr (.inr rfl)
    | string given =>
        rw [toInt] at failed
        split at failed
        · cases failed
        · cases failed
          exact .inr (.inl rfl)
    | integer number => cases failed
    | boolean flag => cases failed
    | _ =>
        cases failed
        exact .inl rfl
  rw [pidOf]
  cases converted : toInt value with
  | ok number => exact iff_of_true nofun nofun
  | error raised =>
      rcases kinds raised converted with rfl | rfl | rfl
      · refine iff_of_true ?_ nofun
        rintro raised ⟨⟩
        rfl
      · refine iff_of_true ?_ nofun
        rintro raised ⟨⟩
        rfl
      · refine iff_of_false ?_ fun differs => differs rfl
        exact fun handled => Bool.noConfusion (handled .overflowError rfl)

theorem settles_validatePid_iff {β : Type} {ownPid : ℤ} {value : Json} {rest : ℤ → Request β} :
    Settles world.Answers checksPid (validatePid ownPid value >>= rest) ↔
      toInt value ≠ .error .overflowError ∧ ∀ pid, toInt value = .ok pid → 1 < pid →
        pid ≠ ownPid → Handled (world.processIsDir pid) ∧ (world.processIsDir pid = .ok true →
          Settles world.Answers checksPid (rest pid)) := by
  rw [validatePid]
  simp only [bind_assoc]
  refine (settles_liftExcept_iff only_checksPid).trans (and_congr handled_pidOf_iff ?_)
  refine forall_congr' fun pid => imp_congr pidOf_eq_ok_iff ?_
  refine (settles_require_iff rfl).trans (imp_congr decide_eq_true_iff ?_)
  refine (settles_require_iff rfl).trans (imp_congr decide_eq_true_iff ?_)
  have looks : Yields (answering world.Answers)
      ((PanelCall.processIsDir pid).attempt id : Request Bool) (world.processIsDir pid) :=
    yields_answer _ fun _ => Iff.rfl
  refine (settles_attempt_iff only_checksPid looks rfl).trans (and_congr_right fun _ => ?_)
  constructor
  · intro each exists_
    exact (settles_require_iff rfl).mp (each true exists_) rfl
  · rintro settles present found
    refine (settles_require_iff rfl).mpr ?_
    rintro rfl
    exact settles found

theorem endsIn_ask {α : Type} {answers : (request : PanelCall) → request.Reply → Prop}
    {request : PanelCall} {value : request.Reply → α} {raises : PythonError → Prop} :
    EndsIn (answering answers) (request.ask value) (fun _ => True) raises :=
  fun _ _ _ _ => ⟨trivial, trivial⟩

/-- The engine is found, or not for a reason that has a handler. -/
theorem settles_binary_iff {β : Type} {reaches : Event PanelInterface → Bool} {config : Config}
    {rest : Text → Request β}
    (only : ∀ event, reaches event = true → runsEngine event.request = true)
    (settles : ∀ engine, Settles world.Answers reaches (rest engine)) :
    Settles world.Answers reaches (binary config >>= rest) ↔
      Handled (world.isFile config.engineBinary) := by
  have looks : Yields (answering world.Answers)
      ((PanelCall.isFile config.engineBinary).attempt id : Request Bool)
      (world.isFile config.engineBinary) :=
    yields_answer _ fun _ => Iff.rfl
  rw [binary, usable]
  simp only [bind_assoc]
  refine (settles_attempt_iff only looks rfl).trans (and_iff_left fun present _ => ?_)
  refine settles_of_endsIn ?_ fun executable => (settles_require_iff rfl).mpr fun _ => ?_
  · split
    · exact endsIn_ask
    · exact endsIn_pure trivial
  · rw [pure_bind]
    exact settles config.engineBinary

theorem settles_serveOrder_iff (config : Config) (settings : Settings) (payload : Json)
    (order : DumpOrder) :
    Settles world.Answers checksPid (serveOrder config settings payload order) ↔
      Handled (world.isFile config.engineBinary) := by
  rw [serveOrder, requireDumpable, check]
  simp only [bind_assoc]
  refine settles_binary_iff only_checksPid fun engine => ?_
  apply Reaches.settles
  apply Reaches.bind
  apply Reaches.catching
  apply Reaches.bind
  exact reaches_attempt fun _ => rfl

theorem field_dict (name : String) (default : Json) (members : List (Text × Json)) :
    field name default (.dict members) = .ok ((member (text name) members).getD default) := rfl

theorem handled_killOf {members : List (Text × Json)} : Handled (killOf (.dict members)) := by
  intro raised failed
  rw [killOf, field_dict] at failed
  simp only [bind, Except.bind] at failed
  split at failed
  · cases failed
  · cases failed
    rfl

theorem killOf_eq_ok_iff {members : List (Text × Json)} {kill : Bool} :
    killOf (.dict members) = .ok kill ↔
      (member (text "kill") members).getD (.boolean false) = .boolean kill := by
  rw [killOf, field_dict]
  cases (member (text "kill") members).getD (.boolean false) <;> simp [bind, Except.bind]

theorem settles_readOrder_iff {β : Type} {config : Config} {ownPid : ℤ} {payload : Json}
    {rest : DumpOrder → Request β}
    (settles : ∀ order, Settles world.Answers checksPid (rest order) ↔
      Handled (world.isFile config.engineBinary)) :
    Settles world.Answers checksPid (readOrder ownPid payload >>= rest) ↔
      ∃ members, payload = .dict members ∧ DumpHandled config world ownPid members := by
  rw [readOrder]
  simp only [bind_assoc, pure_bind]
  refine (settles_liftExcept_iff only_checksPid).trans ?_
  cases payload with
  | dict members =>
      constructor
      · rintro ⟨-, later⟩
        have settled := settles_validatePid_iff.mp (later _ rfl)
        have folders : ∀ pid kill, Candidate ownPid members pid →
            world.processIsDir pid = .ok true →
              (member (text "kill") members).getD (.boolean false) = .boolean kill →
                (∀ path, valueOf "directory" members = .string path → strip path ≠ [] →
                  0 ∉ strip path → FolderHandled world (strip path)) ∧
                (FolderTaken world (valueOf "directory" members) →
                  Handled (world.isFile config.engineBinary)) := by
          intro pid kill candidate found isKill
          have behind := (settled.2 pid candidate.1 candidate.2.1 candidate.2.2).2 found
          have killed := ((settles_liftExcept_iff only_checksPid).mp behind).2 kill
            (killOf_eq_ok_iff.mpr isKill)
          have folder := ((settles_liftExcept_iff only_checksPid).mp killed).2 _ rfl
          exact (settles_dumpFolder_iff fun _ => settles _).mp folder
        refine ⟨members, rfl, settled.1, ?_, ?_, ?_⟩
        · exact fun pid candidate => (settled.2 pid candidate.1 candidate.2.1 candidate.2.2).1
        · exact fun pid kill path candidate found isKill =>
            (folders pid kill candidate found isKill).1 path
        · exact fun pid kill candidate found isKill =>
            (folders pid kill candidate found isKill).2
      · rintro ⟨_, ⟨⟩, dump⟩
        refine ⟨nofun, ?_⟩
        rintro value ⟨⟩
        refine settles_validatePid_iff.mpr ⟨dump.finite, fun pid isPid above other => ?_⟩
        refine ⟨dump.process pid ⟨isPid, above, other⟩, fun found => ?_⟩
        refine (settles_liftExcept_iff only_checksPid).mpr ⟨handled_killOf, fun kill isKill => ?_⟩
        refine (settles_liftExcept_iff only_checksPid).mpr ⟨nofun, ?_⟩
        rintro directory ⟨⟩
        have candidate : Candidate ownPid members pid := ⟨isPid, above, other⟩
        have boolean := killOf_eq_ok_iff.mp isKill
        refine (settles_dumpFolder_iff fun _ => settles _).mpr ⟨fun path => ?_, ?_⟩
        · exact dump.folder pid kill path candidate found boolean
        · exact dump.engine pid kill candidate found boolean
  | _ =>
      refine iff_of_false ?_ nofun
      rintro ⟨handled, -⟩
      exact Bool.noConfusion (handled .attributeError rfl)

/-- Only a body that is nested too deep is not parsed. -/
theorem payloadOf_eq_error {depth : ℕ} {body : Text} {raised : PythonError}
    (failed : payloadOf depth body = .error raised) : raised = .recursionError := by
  rw [payloadOf, jsonLoads] at failed
  split at failed
  · cases failed
  · cases failed
    rfl
  · cases failed

theorem settles_payloadOf_iff {β : Type} {reaches : Event PanelInterface → Bool} {depth : ℕ}
    {body : Text} {rest : Json → Request β}
    (only : ∀ event, reaches event = true → runsEngine event.request = true) :
    Settles world.Answers reaches (liftExcept (payloadOf depth body) >>= rest) ↔
      ∃ payload, payloadOf depth body = .ok payload ∧
        Settles world.Answers reaches (rest payload) := by
  refine (settles_liftExcept_iff only).trans ?_
  cases parsed : payloadOf depth body with
  | ok payload =>
      constructor
      · exact fun both => ⟨payload, rfl, both.2 payload rfl⟩
      · rintro ⟨_, ⟨⟩, settles⟩
        exact ⟨nofun, fun _ same => Except.ok.inj same ▸ settles⟩
  | error raised =>
      rw [payloadOf_eq_error parsed]
      refine iff_of_false ?_ nofun
      exact fun both => Bool.noConfusion (both.1 .recursionError rfl)

/-- A dump's body is answered exactly if it is an object with members that can be handled. -/
theorem settles_postDump_iff (config : Config) (settings : Settings) (body : Text) :
    Settles world.Answers checksPid (postDump config settings body) ↔
      ∃ members, payloadOf settings.depth body = .ok (.dict members) ∧
        DumpHandled config world settings.ownPid members := by
  refine (settles_payloadOf_iff only_checksPid).trans ?_
  constructor
  · rintro ⟨payload, parsed, settles⟩
    rcases (settles_readOrder_iff (settles_serveOrder_iff config settings payload)).mp settles with
      ⟨members, rfl, dump⟩
    exact ⟨members, parsed, dump⟩
  · rintro ⟨members, parsed, dump⟩
    exact ⟨_, parsed, (settles_readOrder_iff (settles_serveOrder_iff config settings _)).mpr
      ⟨members, rfl, dump⟩⟩

end Dump

/-! ## Restore -/

section Restore

variable {world : PanelWorld} {config : Config} {store : FolderStore}

theorem handled_bind_iff {α β : Type} {first : Except PythonError α}
    {rest : α → Except PythonError β} :
    Handled (first >>= rest) ↔
      Handled first ∧ ∀ value, first = .ok value → Handled (rest value) := by
  cases first with
  | ok value =>
      constructor
      · exact fun handled => ⟨nofun, fun _ same => Except.ok.inj same ▸ handled⟩
      · exact fun both => both.2 value rfl
  | error raised =>
      constructor
      · refine fun handled => ⟨?_, nofun⟩
        rintro other ⟨⟩
        exact handled raised rfl
      · rintro ⟨handled, -⟩ other ⟨⟩
        exact handled raised rfl

theorem handled_ok {α : Type} {value : α} : Handled (.ok value) := by
  rintro raised ⟨⟩

/-- A round looks at the folder of its entry, unless it has that one already. -/
theorem handled_addOutcome_iff {default item : Text} {folders : List Text}
    (existing : Existing store default folders) (hasDefault : default ∈ folders) :
    Handled (addOutcome store folders item) ↔ EntryHandled store default item := by
  rw [addOutcome, handled_bind_iff]
  refine and_congr_right fun _ => forall_congr' fun folder => imp_congr_right fun _ => ?_
  by_cases mem : folder ∈ folders
  · rw [if_pos mem]
    refine iff_of_true handled_ok fun other => ?_
    rw [(existing folder mem).resolve_left other]
    exact handled_ok
  · rw [if_neg mem, handled_bind_iff]
    refine (and_iff_left fun _ _ => handled_ok).trans (imp_iff_right ?_).symm
    rintro rfl
    exact mem hasDefault

/-- A usable entry is added, behind what there is. -/
theorem exists_added {default item : Text} {folders : List Text} (hasDefault : default ∈ folders)
    (usable : store.Usable default item) :
    ∃ after, addOutcome store folders item = .ok after ∧ default ∈ after := by
  rcases usable with ⟨folder, normalized, looks⟩
  simp only [addOutcome, normalized, bind, Except.bind]
  by_cases mem : folder ∈ folders
  · exact ⟨folders, if_pos mem, hasDefault⟩
  · rw [if_neg mem]
    rcases looks with rfl | ⟨present, looked⟩
    · exact absurd hasDefault mem
    · rw [looked]
      refine ⟨_, rfl, ?_⟩
      split
      · exact List.mem_append_left _ hasDefault
      · exact hasDefault

/-- The loop in `known` raises what its first unusable entry raises. -/
theorem handled_foldlM_iff {default : Text} {items folders : List Text}
    (existing : Existing store default folders) (hasDefault : default ∈ folders) :
    Handled (items.foldlM (addOutcome store) folders) ↔
      ∀ before item after, items = before ++ item :: after →
        (∀ other ∈ before, store.Usable default other) → EntryHandled store default item := by
  induction items generalizing folders with
  | nil =>
      refine iff_of_true ?_ fun before item after same => by simp at same
      intro raised failed
      cases failed
  | cons first items ih =>
      rw [List.foldlM_cons, handled_bind_iff, handled_addOutcome_iff existing hasDefault]
      constructor
      · rintro ⟨handled, later⟩ before item after same usable
        cases before with
        | nil =>
            cases same
            exact handled
        | cons other before =>
            cases same
            rcases exists_added hasDefault (usable _ List.mem_cons_self) with
              ⟨next, isNext, stillDefault⟩
            have stillExisting := (usable_of_added existing isNext).2
            exact (ih stillExisting stillDefault).mp (later next isNext) before item after rfl
              fun another mem => usable another (List.mem_cons_of_mem _ mem)
      · intro each
        refine ⟨each [] first items rfl (List.forall_mem_nil _), fun next added => ?_⟩
        rcases usable_of_added existing added with ⟨usableFirst, stillExisting⟩
        rcases exists_added hasDefault usableFirst with ⟨_, again, stillDefault⟩
        cases added.symm.trans again
        refine (ih stillExisting stillDefault).mpr ?_
        rintro before item after rfl usable
        exact each (first :: before) item after rfl
          (List.forall_mem_cons.mpr ⟨usableFirst, usable⟩)

theorem handled_knownOutcome_iff :
    Handled (knownOutcome store config) ↔ ListHandled config store := by
  have loads : ∀ default : Text,
      Handled (loadOutcome store >>= fun items => items.foldlM (addOutcome store) [default]) ↔
        store.registry ≠ .error .recursionError ∧
          Handled (store.entries.foldlM (addOutcome store) [default]) := by
    intro default
    rcases loadOutcome_cases store with ⟨deep, loaded⟩ | ⟨readable, loaded⟩
    · rw [loaded]
      refine iff_of_false ?_ fun both => both.1 deep
      exact fun handled => Bool.noConfusion (handled .recursionError rfl)
    · rw [loaded]
      exact (and_iff_right readable).symm
  have starts : ∀ default : Text, Existing store default [default] :=
    fun _ _ mem => .inl (List.mem_singleton.mp mem)
  rw [knownOutcome, handled_bind_iff]
  constructor
  · rintro ⟨handled, later⟩
    have listed := fun default isDefault => (loads default).mp (later default isDefault)
    refine ⟨handled, fun default isDefault => (listed default isDefault).1, ?_⟩
    exact fun default before item after isDefault =>
      (handled_foldlM_iff (starts default) List.mem_cons_self).mp (listed default isDefault).2
        before item after
  · intro list
    refine ⟨list.default, fun default isDefault => (loads default).mpr ?_⟩
    exact ⟨list.shallow default isDefault,
      (handled_foldlM_iff (starts default) List.mem_cons_self).mpr fun before item after =>
        list.entries default before item after isDefault⟩

theorem yields_requireKnown (given : Json) :
    Yields (answering world.Answers) (requireKnown config given)
      (folderOutcome config world.store given) := by
  cases given with
  | null => exact yields_normalize world.follows _
  | string path =>
      cases path with
      | nil => exact yields_normalize world.follows _
      | cons first others =>
          exact Yields.of_require.bind fun _ => (yields_normalize world.follows _).bind fun _ =>
            (yields_known world.follows config).bind fun _ => Yields.of_require.bind fun _ =>
              Yields.of_pure
  | _ => exact Yields.of_throw

theorem handled_demand_iff {condition : Bool} {raised : PythonError} :
    Handled (demand condition raised) ↔ (condition = false → hasHandler raised = true) := by
  cases condition with
  | true => exact iff_of_true nofun nofun
  | false =>
      constructor
      · exact fun handled _ => handled raised rfl
      · rintro handled other ⟨⟩
        exact handled rfl

theorem handled_folderOutcome_iff {given : Json} :
    Handled (folderOutcome config store given) ↔
      (given = .null ∨ given = .string [] → Handled (store.tree.normalize config.snapshotDir)) ∧
        ∀ path, given = .string path → path ≠ [] → 0 ∉ path →
          Handled (store.tree.normalize path) ∧ ∀ directory,
            store.tree.normalize path = .ok directory → ListHandled config store := by
  have noPath : Handled (.error folderNotPath : Except PythonError Text) := by
    rintro raised ⟨⟩
    rfl
  cases given with
  | null =>
      constructor
      · exact fun handled => ⟨fun _ => handled, fun _ same => nomatch same⟩
      · exact fun both => both.1 (.inl rfl)
  | string path =>
      cases path with
      | nil =>
          constructor
          · refine fun handled => ⟨fun _ => handled, ?_⟩
            rintro path ⟨⟩ nonempty
            exact absurd rfl nonempty
          · exact fun both => both.1 (.inr rfl)
      | cons first others =>
          have refused : ∀ (directory : Text) (folders : List Text), Handled
              (demand (directory ∈ folders)
                (.valueError (directory ++ text " is not a snapshot folder of this panel")) >>=
                  fun _ => (.ok directory : Except PythonError Text)) := fun _ _ =>
            handled_bind_iff.mpr ⟨handled_demand_iff.mpr fun _ => rfl, fun _ _ => nofun⟩
          have listed : ∀ directory : Text, Handled (knownOutcome store config >>= fun folders =>
              demand (directory ∈ folders)
                (.valueError (directory ++ text " is not a snapshot folder of this panel")) >>=
                  fun _ => (.ok directory : Except PythonError Text)) ↔ ListHandled config store :=
            fun directory => handled_bind_iff.trans ((and_iff_left fun folders _ =>
              refused directory folders).trans handled_knownOutcome_iff)
          constructor
          · intro handled
            refine ⟨by simp, ?_⟩
            rintro path ⟨⟩ - noNul
            have normalizes := (handled_bind_iff.mp handled).2 () (if_pos (decide_eq_true noNul))
            rcases handled_bind_iff.mp normalizes with ⟨usable, later⟩
            exact ⟨usable, fun directory leads => (listed directory).mp (later directory leads)⟩
          · rintro ⟨-, each⟩
            refine handled_bind_iff.mpr ⟨handled_demand_iff.mpr fun _ => rfl, fun _ passed => ?_⟩
            have noNul : 0 ∉ first :: others := by
              by_contra nul
              rw [demand, decide_eq_false (not_not.mpr nul)] at passed
              cases passed
            rcases each _ rfl (List.cons_ne_nil _ _) noNul with ⟨usable, later⟩
            exact handled_bind_iff.mpr ⟨usable, fun directory leads =>
              (listed directory).mpr (later directory leads)⟩
  | _ => exact iff_of_true noPath ⟨by simp, nofun⟩

theorem quiet_known (config : Config) : WithoutEngine (known config) := by
  have loads : WithoutEngine load :=
    OnlyCalls.catching (OnlyCalls.raising_bind (PanelCall.onlyCalls_attempt rfl) fun _ =>
      onlyCalls_raising_pure) fun _ => onlyCalls_raising_pure
  refine OnlyCalls.raising_bind (quiet_normalize _) fun default => ?_
  refine OnlyCalls.raising_bind loads fun items => onlyCalls_foldlM fun folders item => ?_
  refine OnlyCalls.raising_bind (quiet_normalize _) fun folder => ?_
  split
  · exact onlyCalls_raising_pure
  · exact OnlyCalls.raising_bind (PanelCall.onlyCalls_attempt rfl) fun _ =>
      onlyCalls_raising_pure

theorem quiet_requireKnown (config : Config) (given : Json) :
    WithoutEngine (requireKnown config given) := by
  cases given with
  | null => exact quiet_normalize _
  | string path =>
      cases path with
      | nil => exact quiet_normalize _
      | cons first others =>
          refine OnlyCalls.raising_bind onlyCalls_raising_require fun _ => ?_
          refine OnlyCalls.raising_bind (quiet_normalize _) fun _ => ?_
          refine OnlyCalls.raising_bind (quiet_known config) fun _ => ?_
          exact OnlyCalls.raising_bind onlyCalls_raising_require fun _ => onlyCalls_raising_pure
  | _ => exact onlyCalls_raising_throw

/-- Under the session lock a body ends as it ends without. -/
theorem settles_withSessionLock_iff {α : Type} {body : Request α} :
    Settles world.Answers startsRestore (withSessionLock body) ↔
      Settles world.Answers startsRestore body := by
  rw [withSessionLock, bracket]
  refine (settles_ask_iff only_startsRestore (fun _ => trivial) rfl).trans ?_
  constructor
  · intro settles outcome trace ran
    let released : Event PanelInterface := ⟨.releaseSession, ()⟩
    have whole := settles () outcome (trace ++ [released]) (by
      rw [ExceptT.run_bind, Raising.observe, ExceptT.run_mk, bind_assoc]
      refine exec_bind.mpr ⟨outcome, trace, ran, (), _, ⟨trivial, rfl⟩, ?_⟩
      cases outcome <;> exact ⟨rfl, rfl⟩)
    rw [List.any_append] at whole
    exact whole.imp_left fun reached => (Bool.or_false _).symm.trans reached
  · rintro settles - outcome trace ran
    rw [ExceptT.run_bind, Raising.observe, ExceptT.run_mk, bind_assoc] at ran
    rcases exec_bind.mp ran with ⟨ended, middle, first, _, last, ⟨_, rfl⟩, thrown⟩
    have whole : outcome = ended ∧ trace = middle ++ [⟨.releaseSession, ()⟩] := by
      cases ended <;> exact ⟨thrown.1, thrown.2⟩
    rcases settles ended middle first with reached | ⟨raised, rfl, handled⟩
    · left
      rw [whole.2, List.any_append, reached, Bool.true_or]
    · exact .inr ⟨raised, whole.1, handled⟩

/-- The engine is spawned, or not found for a reason that has a handler. -/
theorem settles_spawn_iff {β : Type} {name directory notice source : Text} {level : Level}
    {rest : EngineProcess → Request β} :
    Settles world.Answers startsRestore (binary config >>= fun engine =>
        log notice level source >>= fun _ => spawnEngine config engine name directory >>= rest) ↔
      Handled (world.isFile config.engineBinary) := by
  refine settles_binary_iff only_startsRestore fun engine =>
    settles_of_endsIn endsIn_ask fun _ => ?_
  apply Reaches.settles
  apply Reaches.bind
  apply Reaches.catching
  exact reaches_attempt fun _ => rfl

/-- The engine is started, or not for a reason that has a handler. -/
theorem settles_startSession_iff (config : Config) (name directory : Text) :
    Settles world.Answers startsRestore (startSession config name directory) ↔
      Handled (world.isFile config.engineBinary) := by
  have refuses : ∀ current : Option RestoreSession, EndsIn (answering world.Answers)
      (refuseRunning current) (fun _ => True) (hasHandler · = true) := by
    intro current
    cases current with
    | none => exact endsIn_pure trivial
    | some session =>
        have polls : EndsIn (answering world.Answers) (running session) (fun _ => True)
            (hasHandler · = true) := endsIn_ask.bind fun _ _ => endsIn_pure trivial
        refine polls.bind fun stillRunning _ => ?_
        cases stillRunning with
        | true => exact endsIn_throw rfl
        | false => exact endsIn_pure trivial
  rw [startSession]
  refine (settles_ask_iff only_startsRestore (fun _ => trivial) rfl).trans ?_
  constructor
  · exact fun settles => settles_spawn_iff.mp (settles none)
  · exact fun handled current =>
      settles_of_endsIn (refuses current) fun _ => settles_spawn_iff.mpr handled

theorem handled_validateName (given : Json) : Handled (validateName given) := by
  intro raised failed
  cases given with
  | string name =>
      rw [validateName] at failed
      split at failed
      · cases failed
        rfl
      · split at failed
        · cases failed
          rfl
        · split at failed
          · cases failed
          · cases failed
  | _ =>
      cases failed
      rfl

/-- The file that a restore is about. -/
theorem settles_resolve_iff {β : Type} {folder n : Text} {rest : Text → Request β} :
    Settles world.Answers startsRestore (resolve folder (.string n) >>= rest) ↔
      Handled (world.store.tree.resolve folder) ∧ ∀ directory again,
        world.store.tree.resolve folder = .ok directory → validateName (.string n) = .ok again →
          Handled (world.store.tree.resolve (joinPath directory again)) ∧ ∀ path,
            world.store.tree.resolve (joinPath directory again) = .ok path →
              parentOf path = directory → Settles world.Answers startsRestore (rest path) := by
  have resolves : ∀ path, Yields (answering world.Answers)
      ((PanelCall.resolve path).attempt id : Request Text) (world.store.tree.resolve path) :=
    fun path => yields_answer _ (world.follows.resolve path)
  have inside : ∀ directory again : Text, Settles world.Answers startsRestore
      ((PanelCall.resolve (joinPath directory again)).attempt id >>= fun path =>
        require (parentOf path = directory) nameEscapes >>= fun _ => rest path) ↔
      Handled (world.store.tree.resolve (joinPath directory again)) ∧ ∀ path,
        world.store.tree.resolve (joinPath directory again) = .ok path →
          parentOf path = directory → Settles world.Answers startsRestore (rest path) :=
    fun directory again => (settles_attempt_iff only_startsRestore (resolves _) rfl).trans
      (and_congr_right fun _ => forall_congr' fun path => imp_congr_right fun _ =>
        (settles_require_iff rfl).trans (imp_congr decide_eq_true_iff Iff.rfl))
  rw [resolve]
  simp only [bind_assoc, pure_bind]
  refine (settles_attempt_iff only_startsRestore (resolves folder) rfl).trans
    (and_congr_right fun _ => ?_)
  constructor
  · intro each directory again leads named
    have behind := (settles_liftExcept_iff only_startsRestore).mp (each directory leads)
    exact (inside directory again).mp (behind.2 again named)
  · intro each directory leads
    refine (settles_liftExcept_iff only_startsRestore).mpr ⟨handled_validateName _, ?_⟩
    exact fun again named => (inside directory again).mpr (each directory again leads named)

theorem settles_restore_iff {name : Json} {folder : Text} :
    Settles world.Answers startsRestore (restore config name (some folder)) ↔
      ∀ n, validateName name = .ok n →
        Handled (world.store.tree.resolve folder) ∧ ∀ directory again,
          world.store.tree.resolve folder = .ok directory → validateName (.string n) = .ok again →
            Handled (world.store.tree.resolve (joinPath directory again)) ∧ ∀ path,
              world.store.tree.resolve (joinPath directory again) = .ok path →
                parentOf path = directory → FileHandled config world path := by
  rw [restore]
  refine (settles_liftExcept_iff only_startsRestore).trans ?_
  refine (and_iff_right (handled_validateName name)).trans ?_
  refine forall_congr' fun n => imp_congr_right fun _ => settles_resolve_iff.trans ?_
  refine and_congr_right fun _ => forall_congr' fun directory => forall_congr' fun again =>
    imp_congr_right fun _ => imp_congr_right fun _ => and_congr_right fun _ =>
      forall_congr' fun path => imp_congr_right fun _ => imp_congr_right fun _ => ?_
  have looks : Yields (answering world.Answers)
      ((PanelCall.isFile path).attempt id : Request Bool) (world.isFile path) :=
    yields_answer _ fun _ => Iff.rfl
  have starts : Settles world.Answers startsRestore
      (withSessionLock (startSession config n folder)) ↔
        Handled (world.isFile config.engineBinary) :=
    settles_withSessionLock_iff.trans (settles_startSession_iff config n folder)
  refine (settles_attempt_iff only_startsRestore looks rfl).trans (and_congr_right fun _ => ?_)
  constructor
  · intro each there
    exact starts.mp ((settles_require_iff rfl).mp (each true there) rfl)
  · intro handled present found
    refine (settles_require_iff rfl).mpr ?_
    rintro rfl
    exact starts.mpr (handled found)

theorem settles_readRestore_iff {payload : Json} :
    Settles world.Answers startsRestore (readRestore config payload >>= fun given =>
        restore config given.1 (some given.2)) ↔
      ∃ members, payload = .dict members ∧
        (truthy (valueOf "name" members) = true → RestoreHandled config world members) := by
  rw [readRestore]
  simp only [bind_assoc, pure_bind]
  refine (settles_liftExcept_iff only_startsRestore).trans ?_
  cases payload with
  | dict members =>
      have looks : Settles world.Answers startsRestore
          (requireKnown config (valueOf "directory" members) >>= fun folder =>
            restore config (valueOf "name" members) (some folder)) ↔
              RestoreHandled config world members := by
        refine (settles_bind_iff only_startsRestore (yields_requireKnown _)
          (quiet_requireKnown config _)).trans ?_
        rw [handled_folderOutcome_iff]
        constructor
        · rintro ⟨⟨default, folder⟩, later⟩
          exact ⟨default, folder, fun n folder named accepted =>
            settles_restore_iff.mp (later folder accepted) n named⟩
        · intro handled
          exact ⟨⟨handled.default, handled.folder⟩, fun folder accepted =>
            settles_restore_iff.mpr fun n named => handled.file n folder named accepted⟩
      constructor
      · rintro ⟨-, later⟩
        refine ⟨members, rfl, fun named => looks.mp ?_⟩
        have behind := (settles_require_iff rfl).mp (later _ rfl) named
        exact ((settles_liftExcept_iff only_startsRestore).mp behind).2 _ rfl
      · rintro ⟨_, ⟨⟩, handled⟩
        refine ⟨nofun, ?_⟩
        rintro name ⟨⟩
        refine (settles_require_iff rfl).mpr fun named => ?_
        refine (settles_liftExcept_iff only_startsRestore).mpr ⟨nofun, ?_⟩
        rintro directory ⟨⟩
        exact looks.mpr (handled named)
  | _ =>
      refine iff_of_false ?_ nofun
      rintro ⟨handled, -⟩
      exact Bool.noConfusion (handled .attributeError rfl)

/-- A restore's body is answered exactly if it is an object, with no name or with members that
can be handled. -/
theorem settles_postRestore_iff (config : Config) (settings : Settings) (body : Text) :
    Settles world.Answers startsRestore (postRestore config settings body) ↔
      ∃ members, payloadOf settings.depth body = .ok (.dict members) ∧
        (truthy (valueOf "name" members) = true → RestoreHandled config world members) := by
  refine (settles_payloadOf_iff only_startsRestore).trans ?_
  constructor
  · rintro ⟨payload, parsed, settles⟩
    rcases settles_readRestore_iff.mp settles with ⟨members, rfl, handled⟩
    exact ⟨members, parsed, handled⟩
  · rintro ⟨members, parsed, handled⟩
    exact ⟨_, parsed, settles_readRestore_iff.mpr ⟨members, rfl, handled⟩⟩

end Restore

/-! ## Exactly when -/

/-- With this body, both handlers start the engine or end in an exception that has a
handler. -/
def AnswersBody (config : Config) (settings : Settings) (world : PanelWorld) (body : Text) :
    Prop :=
  Settles world.Answers checksPid (postDump config settings body) ∧
    Settles world.Answers startsRestore (postRestore config settings body)

/-- A body is answered exactly if it is an object whose members can be handled: no infinite
pid, and no path, up to that of the engine itself, over which the system raises what has no
handler. -/
theorem answersBody_iff (config : Config) (settings : Settings) (world : PanelWorld)
    (body : Text) :
    AnswersBody config settings world body ↔
      ∃ members, payloadOf settings.depth body = .ok (.dict members) ∧
        DumpHandled config world settings.ownPid members ∧
          (truthy (valueOf "name" members) = true → RestoreHandled config world members) := by
  rw [AnswersBody, settles_postDump_iff, settles_postRestore_iff]
  constructor
  · rintro ⟨⟨members, parsed, dump⟩, ⟨others, again, restore⟩⟩
    rw [parsed] at again
    cases again
    exact ⟨members, parsed, dump, restore⟩
  · rintro ⟨members, parsed, dump, restore⟩
    exact ⟨⟨members, parsed, dump⟩, ⟨members, parsed, restore⟩⟩

def exampleSettings : Settings where
  depth := 900
  ownPid := 2
  checkTimeout := text "20"
  dumpTimeout := text "60"
  maxSnapshotMb := 512

/-- A world in which nothing is wrong with any path. -/
def plainWorld : PanelWorld where
  store := {
    tree := plainTree
    isDir := fun _ => .ok true
    content := utf8 (text "[]")
    depth := 900 }
  processIsDir := fun _ => .ok true
  isFile := fun _ => .ok true
  makeDirs := fun _ => .ok ()

/-- A number that is too large for a float. -/
theorem not_answersBody :
    ¬∀ config settings world body, AnswersBody config settings world body := by
  intro claimed
  have answers := claimed exampleConfig exampleSettings plainWorld (text "\x7b\"pid\": 1e400\x7d")
  rcases settles_postDump_iff exampleConfig exampleSettings _ |>.mp answers.1 with
    ⟨members, parsed, dump⟩
  have value : payloadOf exampleSettings.depth (text "\x7b\"pid\": 1e400\x7d") =
      .ok (.dict [(text "pid", .float (text "1e400"))]) := rfl
  rw [value] at parsed
  cases parsed
  exact dump.finite (by decide +kernel)

end Ksnap.Panel
