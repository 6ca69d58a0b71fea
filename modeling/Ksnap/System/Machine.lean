import Ksnap.Check.Sweep
import Ksnap.Dump.Image
import Ksnap.Panel.Arguments
import Ksnap.Panel.App
import Ksnap.Restore.Placement
import Ksnap.System.Commands

/-!
# Panel and engine on one machine

The panel runs the engine as a command, and both work on the same files and see the same
processes. Here a run that the panel asks for is a run of the engine's own `main` on the
arguments of the command, and what the panel reads afterwards is what the engine has written.
-/

namespace Ksnap

open Foundation Foundation.Program Raising Panel

/-- What stays as it is on the machine: where paths lead, and how the kernel shows processes. -/
structure Machine where
  /-- The files, where all paths that lead to one file are told from all others -/
  Place : Type
  leads : Bytes → Place
  doubled : ∀ rest, leads (47 :: 47 :: rest) = leads (47 :: rest)
  /-- The registry of the panel, and the files beside it that it is written to at first -/
  registry : Place
  temporary : ℕ → Place
  /-- A process while it is stopped, with the link to its executable -/
  shows : Int32 → Target → Bytes → Prop
  /-- All processes, while Check runs -/
  lists : ProcFs → Prop

/-- A SIGKILL that was sent. -/
def isKill : DumpEvent → Bool
  | ⟨.kill, true⟩ => true
  | _ => false

/-- A SIGKILL for the child of a restore. -/
def isChildKill : RestoreEvent → Bool
  | ⟨.kill, _⟩ => true
  | _ => false

/-- A child that was forked. -/
def isFork : RestoreEvent → Bool
  | ⟨.fork, true⟩ => true
  | _ => false

namespace Machine

variable (machine : Machine)

abbrev Files : Type := machine.Place → Option Bytes

/-- The files, the processes that an engine has killed, and the children that restores have forked,
each with the arguments of its engine. -/
structure Deeds where
  files : machine.Files
  killed : List Int32
  forked : List (List Bytes × Int32)

/-- All of this, and the engines that were started to stay, with their arguments. -/
structure State extends Deeds machine where
  started : List (EngineProcess × List Bytes)

/-- The registry is the panel's own, and so are the files beside it. -/
def Own (place : machine.Place) : Prop :=
  place = machine.registry ∨ ∃ number, place = machine.temporary number

variable {machine}

/-! ## Runs of the engine -/

/-- One file, of all of them, is now this. -/
structure Writes (before after : machine.Files) (place : machine.Place)
    (content : Option Bytes) : Prop where
  own : after place = content
  others : ∀ other, other ≠ place → after other = before other

/-- One file has taken the place of another. -/
structure Moves (before after : machine.Files) (source place : machine.Place) : Prop where
  own : after place = before source
  gone : source ≠ place → after source = none
  others : ∀ other, other ≠ source → other ≠ place → after other = before other

/-- A dump of a process. One that returns OK has had a process to dump. -/
def Dumps (pid : Int32) (config : DumpConfig) (before : machine.State) (code : ℤ)
    (after : machine.State) : Prop :=
  match buildSnapshotPath config.fileName config.outputDir with
  | none => code = exitFailure ∧ after = before
  | some path => ∃ memory rounds target link success trace file files,
      (dump config memory rounds).Exec (tracing (linkedWorld target link))
        ([], untouched (before.files (machine.leads path))) success (trace, file) ∧
      (success = true → machine.shows pid target link) ∧ code = exitCode success ∧
      Writes before.files files (machine.leads path) file.disk ∧
      after = { before with
        files := files
        killed := before.killed ++ List.replicate (trace.countP isKill) pid }

/-- The machine after these calls of a restore, which writes no file. -/
def State.restored (before : machine.State) (argv : List Bytes) (child : Int32)
    (trace : List RestoreEvent) : machine.State :=
  { before with
    killed := before.killed ++ List.replicate (trace.countP isChildKill) child
    forked := before.forked ++ List.replicate (trace.countP isFork) (argv, child) }

/-- A restore of the file at the path of the snapshot, if it can be opened. -/
def Restores (argv : List Bytes) (fileName outputDir : Option Bytes) (before : machine.State)
    (code : ℤ) (after : machine.State) : Prop :=
  match buildSnapshotPath fileName outputDir with
  | none => code = exitFailure ∧ after = before
  | some path => (code = exitFailure ∧ after = before) ∨
      ∃ faults file start child success trace met,
        before.files (machine.leads path) = some (RegularFile.bytes file) ∧ Forked start ∧
        (restorer faults file).Exec (tracing (childWorld file.bytes fun _ => True)) ([], start)
          success (trace, met) ∧
        code = exitCode success ∧ after = before.restored argv child trace

/-- A check, with the reports it prints. -/
def Checks (pid : Int32) (code : ℤ) (stdout : Bytes) : Prop :=
  ∃ proc reports, machine.lists proc ∧
    (CheckMode.check pid).Exec (procWorld proc) [] code reports ∧
    stdout = reports.flatMap printReport

/-- A run of `main` that comes to its end. -/
def MainRuns (argv : List Bytes) (before : machine.State) (completed : Completed Bytes)
    (after : machine.State) : Prop :=
  match main argv with
  | .exits code _ => completed.returncode = code ∧ after = before
  | .dumps pid config => Dumps pid config before completed.returncode after
  | .restores fileName outputDir =>
      Restores argv fileName outputDir before completed.returncode after
  | .checks pid => machine.Checks pid completed.returncode completed.stdout ∧ after = before

/-- A dump of a process at some moment of it, where it may be ended. -/
def DumpReaches (pid : Int32) (config : DumpConfig) (before after : machine.State) : Prop :=
  match buildSnapshotPath config.fileName config.outputDir with
  | none => after = before
  | some path => ∃ memory rounds target link trace file files,
      (dump config memory rounds).Reaches (tracing (linkedWorld target link))
        ([], untouched (before.files (machine.leads path))) (trace, file) ∧
      Writes before.files files (machine.leads path) file.disk ∧
      after = { before with
        files := files
        killed := before.killed ++ List.replicate (trace.countP isKill) pid }

/-- A restore at some moment of it. -/
def RestoreReaches (argv : List Bytes) (fileName outputDir : Option Bytes)
    (before after : machine.State) : Prop :=
  match buildSnapshotPath fileName outputDir with
  | none => after = before
  | some path => after = before ∨
      ∃ faults file start child trace met,
        before.files (machine.leads path) = some (RegularFile.bytes file) ∧ Forked start ∧
        (restorer faults file).Reaches (tracing (childWorld file.bytes fun _ => True)) ([], start)
          (trace, met) ∧
        after = before.restored argv child trace

/-- A run of `main` that does not come to its end. -/
def MainReaches (argv : List Bytes) (before after : machine.State) : Prop :=
  match main argv with
  | .dumps pid config => DumpReaches pid config before after
  | .restores fileName outputDir => RestoreReaches argv fileName outputDir before after
  | _ => after = before

/-- A command that the panel has run. The engine may be ended by a signal at any moment, and
`sudo` may refuse to start it. -/
inductive Runs (command : EngineCommand) (before : machine.State) (completed : Completed Bytes)
    (after : machine.State) : Prop
  | ended (argv : List Bytes) (passes : command.request.argv = some argv)
      (main : MainRuns argv before completed after)
  | signalled (argv : List Bytes) (passes : command.request.argv = some argv)
      (negative : completed.returncode < 0) (stopped : MainReaches argv before after)
  | refused (isSudo : command.usesSudo = true) (code : completed.returncode = 1)
      (same : after = before)

/-! ## The world of the panel -/

/-- The file that a path of the panel leads to. -/
def At (files : machine.Files) (path : Text) (content : Bytes) : Prop :=
  ∃ raw, fsEncode path = some raw ∧ files (machine.leads raw) = some content

/-- Both paths lead to one place, and so do they with the same names behind them. -/
def Alike (machine : Machine) (path other : Text) : Prop :=
  ∀ raw, fsEncode path = some raw → ∃ rawOther, fsEncode other = some rawOther ∧
    ∀ behind, behind = [] ∨ behind.head? = some 47 →
      machine.leads (raw ++ behind) = machine.leads (rawOther ++ behind)

/-- What is written of a list begins with a bracket. -/
def IsList (content : Bytes) : Prop :=
  content.head? = some 91

/-- What the calls on the registry do to the files: it is written to a new file beside it, which
then takes its place. A write that fails may leave anything there. -/
def RegistryStep (before : machine.Files) :
    (request : PanelCall) → request.Reply → machine.Files → Prop
  | .createTemporary, .ok number, after => before (machine.temporary number) = none ∧
      Writes before after (machine.temporary number) (some [])
  | .writeTemporary number _, .ok _, after => ∃ content, IsList content ∧
      Writes before after (machine.temporary number) (some content)
  | .writeTemporary number _, .error _, after => ∃ content,
      Writes before after (machine.temporary number) (some content)
  | .replaceRegistry number, .ok _, after =>
      Moves before after (machine.temporary number) machine.registry
  | _, _, after => after = before

/-- What a call of the panel does on the machine. -/
def Step (before : machine.State) : Event PanelInterface → machine.State → Prop
  | ⟨.run command, .ok completed⟩, after => Runs command before completed after
  | ⟨.run command, .error _⟩, after => after = before ∨
      ∃ argv, command.request.argv = some argv ∧ MainReaches argv before after
  | ⟨.popen command, .ok process⟩, after => ∃ argv, command.request.argv = some argv ∧
      after = { before with started := before.started ++ [(process, argv)] }
  | ⟨.unlink path, .ok _⟩, after => ∃ raw files, fsEncode path = some raw ∧
      Writes before.files files (machine.leads raw) none ∧ after = { before with files := files }
  | ⟨.createTemporary, reply⟩, after => ∃ files,
      RegistryStep before.files .createTemporary reply files ∧
      after = { before with files := files }
  | ⟨.writeTemporary number stored, reply⟩, after => ∃ files,
      RegistryStep before.files (.writeTemporary number stored) reply files ∧
      after = { before with files := files }
  | ⟨.replaceRegistry number, reply⟩, after => ∃ files,
      RegistryStep before.files (.replaceRegistry number) reply files ∧
      after = { before with files := files }
  | ⟨.readHead path size, .ok head⟩, after => after = before ∧
      ∃ content, At before.files path content ∧ head = content.take size
  | ⟨.stat path, .ok stat⟩, after => after = before ∧
      ∃ content, At before.files path content ∧ stat.size = content.length
  | ⟨.expandUser path, .ok expanded⟩, after => after = before ∧
      (path.head? = some 47 → expanded = path)
  | ⟨.resolve path, .ok resolved⟩, after => after = before ∧ machine.Alike path resolved ∧
      resolved.head? = some 47
  | _, after => after = before

/-- The machine, as the world of a request. -/
abbrev world (machine : Machine) : Environment PanelInterface where
  State := machine.State
  step := fun before request reply after => Step before ⟨request, reply⟩ after

/-! ## Requests that only look -/

/-- A call that leaves the machine as it is, and the session with its process too. -/
def Bystander : PanelCall → Prop
  | .run command => ∃ pid, command.request = .check pid
  | .popen _ | .unlink _ | .writeSession _ | .signalGroup _ _ => False
  | .createTemporary | .writeTemporary _ _ | .replaceRegistry _ => False
  | _ => True

/-- A call that changes nothing but the panel's own files. -/
def Modest : PanelCall → Prop
  | .createTemporary | .writeTemporary _ _ | .replaceRegistry _ => True
  | request => Bystander request

theorem modest_of_bystander {request : PanelCall} (bystander : Bystander request) :
    Modest request := by
  cases request with
  | createTemporary | writeTemporary | replaceRegistry => trivial
  | _ => exact bystander

/-- The calls on the registry change the panel's own files only. -/
theorem same_of_registryStep {before after : machine.Files} {request : PanelCall}
    {reply : request.Reply} (step : RegistryStep before request reply after)
    {place : machine.Place} (others : ¬machine.Own place) : after place = before place := by
  have notRegistry : place ≠ machine.registry := fun same => others (.inl same)
  have notTemporary : ∀ number, place ≠ machine.temporary number :=
    fun number same => others (.inr ⟨number, same⟩)
  cases request with
  | createTemporary =>
      cases reply with
      | ok number => exact step.2.others place (notTemporary number)
      | error raised => exact congrFun step place
  | writeTemporary number stored =>
      cases reply with
      | ok done =>
          rcases step with ⟨content, -, writes⟩
          exact writes.others place (notTemporary number)
      | error raised =>
          rcases step with ⟨content, writes⟩
          exact writes.others place (notTemporary number)
  | replaceRegistry number =>
      cases reply with
      | ok done => exact step.others place (notTemporary number) notRegistry
      | error raised => exact congrFun step place
  | _ => exact congrFun step place

/-- The engine does nothing but look when it is asked for a check. -/
theorem job_of_check {pid : Option ℤ} {argv : List Bytes}
    (passes : (EngineRequest.check pid).argv = some argv) :
    (∃ number, main argv = .checks number) ∨ Refuses (main argv) := by
  rcases settles_request passes with ⟨-, means⟩ | ⟨-, refuses⟩
  · cases pid with
    | none => exact .inl ⟨-1, means⟩
    | some pid =>
        rcases means with ⟨number, -, job⟩
        exact .inl ⟨number, job⟩
  · exact .inr refuses

theorem same_of_check {command : EngineCommand} {pid : Option ℤ}
    (isCheck : command.request = .check pid) {argv : List Bytes}
    (passes : command.request.argv = some argv) {before after : machine.State} :
    (∀ completed, MainRuns argv before completed after → after = before) ∧
      (MainReaches argv before after → after = before) := by
  rw [isCheck] at passes
  rcases job_of_check passes with ⟨number, job⟩ | ⟨failure, -, job⟩
  · constructor
    · intro completed main
      rw [MainRuns, job] at main
      exact main.2
    · intro stopped
      rw [MainReaches, job] at stopped
      exact stopped
  · constructor
    · intro completed main
      rw [MainRuns, job] at main
      exact main.2
    · intro stopped
      rw [MainReaches, job] at stopped
      exact stopped

theorem same_of_bystander {before after : machine.State} {request : PanelCall}
    {reply : request.Reply} (bystander : Bystander request)
    (step : Step before ⟨request, reply⟩ after) : after = before := by
  cases request with
  | popen | unlink | writeSession | signalGroup => exact bystander.elim
  | createTemporary | writeTemporary | replaceRegistry => exact bystander.elim
  | run command =>
      rcases bystander with ⟨pid, isCheck⟩
      cases reply with
      | ok completed =>
          cases step with
          | ended argv passes main => exact (same_of_check isCheck passes).1 completed main
          | signalled argv passes negative stopped => exact (same_of_check isCheck passes).2 stopped
          | refused isSudo code same => exact same
      | error raised =>
          rcases step with same | ⟨argv, passes, stopped⟩
          · exact same
          · exact (same_of_check isCheck passes).2 stopped
  | readHead path size =>
      cases reply with
      | ok head => exact step.1
      | error raised => exact step
  | stat path =>
      cases reply with
      | ok stat => exact step.1
      | error raised => exact step
  | expandUser path =>
      cases reply with
      | ok expanded => exact step.1
      | error raised => exact step
  | resolve path =>
      cases reply with
      | ok resolved => exact step.1
      | error raised => exact step
  | _ => exact step

theorem ensures_bystander {α : Type} {body : Request α}
    (only : body.run.OnlyCalls Bystander) (state : machine.State) :
    body.run.Ensures machine.world (fun _ => True) (fun _ after => after = state) state := by
  have keeps : ∀ (before : machine.world.State) (request : PanelCall) (reply : request.Reply)
      (after : machine.world.State), Bystander request → before = state →
      machine.world.step before request reply after → after = state := by
    rintro before request reply after bystander rfl step
    exact same_of_bystander bystander step
  have kept : body.run.Ensures machine.world (fun met => met = state)
      (fun _ after => after = state) state := only.ensures keeps rfl
  exact kept.weaken fun _ _ => trivial

section Looks

variable {config : Config}

/-- A request that leaves the machine as it is. -/
abbrev Looking {α : Type} (body : Request α) : Prop := body.run.OnlyCalls Bystander

theorem looking_attempt {α : Type} {request : PanelCall}
    {value : request.Reply → Except PythonError α} (bystander : Bystander request) :
    Looking (request.attempt value) := PanelCall.onlyCalls_attempt bystander

theorem looking_log (message : Text) (level : Level) (source : Text) :
    Looking (log message level source) := onlyCalls_log trivial

theorem looking_normalize (path : Text) : Looking (normalize path) :=
  OnlyCalls.raising_bind (looking_attempt trivial) fun _ => looking_attempt trivial

theorem looking_load : Looking load :=
  OnlyCalls.catching
    (OnlyCalls.raising_bind (looking_attempt trivial) fun _ => onlyCalls_raising_pure)
    fun _ => onlyCalls_raising_pure

theorem looking_known : Looking (known config) := by
  refine OnlyCalls.raising_bind (looking_normalize _) fun default => ?_
  refine OnlyCalls.raising_bind looking_load fun items => onlyCalls_foldlM fun folders item => ?_
  refine OnlyCalls.raising_bind (looking_normalize _) fun folder => ?_
  split
  · exact onlyCalls_raising_pure
  · exact OnlyCalls.raising_bind (looking_attempt trivial) fun _ => onlyCalls_raising_pure

theorem looking_binary : Looking (binary config) :=
  onlyCalls_binary (fun _ => trivial) fun _ => trivial

theorem looking_folder (directory : Option Text) :
    Looking (directory.elim (snapshotDir config) pure) := by
  cases directory with
  | none => exact OnlyCalls.raising_bind (looking_attempt trivial) fun _ => onlyCalls_raising_pure
  | some directory => exact onlyCalls_raising_pure

theorem looking_validateFolder (given : Text) : Looking (validateFolder given) := by
  refine OnlyCalls.raising_bind onlyCalls_raising_require fun _ => ?_
  refine OnlyCalls.raising_bind onlyCalls_raising_require fun _ => ?_
  refine OnlyCalls.raising_bind (looking_attempt trivial) fun expanded => ?_
  refine OnlyCalls.raising_bind onlyCalls_raising_require fun _ => ?_
  refine OnlyCalls.raising_bind (looking_normalize _) fun directory => ?_
  refine OnlyCalls.raising_bind onlyCalls_raising_require fun _ => ?_
  refine OnlyCalls.raising_bind
    (OnlyCalls.catching (looking_attempt trivial) fun _ => onlyCalls_raising_throw) fun _ => ?_
  refine OnlyCalls.raising_bind (looking_attempt trivial) fun present => ?_
  exact OnlyCalls.raising_bind onlyCalls_raising_require fun _ => onlyCalls_raising_pure

theorem looking_dumpFolder (folder : Option Json) : Looking (dumpFolder folder) := by
  cases folder with
  | none => exact onlyCalls_raising_pure
  | some folder =>
      refine OnlyCalls.raising_bind ?_ fun _ => onlyCalls_raising_pure
      cases folder with
      | string given => exact looking_validateFolder given
      | _ => exact onlyCalls_raising_throw

end Looks

/-- What holds where a request succeeds. -/
def Succeeds {α : Type} (holds : α → machine.State → Prop) :
    Except PythonError α → machine.State → Prop
  | .ok value, after => holds value after
  | .error _, _ => True

section Rules

variable {α β : Type} {state : machine.State} {holds : α → machine.State → Prop}
  {goal : β → machine.State → Prop}

/-- The rule for a step in front of the rest, when only the success of both matters. -/
theorem succeeds_bind {body : Request α} {rest : α → Request β}
    (first : body.run.Ensures machine.world (fun _ => True) (Succeeds holds) state)
    (second : ∀ value middle, holds value middle →
      (rest value).run.Ensures machine.world (fun _ => True) (Succeeds goal) middle) :
    (body >>= rest).run.Ensures machine.world (fun _ => True) (Succeeds goal) state := by
  rw [ensures_raising_bind]
  refine first.mono ?_
  intro outcome middle held
  cases outcome with
  | ok value => exact second value middle held
  | error raised => trivial

/-- A step that only looks leaves the rest where it was. -/
theorem succeeds_look {body : Request α} {rest : α → Request β}
    (only : body.run.OnlyCalls Bystander)
    (passes : ∀ value,
      (rest value).run.Ensures machine.world (fun _ => True) (Succeeds goal) state) :
    (body >>= rest).run.Ensures machine.world (fun _ => True) (Succeeds goal) state := by
  rw [ensures_raising_bind]
  refine (ensures_bystander only state).mono ?_
  rintro outcome _ rfl
  cases outcome with
  | ok value => exact passes value
  | error raised => trivial

theorem succeeds_lift {plain : Except PythonError α} {rest : α → Request β}
    (passes : ∀ value, plain = .ok value →
      (rest value).run.Ensures machine.world (fun _ => True) (Succeeds goal) state) :
    (liftExcept plain >>= rest).run.Ensures machine.world (fun _ => True) (Succeeds goal)
      state := by
  rw [ensures_raising_bind, ensures_liftExcept]
  cases plain with
  | ok value => exact passes value rfl
  | error raised => trivial

theorem succeeds_require {condition : Bool} {raised : PythonError}
    {rest : Unit → Request β}
    (passes : condition = true →
      (rest ()).run.Ensures machine.world (fun _ => True) (Succeeds goal) state) :
    (Raising.require condition raised >>= rest).run.Ensures machine.world (fun _ => True)
      (Succeeds goal) state := by
  cases condition with
  | true => exact passes rfl
  | false => trivial

/-- A call that may raise, with what it means that it did not. -/
theorem succeeds_attempt {request : PanelCall}
    {value : request.Reply → Except PythonError α} {rest : α → Request β}
    (passes : ∀ reply result after, Step state ⟨request, reply⟩ after → value reply = .ok result →
      (rest result).run.Ensures machine.world (fun _ => True) (Succeeds goal) after) :
    (request.attempt value >>= rest).run.Ensures machine.world (fun _ => True) (Succeeds goal)
      state := by
  rw [ensures_raising_bind]
  intro reply after step
  refine ⟨trivial, ?_⟩
  dsimp only
  cases returned : value reply with
  | ok result => exact passes reply result after step returned
  | error raised => trivial

/-- A handler that raises again adds no success. -/
theorem succeeds_catching {body : Request α} {selected : PythonError → Bool}
    {handler : PythonError → Request α}
    (first : body.run.Ensures machine.world (fun _ => True) (Succeeds holds) state)
    (raises : ∀ raised, ∃ other, handler raised = throw other) :
    (catching body selected handler).run.Ensures machine.world (fun _ => True) (Succeeds holds)
      state := by
  rw [ensures_catching]
  refine first.mono ?_
  intro outcome after held
  cases outcome with
  | ok value => exact held
  | error raised =>
      dsimp only
      split
      · rcases raises raised with ⟨other, isThrow⟩
        rw [isThrow]
        trivial
      · trivial

end Rules

/-- A command that the panel ran to its end. -/
theorem succeeds_runEngine (command : EngineCommand) (timedOut : Text) (state : machine.State) :
    (runEngine command timedOut).run.Ensures machine.world (fun _ => True)
      (Succeeds fun completed after => ∃ raw : Completed Bytes,
        raw.returncode = completed.returncode ∧ decodeOutput raw.stdout = .ok completed.stdout ∧
          decodeOutput raw.stderr = .ok completed.stderr ∧
            Runs command state raw after) state := by
  apply succeeds_catching
  · refine succeeds_attempt fun reply raw after step isRaw => ?_
    cases reply with
    | error raised => cases isRaw
    | ok found =>
        cases isRaw
        refine succeeds_lift fun stdout isStdout => ?_
        refine succeeds_lift fun stderr isStderr => ?_
        exact ⟨raw, rfl, isStdout, isStderr, step⟩
  · intro raised
    by_cases timed : raised = .timeoutExpired
    · exact ⟨_, if_pos timed⟩
    · exact ⟨_, if_neg timed⟩

/-! ## Saving the registry -/

/-- What a saving of the registry leaves of a file with this content: the same, or a list where that
file is the registry. Nothing else has changed but the panel's own files. -/
structure Saves (place : machine.Place) (content : Bytes) (before after : machine.State) :
    Prop where
  kept : after.files place = some content ∨ ∃ list, after.files place = some list ∧ IsList list
  others : ∀ other, ¬machine.Own other → after.files other = before.files other
  same : after = { before with files := after.files }

section Saving

variable {place : machine.Place} {content : Bytes} {state : machine.State}

theorem saves_refl (here : state.files place = some content) :
    Saves place content state state where
  kept := .inl here
  others := fun _ _ => rfl
  same := rfl

/-- The files are those that the calls so far have left. -/
theorem saves_files {files : machine.Files} (kept : files place = some content)
    (others : ∀ other, ¬machine.Own other → files other = state.files other) :
    Saves place content state { state with files := files } where
  kept := .inl kept
  others := others
  same := rfl

/-- A call in front of the rest, whether it raises or not. -/
theorem ensures_attempt_step {α β : Type} {request : PanelCall}
    {value : request.Reply → Except PythonError α} {rest : α → Request β}
    {post : Except PythonError β → machine.State → Prop}
    (each : ∀ reply after, Step state ⟨request, reply⟩ after →
      match value reply with
      | .ok result => (rest result).run.Ensures machine.world (fun _ => True) post after
      | .error raised => post (.error raised) after) :
    (request.attempt value >>= rest).run.Ensures machine.world (fun _ => True) post state := by
  rw [ensures_raising_bind]
  intro reply after step
  refine ⟨trivial, ?_⟩
  have passed := each reply after step
  dsimp only
  cases returned : value reply with
  | ok result =>
      rw [returned] at passed
      exact passed
  | error raised =>
      rw [returned] at passed
      exact passed

/-- The new file is none that there was, and where the registry is replaced, it is by a list. -/
theorem ensures_writeRegistry (here : state.files place = some content) (stored : List Text) :
    (do
      PanelCall.makeRegistryFolder.attempt id
      let number ← PanelCall.createTemporary.attempt id
      (PanelCall.writeTemporary number stored).attempt id
      (PanelCall.replaceRegistry number).attempt id
      return true : Request Bool).run.Ensures machine.world (fun _ => True)
        (fun _ after => Saves place content state after) state := by
  refine ensures_attempt_step fun reply after step => ?_
  obtain rfl : state = after := Eq.symm step
  cases reply with
  | error raised => exact saves_refl here
  | ok done =>
    refine ensures_attempt_step ?_
    rintro reply _ ⟨created, step, rfl⟩
    have othersCreated := fun other => @same_of_registryStep _ _ _ _ _ step other
    cases reply with
    | error raised =>
        obtain rfl : created = state.files := step
        exact saves_refl here
    | ok number =>
      rcases step with ⟨isNew, creates⟩
      have other : place ≠ machine.temporary number := by
        rintro rfl
        exact Option.some_ne_none _ (here.symm.trans isNew)
      have hereCreated : created place = some content := (creates.others place other).trans here
      refine ensures_attempt_step ?_
      rintro reply _ ⟨written, step, rfl⟩
      have othersWritten := fun other own =>
        (@same_of_registryStep _ _ _ _ _ step other own).trans (othersCreated other own)
      cases reply with
      | error raised =>
          rcases step with ⟨left, writes⟩
          exact saves_files ((writes.others place other).trans hereCreated) othersWritten
      | ok done =>
        rcases step with ⟨list, isList, writes⟩
        have hereWritten : written place = some content :=
          (writes.others place other).trans hereCreated
        refine ensures_attempt_step ?_
        rintro reply _ ⟨files, step, rfl⟩
        have othersMoved := fun other own =>
          (@same_of_registryStep _ _ _ _ _ step other own).trans (othersWritten other own)
        cases reply with
        | error raised =>
            obtain rfl : files = written := step
            exact saves_files hereWritten othersWritten
        | ok done =>
            refine ⟨?_, othersMoved, rfl⟩
            by_cases own : place = machine.registry
            · right
              exact ⟨list, own ▸ step.own.trans writes.own, isList⟩
            · left
              exact (step.others place other own).trans hereWritten

theorem succeeds_remember {config : Config} (here : state.files place = some content)
    (directory : Text) :
    (remember config directory).run.Ensures machine.world (fun _ => True)
      (Succeeds fun _ after => Saves place content state after) state := by
  refine succeeds_look (looking_normalize _) fun resolved => ?_
  refine succeeds_look looking_known fun folders => ?_
  split
  · exact saves_refl here
  · refine succeeds_look looking_load fun stored => ?_
    rw [saveRegistry, ensures_catching]
    refine (ensures_writeRegistry here _).mono fun outcome after saves => ?_
    cases outcome with
    | ok value => exact saves
    | error raised =>
        dsimp only
        split
        · exact saves
        · trivial

end Saving

/-! ## Requests that only save -/

theorem modest_attempt {α : Type} {request : PanelCall}
    {value : request.Reply → Except PythonError α} (modest : Modest request) :
    (request.attempt value).run.OnlyCalls Modest :=
  PanelCall.onlyCalls_attempt modest

theorem modest_of_looking {α : Type} {body : Request α} (looking : Looking body) :
    body.run.OnlyCalls Modest :=
  looking.mono fun _ => modest_of_bystander

theorem modest_saveRegistry (stored : List Text) :
    (saveRegistry stored).run.OnlyCalls Modest := by
  refine OnlyCalls.catching ?_ fun _ => onlyCalls_raising_pure
  refine OnlyCalls.raising_bind (modest_attempt trivial) fun _ => ?_
  refine OnlyCalls.raising_bind (modest_attempt trivial) fun temporary => ?_
  refine OnlyCalls.raising_bind (modest_attempt trivial) fun _ => ?_
  exact OnlyCalls.raising_bind (modest_attempt trivial) fun _ => onlyCalls_raising_pure

theorem modest_remember {config : Config} (directory : Text) :
    (remember config directory).run.OnlyCalls Modest := by
  refine OnlyCalls.raising_bind (modest_of_looking (looking_normalize _)) fun resolved => ?_
  refine OnlyCalls.raising_bind (modest_of_looking looking_known) fun folders => ?_
  split
  · exact onlyCalls_raising_pure
  · exact OnlyCalls.raising_bind (modest_of_looking looking_load)
      fun stored => modest_saveRegistry _

end Machine

end Ksnap
