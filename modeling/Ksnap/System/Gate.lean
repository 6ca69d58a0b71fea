import Ksnap.Panel.Bodies
import Ksnap.Panel.LostArguments
import Ksnap.Panel.Reports
import Ksnap.System.Dumping

/-!
# The gate in front of a dump

Before a dump the panel has the engine check the process, and goes on only if the report that
comes back has no reasons. Between the two stand the engine's printing and the panel's reading,
so what opens the gate is what the engine found.
-/

namespace Ksnap

open Foundation Foundation.Program Raising Panel

section Reading

variable {machine : Machine} {state : machine.State}

/-! ## Reading the reports -/

theorem succeeds_readLine (depth : ℕ) (reports : List (ℤ × Json)) (line : Text) :
    (readLine depth reports line).run.Ensures machine.world (fun _ => True)
      (Machine.Succeeds fun more after => after = state ∧
        gatherLine depth reports line = .ok more) state := by
  rw [readLine, gatherLine]
  dsimp only
  split
  · exact ⟨rfl, rfl⟩
  · rw [ensures_catching, ensures_raising_bind, ensures_liftExcept]
    cases readReport depth (strip line) with
    | ok entry => exact ⟨rfl, rfl⟩
    | error raised =>
        dsimp only
        split
        · refine Machine.succeeds_look (Machine.looking_log _ _ _) fun _ => ⟨rfl, rfl⟩
        · trivial

theorem succeeds_readLines (depth : ℕ) (lines : List Text) (reports : List (ℤ × Json)) :
    (lines.foldlM (readLine depth) reports).run.Ensures machine.world (fun _ => True)
      (Machine.Succeeds fun more after => after = state ∧
        lines.foldlM (gatherLine depth) reports = .ok more) state := by
  induction lines generalizing reports with
  | nil => exact ⟨rfl, rfl⟩
  | cons line lines ih =>
      rw [List.foldlM_cons, List.foldlM_cons]
      refine Machine.succeeds_bind (succeeds_readLine depth reports line) ?_
      rintro more _ ⟨rfl, gathered⟩
      rw [gathered]
      exact ih more

end Reading

/-! ## A check through the panel -/

/-- The panel's check came back with these reports, out of a run of the engine's check. -/
structure Machine.Found (machine : Machine) (depth : ℕ) (number : Int32)
    (found : List (ℤ × Json)) (proc : ProcFs) (completed : Completed Bytes)
    (reports : List CheckReport) : Prop where
  lists : machine.lists proc
  ends : CheckEnds proc number completed.returncode reports
  printed : Printed completed reports
  outcome : checkOutcome depth completed = .ok found

section Check

variable {machine : Machine} {config : Config} {state : machine.State}

/-- The number that stands for a pid, or for all processes. -/
def Names (pid : Option ℤ) (number : Int32) : Prop :=
  match pid with
  | some pid => number.toInt = pid ∧ 0 ≤ pid
  | none => number = -1

theorem checks_of_runs {engine : Text} {pid : Option ℤ} {before after : machine.State}
    {completed : Completed Bytes}
    (runs : Machine.Runs (command config engine (.check pid)) before completed after)
    (answered : completed.returncode = 0 ∨ completed.returncode = Panel.checkExitBlocked) :
    after = before ∧ ∃ number, Names pid number ∧
      machine.Checks number completed.returncode completed.stdout := by
  rw [Panel.checkExitBlocked] at answered
  cases runs with
  | ended argv passes main =>
      rw [Machine.MainRuns] at main
      rcases settles_request passes with ⟨taken, means⟩ | ⟨-, failure, -, job⟩
      · cases pid with
        | none =>
            have job : _ = Job.checks (-1) := means
            rw [job] at main
            exact ⟨main.2, -1, rfl, main.1⟩
        | some pid =>
            rcases means with ⟨number, isPid, job⟩
            rw [job] at main
            exact ⟨main.2, number, ⟨isPid, taken.1⟩, main.1⟩
      · rw [job] at main
        have failed : completed.returncode = 1 := main.1
        omega
  | signalled argv passes negative stopped => omega
  | refused isSudo one same => omega

/-- What the panel reads is what the engine printed. -/
theorem succeeds_check (depth : ℕ) (timeout : Text) (pid : Option ℤ) :
    (Panel.check config depth timeout pid).run.Ensures machine.world (fun _ => True)
      (Machine.Succeeds fun found after => after = state ∧ ∃ number proc completed reports,
        Names pid number ∧ machine.Found depth number found proc completed reports) state := by
  rw [Panel.check]
  refine Machine.succeeds_look Machine.looking_binary fun engine => ?_
  refine Machine.succeeds_bind (Machine.succeeds_runEngine _ _ state) ?_
  rintro completed ended ⟨raw, code, isStdout, isStderr, runs⟩
  rw [refuseUnanswered]
  by_cases answered : completed.returncode = 0 ∨ completed.returncode = Panel.checkExitBlocked
  · rw [if_pos answered, pure_bind]
    rw [← code] at answered
    rcases checks_of_runs runs answered with ⟨same, number, names, proc, reports, lists, run,
      printed⟩
    rw [same]
    refine (succeeds_readLines depth (splitlines completed.stdout) []).mono ?_
    intro outcome after held
    cases outcome with
    | error raised => trivial
    | ok found =>
        rcases held with ⟨isSame, gathered⟩
        have outcome : checkOutcome depth raw = .ok found := by
          rw [checkOutcome, isStdout, isStderr]
          exact gathered
        rcases checkOutcome_eq_ok outcome with ⟨_, errors, _, isErrors⟩
        refine ⟨isSame, number, proc, raw, reports, names, lists, ?_, ⟨answered, printed, errors,
          isErrors⟩, outcome⟩
        exact (finishes_check proc number).exec run
  · rw [if_neg answered, bind_assoc]
    exact Machine.succeeds_look (Machine.looking_log _ _ _) fun _ => trivial

end Check

/-! ## The gate -/

section Opens

variable {depth : ℕ} {completed : Completed Bytes} {report : CheckReport}
  {found : List (ℤ × Json)}

/-- What the panel finds of one report is that report or nothing. -/
theorem found_cases (room : 3 ≤ depth) (wellFormed : WellFormed report)
    (printed : Printed completed [report])
    (outcome : checkOutcome depth completed = .ok found) :
    found = [] ∨ found = [reportEntry report] := by
  rcases checkOutcome_eq_ok outcome with ⟨stdout, errors, decoded, isErrors⟩
  have whole := outcome
  rw [checkOutcome_eq decoded isErrors] at outcome
  have small : ∀ other ∈ [report], other.state.toNat < 0x80 := by
    rw [printed.stdout] at decoded
    exact small_of_decodeStrict decoded
  have output := decodeStrict_output (List.forall_mem_singleton.mpr wellFormed) small
  rw [← printed.stdout, decoded, Option.some.injEq] at output
  rcases gather_cases depth (readerLines stdout) [] with ⟨_, error, failed⟩ |
    ⟨_, more, gathered, others⟩
  · rw [outcome] at failed
    cases failed
  · rw [outcome] at gathered
    cases gathered
    cases found with
    | nil => exact .inl rfl
    | cons entry rest =>
        right
        have isEntry : ∃ json, (entry.1, json) ∈ entry :: rest := ⟨entry.2, List.mem_cons_self⟩
        rcases (others entry.1).mp isEntry with ⟨line, isLine, readAs⟩ | ⟨json, impossible⟩
        · rw [output, readerLines_output, List.flatMap_singleton] at isLine
          have keeps := (keepsLine_of_readAs room wellFormed
            (small report (List.mem_singleton_self report)) isLine readAs).1
          have lists : ListsAll exampleConfig depth [] none completed [report] :=
            listsAll_of_keepsLine room printed (List.forall_mem_singleton.mpr wellFormed)
              (List.nodup_singleton _) (List.forall_mem_singleton.mpr keeps)
          rw [listsAll_iff_outcome printed, whole] at lists
          exact Except.ok.inj lists
        · exact absurd impossible List.not_mem_nil

/-- The gate opens for a report without reasons only. -/
theorem reasons_of_gate (room : 3 ≤ depth) (wellFormed : WellFormed report)
    (printed : Printed completed [report])
    (outcome : checkOutcome depth completed = .ok found) {maxSnapshotMb : ℤ} {verdict : Verdict}
    (opens : gate maxSnapshotMb report.pid.toInt found = .ok verdict) : report.reasons = [] := by
  rcases found_cases room wellFormed printed outcome with rfl | rfl
  · have closed : gate maxSnapshotMb report.pid.toInt [] ≠ .ok verdict := by
      intro opened
      have judged : verdictFromReport maxSnapshotMb (([] : List (ℤ × Json)).lookup
          report.pid.toInt |>.getD .null) =
            .ok (unavailable (text "the engine did not report on this process")) := rfl
      exact ((gate_of_verdict judged).mp ⟨verdict, opened⟩).2 rfl
    exact absurd opens closed
  · have isPrinted : PrintedFor report.pid.toInt (.ok [reportEntry report]) := by
      intro reports same json looked
      cases same
      rw [reportEntry, List.lookup_cons_self, Option.some.injEq] at looked
      exact ⟨printedReport report, by rw [← looked, json_printedReport]⟩
    rcases (gate_iff isPrinted).mp ⟨verdict, opens⟩ with ⟨reports, same, other, looked, accepted⟩
    cases same
    rw [reportEntry, List.lookup_cons_self, Option.some.injEq, ← json_printedReport] at looked
    have notRefused : ¬(printedReport report).Refused := by
      rw [refused_iff_of_json looked]
      exact (not_refused_iff other).mpr accepted
    exact List.map_eq_nil_iff.mp ((not_refused_iff _).mp notRefused).2

end Opens

/-! ## Requests -/

/-- The names that the kernel shows are UTF-8. -/
def Machine.ShowsText (machine : Machine) : Prop :=
  ∀ proc, machine.lists proc → ∀ number probe, WellFormed (checkOne (proc.process number) probe)

/-- The engine's check, with its probe, has found nothing against the process. -/
def Machine.FoundClean (machine : Machine) (pid : ℤ) : Prop :=
  ∃ (number : Int32) (proc : ProcFs), number.toInt = pid ∧ machine.lists proc ∧
    (checkOne (proc.process number) true).reasons = []

section Requests

variable {machine : Machine} {config : Config} {state : machine.State}

/-- Behind the gate is a process that Check has found nothing against. -/
theorem succeeds_requireDumpable (depth : ℕ) (timeout : Text) (maxSnapshotMb pid : ℤ) :
    (requireDumpable config depth timeout maxSnapshotMb pid).run.Ensures machine.world
      (fun _ => True) (Machine.Succeeds fun _ after => after = state ∧
        (3 ≤ depth → machine.ShowsText → machine.FoundClean pid)) state := by
  rw [requireDumpable_eq]
  refine Machine.succeeds_bind (succeeds_check depth timeout (some pid)) ?_
  rintro found after ⟨same, number, proc, completed, reports, ⟨isPid, positive⟩, isFound⟩
  rw [same]
  cases opens : gate maxSnapshotMb pid found with
  | error raised => trivial
  | ok verdict =>
      have notAll : number ≠ -1 := by
        rintro rfl
        rw [← isPid] at positive
        exact absurd positive (by decide)
      have ends := isFound.ends
      rw [CheckEnds, if_neg notAll] at ends
      have printed := isFound.printed
      rw [ends.2] at printed
      have own : (checkOne (proc.process number) true).pid.toInt = pid := by
        rw [pid_checkOne, proc.pid_eq, isPid]
      rw [← own] at opens
      refine ⟨rfl, fun room texts => ⟨number, proc, isPid, isFound.lists, ?_⟩⟩
      exact reasons_of_gate room (texts proc isFound.lists number true) printed isFound.outcome
        opens

theorem succeeds_validatePid (ownPid : ℤ) (value : Json) :
    (Panel.validatePid ownPid value).run.Ensures machine.world (fun _ => True)
      (Machine.Succeeds fun pid after => after = state ∧ pidOf value = .ok pid ∧ 1 < pid ∧
        pid ≠ ownPid) state := by
  rw [Panel.validatePid]
  refine Machine.succeeds_lift fun pid isPid => ?_
  refine Machine.succeeds_require fun large => ?_
  refine Machine.succeeds_require fun notOwn => ?_
  refine Machine.succeeds_look (Machine.looking_attempt trivial) fun present => ?_
  refine Machine.succeeds_require fun _ => ?_
  exact ⟨rfl, isPid, of_decide_eq_true large, of_decide_eq_true notOwn⟩

/-- What the body of a dump request asks for. -/
structure Orders (settings : Settings) (payload : Json) (order : DumpOrder) : Prop where
  pid : ∃ given, field "pid" .null payload = .ok given ∧ pidOf given = .ok order.pid
  large : 1 < order.pid
  notOwn : order.pid ≠ settings.ownPid
  kill : killOf payload = .ok order.kill

theorem succeeds_readOrder (settings : Settings) (payload : Json) :
    (readOrder settings.ownPid payload).run.Ensures machine.world (fun _ => True)
      (Machine.Succeeds fun order after => after = state ∧ Orders settings payload order)
      state := by
  rw [readOrder]
  refine Machine.succeeds_lift fun given isGiven => ?_
  refine Machine.succeeds_bind (succeeds_validatePid settings.ownPid given) ?_
  rintro pid _ ⟨rfl, isPid, large, notOwn⟩
  refine Machine.succeeds_lift fun kill isKill => ?_
  refine Machine.succeeds_lift fun directory _ => ?_
  refine Machine.succeeds_look (Machine.looking_dumpFolder _) fun folder => ?_
  exact ⟨rfl, ⟨given, isGiven, isPid⟩, large, notOwn, isKill⟩

end Requests

/-! ## One machine -/

/-- A path without the slashes that stand together at its start. -/
def collapse : Bytes → Bytes
  | 47 :: 47 :: rest => collapse (47 :: rest)
  | raw => raw

theorem collapse_doubled (rest : Bytes) : collapse (47 :: 47 :: rest) = collapse (47 :: rest) := rfl

/-- A process that is not there. -/
def goneProcess (pid : Int32) : CheckedProcess where
  pid := pid
  status := .error ⟨false, ascii "No such file or directory"⟩
  cmdline := none
  exe := .error ⟨false, ascii "No such file or directory"⟩
  access := fun _ => none
  maps := .error ⟨false, ascii "No such file or directory"⟩
  files := noDescriptors
  children := none
  seize := none
  interrupt := none
  waitStop := none
  detach := none

/-- The processes of a machine with one process, and with another that has ended by the time that it
is looked at. -/
def soloProc : ProcFs where
  names := some [ascii "7", ascii "8"]
  self := 1
  access := fun _ => none
  process := fun pid => if pid = 7 then sampleProcess else goneProcess pid
  pid_eq := by
    intro pid
    split
    · next same => exact same.symm
    · rfl
  access_eq := fun pid => by split <;> rfl

/-- A machine with this process, where a path with doubled slashes leads where it leads with one. -/
def soloMachine : Machine where
  Place := Bytes
  leads := collapse
  doubled := collapse_doubled
  registry := ascii "/registry"
  temporary := fun number => ascii "/registry." ++ List.replicate number 49
  shows := fun pid target link => pid = 7 ∧ target = sampleTarget ∧ link = ascii "/a"
  lists := fun proc => proc = soloProc

theorem encodable_of_all {value : Text} (plain : (value.all fun c => !isSurrogate c) = true) :
    Foundation.Encodable value := by
  intro c mem
  exact Bool.not_eq_true' _ ▸ List.all_eq_true.mp plain c mem

/-- What Check finds of the process of the machine. -/
theorem checkOne_sampleProcess (probe : Bool) :
    (checkOne sampleProcess probe).comm = [] ∧
      (checkOne sampleProcess probe).exePath = ascii "/a" ∧
      (checkOne sampleProcess probe).reasons = [] ∧
      ((checkOne sampleProcess probe).argc, (checkOne sampleProcess probe).openFds,
        (checkOne sampleProcess probe).volatileFds, (checkOne sampleProcess probe).dumpableFds,
        (checkOne sampleProcess probe).children) = (1, 2, 0, 2, 0) := by
  cases probe <;> decide +kernel

theorem soloMachine_showsText : soloMachine.ShowsText := by
  rintro _ rfl number probe
  by_cases same : number = 7
  · subst same
    have isOne : soloProc.process 7 = sampleProcess := rfl
    rw [isOne]
    rcases checkOne_sampleProcess probe with ⟨comm, exePath, reasons, counts⟩
    simp only [Prod.mk.injEq] at counts
    rcases counts with ⟨argc, openFds, volatileFds, dumpableFds, children⟩
    constructor
    · rw [comm]
      exact ⟨List.not_mem_nil, [], List.forall_mem_nil _, rfl⟩
    · rw [exePath]
      exact ⟨by decide, text "/a", encodable_of_all rfl, rfl⟩
    · rw [reasons]
      exact List.forall_mem_nil _
    all_goals omega
  · have gone : checkOne (soloProc.process number) probe =
        addReason (.initial number) .gone goneDetail := by
      have isGone : soloProc.process number = goneProcess number := if_neg same
      rw [isGone]
      rfl
    rw [gone]
    constructor
    · exact ⟨List.not_mem_nil, [], List.forall_mem_nil _, rfl⟩
    · exact ⟨List.not_mem_nil, [], List.forall_mem_nil _, rfl⟩
    · intro reason mem
      obtain rfl : reason = ⟨.gone, goneDetail⟩ := by
        cases mem with
        | head => rfl
        | tail _ mem => cases mem
      exact ⟨by decide, text "the process disappeared while it was inspected",
        encodable_of_all rfl, rfl⟩
    all_goals exact (by decide : 0 < 2 ^ 31)

/-- The commands of the dump. -/
def soloCheck : EngineCommand := command exampleConfig (text "/Ksnap") (.check (some 7))

def soloDump : EngineCommand :=
  command exampleConfig (text "/Ksnap") (.dump 7 (text "/save") (text "pid-7.ksnap") false)

def soloImage : Bytes := sampleSnapshot.bytes

/-- The files with one more. -/
def withFile (files : Bytes → Option Bytes) (path content : Bytes) (place : Bytes) :
    Option Bytes :=
  if place = path then some content else files place

theorem writes_withFile (files : soloMachine.Files) (path content : Bytes) :
    Machine.Writes files (withFile files path content) path (some content) :=
  ⟨if_pos rfl, fun _ notOwn => if_neg notOwn⟩

/-- The answers of the machine to a dump into a new file. -/
def soloAnswer (state : soloMachine.State) :
    (request : PanelCall) → Option (request.Reply × soloMachine.State)
  | .run command =>
      if command = soloCheck then
        some (.ok ⟨0, printReport (checkOne sampleProcess true), []⟩, state)
      else if command = soloDump ∧ (state.files (ascii "/save/pid-7.ksnap")).isNone then
        some (.ok ⟨0, [], []⟩, { state with
          files := withFile state.files (ascii "/save/pid-7.ksnap") soloImage })
      else none
  | .expandUser path => some (.ok path, state)
  | .resolve path => if path.head? = some 47 then some (.ok path, state) else none
  | .processIsDir _ => some (.ok true, state)
  | .isFile _ => some (.ok true, state)
  | .isExecutable _ => some (true, state)
  | .makeDirs _ => some (.ok (), state)
  | .loadRegistry => some (.error (.osError .fileNotFound []), state)
  | .log _ _ _ => some ((), state)
  | .readHead path size =>
      ((fsEncode path).bind fun raw => state.files (collapse raw)).map fun content =>
        (.ok (content.take size), state)
  | .stat path =>
      ((fsEncode path).bind fun raw => state.files (collapse raw)).map fun content =>
        (.ok ⟨content.length, 0⟩, state)
  | _ => none

theorem exists_answer (proc : ProcFs) (state : List CheckReport) (request : CheckCall) :
    ∃ reply after, (procWorld proc).step state request reply after := by
  cases request
  case printReport => exact ⟨(), _, trivial, rfl⟩
  all_goals exact ⟨_, _, rfl, rfl⟩

theorem soloRuns_check (state : soloMachine.State) :
    Machine.Runs soloCheck state ⟨0, printReport (checkOne sampleProcess true), []⟩ state := by
  rcases (finishes_check soloProc 7).exists_run (exists_answer soloProc) with
    ⟨code, reports, run, ends⟩
  have isOne : soloProc.process 7 = sampleProcess := rfl
  have isClean : exitCodeOf (checkOne sampleProcess true) = 0 := by
    rw [exitCodeOf, (checkOne_sampleProcess true).2.2.1]
    rfl
  rw [CheckEnds, if_neg (by decide), isOne, isClean] at ends
  rcases ends with ⟨rfl, rfl⟩
  refine .ended _ rfl ⟨⟨soloProc, _, rfl, run, ?_⟩, rfl⟩
  rw [List.flatMap_singleton]

theorem soloRuns_dump {state : soloMachine.State}
    (isNew : state.files (ascii "/save/pid-7.ksnap") = none) :
    Machine.Runs soloDump state ⟨0, [], []⟩ { state with
      files := withFile state.files (ascii "/save/pid-7.ksnap") soloImage } := by
  have built : buildSnapshotPath (some (ascii "pid-7.ksnap")) (some (ascii "/save")) =
      some (ascii "/save/pid-7.ksnap") := by decide
  rcases @sample_dumped ⟨some (ascii "pid-7.ksnap"), some (ascii "/save"), false⟩
    (Option.isSome_of_eq_some built) rfl _ (.inl isNew) with ⟨file, run, image⟩
  rcases run.traced [] with ⟨trace, traced⟩
  have kills := kills_of_dump traced.record
  refine .ended [ascii "-m", ascii "Dump", ascii "-p", ascii "7", ascii "-d", ascii "/save",
    ascii "-n", ascii "pid-7.ksnap"] rfl ?_
  have means : main [ascii "-m", ascii "Dump", ascii "-p", ascii "7", ascii "-d", ascii "/save",
      ascii "-n", ascii "pid-7.ksnap"] =
        .dumps 7 ⟨some (ascii "pid-7.ksnap"), some (ascii "/save"), false⟩ := rfl
  rw [Machine.MainRuns, means]
  dsimp only
  rw [Machine.Dumps, built]
  refine ⟨.plenty, 3, sampleTarget, ascii "/a", true, trace, file,
    withFile state.files (ascii "/save/pid-7.ksnap") soloImage, traced, fun _ => ⟨rfl, rfl, rfl⟩,
    rfl, ?_, ?_⟩
  · rw [image]
    exact writes_withFile _ _ _
  · have none_ : trace.countP isKill = 0 := kills
    rw [none_, List.replicate_zero, List.append_nil]

theorem step_of_soloAnswer {before after : soloMachine.State} {request : PanelCall}
    {reply : request.Reply} (answered : soloAnswer before request = some (reply, after)) :
    Machine.Step before ⟨request, reply⟩ after := by
  cases request with
  | run command =>
      rw [soloAnswer] at answered
      split at answered
      · next same =>
        cases answered
        subst same
        exact soloRuns_check before
      · split at answered
        · next both =>
          rcases both with ⟨rfl, isNew⟩
          cases answered
          exact soloRuns_dump (Option.isNone_iff_eq_none.mp isNew)
        · cases answered
  | readHead path size =>
      rw [soloAnswer, Option.map_eq_some_iff] at answered
      rcases answered with ⟨content, here, same⟩
      cases same
      rcases Option.bind_eq_some_iff.mp here with ⟨raw, encoded, found⟩
      exact ⟨rfl, content, ⟨raw, encoded, found⟩, rfl⟩
  | stat path =>
      rw [soloAnswer, Option.map_eq_some_iff] at answered
      rcases answered with ⟨content, here, same⟩
      cases same
      rcases Option.bind_eq_some_iff.mp here with ⟨raw, encoded, found⟩
      exact ⟨rfl, content, ⟨raw, encoded, found⟩, rfl⟩
  | resolve path =>
      rw [soloAnswer] at answered
      split at answered
      · next absolute =>
        cases answered
        exact ⟨rfl, fun raw encoded => ⟨raw, encoded, fun _ _ => rfl⟩, absolute⟩
      · cases answered
  | expandUser => cases answered; exact ⟨rfl, fun _ => rfl⟩
  | processIsDir => cases answered; exact rfl
  | isFile => cases answered; exact rfl
  | isExecutable => cases answered; exact rfl
  | makeDirs => cases answered; exact rfl
  | loadRegistry => cases answered; exact rfl
  | log => cases answered; exact rfl
  | _ => cases answered

/-- A request to dump the process. -/
def soloBody : Text := text "\x7b\"pid\": 7\x7d"

def soloStart : soloMachine.State := ⟨⟨fun _ => none, [], []⟩, []⟩

/-- The request ends with a report on a process that lives on. -/
def isAnswer {σ : Type} : Option (Except PythonError (DumpReport × Bool) × σ) → Bool
  | some (.ok (report, killed), _) => report.directory = text "/save" && !killed
  | _ => false

theorem exists_soloDump : ∃ report after, report.directory = text "/save" ∧
    (postDump exampleConfig exampleSettings soloBody).run.Exec soloMachine.world soloStart
      (.ok (report, false)) after := by
  have answered : isAnswer ((postDump exampleConfig exampleSettings soloBody).run.follow soloAnswer
      soloStart) = true := by decide +kernel
  cases followed : (postDump exampleConfig exampleSettings soloBody).run.follow soloAnswer
      soloStart with
  | none =>
      rw [followed] at answered
      cases answered
  | some found =>
      rw [followed] at answered
      rcases found with ⟨_ | ⟨report, killed⟩, after⟩
      · cases answered
      · rcases Bool.and_eq_true_iff.mp answered with ⟨directory, lives⟩
        cases killed with
        | true => cases lives
        | false =>
            exact ⟨report, after, of_decide_eq_true directory,
              exec_of_follow (fun _ _ _ _ => step_of_soloAnswer) followed⟩

/-! ## Dump requests -/

/-- What an answer to a dump request says. -/
structure Answers (config : Config) (settings : Settings) {machine : Machine}
    (before : machine.State) (body : Text) (answer : DumpReport × Bool) (after : machine.State)
    (payload : Json) (order : DumpOrder) (given : Json) : Prop where
  isPayload : payloadOf settings.depth body = .ok payload
  orders : Orders settings payload order
  kill : order.kill = answer.2
  clean : 3 ≤ settings.depth → machine.ShowsText → machine.FoundClean order.pid
  isGiven : field "name" .null payload = .ok given
  folder : answer.1.directory = order.folder.getD config.snapshotDir
  reported : Machine.Reported before after order.pid (dumpName order.pid given) answer.2 answer.1

theorem succeeds_postDump {machine : Machine} (config : Config) (settings : Settings) (body : Text)
    (before : machine.State) :
    (postDump config settings body).run.Ensures machine.world (fun _ => True)
      (Machine.Succeeds fun answer after => ∃ payload order given,
        Answers config settings before body answer after payload order given) before := by
  rw [postDump]
  refine Machine.succeeds_lift fun payload isPayload => ?_
  refine Machine.succeeds_bind (succeeds_readOrder settings payload) ?_
  rintro order ordered ⟨same, orders⟩
  rw [same, serveOrder]
  refine Machine.succeeds_bind (succeeds_requireDumpable _ _ _ _) ?_
  rintro verdict opened ⟨sameOpened, clean⟩
  rw [sameOpened]
  refine Machine.succeeds_lift fun given isGiven => ?_
  refine Machine.succeeds_look
    (onlyCalls_raising_forM fun caveat => Machine.looking_log _ _ _) fun _ => ?_
  refine Machine.succeeds_bind (succeeds_dump _ _ _ _ _) ?_
  rintro dumped final ⟨folder, reported⟩
  exact ⟨payload, order, given, isPayload, orders, rfl, clean, isGiven, folder, reported⟩

/-- A dump request that the panel answers is for a process that the engine's check, with its probe,
had found nothing against, and that is not the panel itself. The file named in the answer is the
image of that process, and the only file that has changed but the panel's registry and the files
that it is written to at first. The answer says of it what is so, and the process was killed exactly
if the body says so with `true`. -/
theorem postDump_dumps {machine : Machine} {config : Config} {settings : Settings}
    (room : 3 ≤ settings.depth) (texts : machine.ShowsText) {body : Text}
    {before after : machine.State} {report : DumpReport} {killed : Bool}
    (run : (postDump config settings body).run.Exec machine.world before (.ok (report, killed))
      after) :
    ∃ payload order given, payloadOf settings.depth body = .ok payload ∧
      Orders settings payload order ∧ order.kill = killed ∧ machine.FoundClean order.pid ∧
      field "name" .null payload = .ok given ∧
      report.directory = order.folder.getD config.snapshotDir ∧
      Machine.Reported before after order.pid (dumpName order.pid given) killed report := by
  rcases (succeeds_postDump config settings body before).exec run with
    ⟨payload, order, given, answers⟩
  exact ⟨payload, order, given, answers.isPayload, answers.orders, answers.kill,
    answers.clean room texts, answers.isGiven, answers.folder, answers.reported⟩

theorem postDump_dumps_solo : ∃ report after,
    (∃ payload order given, payloadOf exampleSettings.depth soloBody = .ok payload ∧
      Orders exampleSettings payload order ∧ order.kill = false ∧
      soloMachine.FoundClean order.pid ∧ field "name" .null payload = .ok given ∧
      report.directory = order.folder.getD exampleConfig.snapshotDir ∧
      Machine.Reported soloStart after order.pid (dumpName order.pid given) false report) := by
  rcases exists_soloDump with ⟨report, after, -, run⟩
  exact ⟨report, after, postDump_dumps (by decide) soloMachine_showsText run⟩

end Ksnap
