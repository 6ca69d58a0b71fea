import Ksnap.Panel.Handlers
import Ksnap.System.Gate

/-!
# The process table

The panel lists the processes itself and has the engine judge all of them in one sweep. What a
row shows is then what the sweep has found of this very process, and the counts are those of all
rows, whether the table shows them or not.
-/

namespace Ksnap

open Foundation Foundation.Program Raising Panel

/-! ## What is read of a sweep -/

theorem lookup_pair (entries : List (ℤ × Json)) (key pid : ℤ) (json : Json) :
    ((key, json) :: entries).lookup pid = if pid = key then some json else entries.lookup pid := by
  by_cases asked : pid = key
  · simp [asked]
  · simp [List.lookup_cons, beq_false_of_ne asked, asked]

/-- Asking for one of the reports that were put. -/
theorem lookup_putReport (entries : List (ℤ × Json)) (key pid : ℤ) (json : Json) :
    (putReport entries key json).lookup pid =
      if pid = key then some json else entries.lookup pid := by
  have replaced : (entries.map fun entry => if entry.1 = key then (key, json) else entry).lookup
      pid = if pid = key ∧ entries.any (·.1 = key) = true then some json
        else entries.lookup pid := by
    induction entries with
    | nil => simp
    | cons entry entries ih =>
        rcases entry with ⟨other, old⟩
        rw [List.map_cons, lookup_pair]
        by_cases own : other = key
        · rw [if_pos own, lookup_pair, ih]
          by_cases asked : pid = key <;> simp [own, asked]
        · rw [if_neg own, lookup_pair, ih, List.any_cons, decide_eq_false own, Bool.false_or]
          by_cases asked : pid = other
          · have notKey : pid ≠ key := fun same => own (asked.symm.trans same)
            simp [asked, own]
          · simp [asked]
  rw [putReport]
  by_cases present : entries.any (·.1 = key) = true
  · rw [if_pos present, replaced]
    simp [present]
  · rw [if_neg present, List.lookup_append, lookup_pair, List.lookup_nil]
    by_cases asked : pid = key
    · have fresh : entries.lookup pid = none := by
        rw [List.lookup_eq_none_iff]
        intro entry mem
        have other : entry.1 ≠ key := by
          intro same
          exact present (List.any_eq_true.mpr ⟨entry, mem, decide_eq_true same⟩)
        simpa [asked] using Ne.symm other
      rw [fresh, if_pos asked]
      rfl
    · simp [asked]

section Lines

variable {depth : ℕ} {entries more : List (ℤ × Json)}

theorem eq_of_notRead {line : Text} (gathered : gatherLine depth entries line = .ok more)
    (unread : ∀ pid, ¬ReadAs depth pid line) : more = entries := by
  rw [gatherLine] at gathered
  by_cases empty : strip line = []
  · rw [if_pos empty] at gathered
    cases gathered
    rfl
  · rw [if_neg empty] at gathered
    cases read : readReport depth (strip line) with
    | ok entry => exact absurd ⟨entry.2, read⟩ (unread entry.1)
    | error raised =>
        rw [read] at gathered
        dsimp only at gathered
        split at gathered
        · cases gathered
          rfl
        · cases gathered

theorem eq_of_noneRead {lines : List Text}
    (gathered : lines.foldlM (gatherLine depth) entries = .ok more)
    (unread : ∀ line ∈ lines, ∀ pid, ¬ReadAs depth pid line) : more = entries := by
  induction lines generalizing entries with
  | nil =>
      cases gathered
      rfl
  | cons line lines ih =>
      rw [List.foldlM_cons] at gathered
      rcases ok_of_bind gathered with ⟨middle, first, rest⟩
      rw [List.forall_mem_cons] at unread
      rw [ih rest unread.2]
      exact eq_of_notRead first unread.1

/-- The lines of one report, which is read or not. -/
theorem gathered_report (room : 3 ≤ depth) {report : CheckReport} (wellFormed : WellFormed report)
    (small : report.state.toNat < 0x80)
    (gathered : (splitlines (unifiedLine report ++ [10])).foldlM (gatherLine depth) entries =
      .ok more) :
    (KeepsLine report ∧
        more = putReport entries report.pid.toInt (.dict (reportMembers report))) ∨
      ¬KeepsLine report ∧ more = entries := by
  by_cases keeps : KeepsLine report
  · left
    have lines := readerLines_of_keepsLine (List.forall_mem_singleton.mpr keeps)
    rw [readerLines_output, List.flatMap_singleton, List.map_singleton] at lines
    rw [lines, List.foldlM_cons, gatherLine_lineText room wellFormed keeps] at gathered
    cases gathered
    exact ⟨keeps, rfl⟩
  · right
    refine ⟨keeps, eq_of_noneRead gathered ?_⟩
    intro line mem pid readAs
    exact keeps (keepsLine_of_readAs room wellFormed small mem readAs).1

/-- The entries of reports, beside the entries that were there. -/
structure Lists (reports : List CheckReport) (before after : List (ℤ × Json)) : Prop where
  kept : ∀ report ∈ reports, KeepsLine report →
    after.lookup report.pid.toInt = some (.dict (reportMembers report))
  others : ∀ pid, (∀ report ∈ reports, KeepsLine report → report.pid.toInt ≠ pid) →
    after.lookup pid = before.lookup pid

/-- Reports on one process say the same, so that it does not matter which of them is kept. -/
theorem lists_reports (room : 3 ≤ depth) {reports : List CheckReport}
    (wellFormed : ∀ report ∈ reports, WellFormed report)
    (small : ∀ report ∈ reports, report.state.toNat < 0x80)
    (coherent : ∀ first ∈ reports, ∀ second ∈ reports, first.pid = second.pid → first = second)
    (gathered : (reports.flatMap fun report => splitlines (unifiedLine report ++ [10])).foldlM
      (gatherLine depth) entries = .ok more) : Lists reports entries more := by
  induction reports generalizing entries with
  | nil =>
      cases gathered
      exact ⟨fun report mem => absurd mem List.not_mem_nil, fun pid _ => rfl⟩
  | cons report reports ih =>
      rw [List.flatMap_cons, List.foldlM_append] at gathered
      rcases ok_of_bind gathered with ⟨middle, first, rest⟩
      rw [List.forall_mem_cons] at wellFormed small
      have later := ih wellFormed.2 small.2 (fun one mem other memToo =>
        coherent one (List.mem_cons_of_mem _ mem) other (List.mem_cons_of_mem _ memToo)) rest
      rcases gathered_report room wellFormed.1 small.1 first with ⟨keeps, put⟩ | ⟨lost, same⟩
      · constructor
        · rw [List.forall_mem_cons]
          refine ⟨fun _ => ?_, later.kept⟩
          by_cases again : ∃ other ∈ reports, KeepsLine other ∧ other.pid = report.pid
          · rcases again with ⟨other, mem, keepsToo, samePid⟩
            rw [← coherent other (List.mem_cons_of_mem _ mem) report List.mem_cons_self samePid]
            exact later.kept other mem keepsToo
          · have none_ : ∀ other ∈ reports, KeepsLine other →
                other.pid.toInt ≠ report.pid.toInt := by
              intro other mem keepsToo samePid
              exact again ⟨other, mem, keepsToo, Int32.toInt_inj.mp samePid⟩
            rw [later.others _ none_, put, lookup_putReport, if_pos rfl]
        · intro pid notReported
          rw [List.forall_mem_cons] at notReported
          rw [later.others pid notReported.2, put, lookup_putReport,
            if_neg (Ne.symm (notReported.1 keeps))]
      · constructor
        · rw [List.forall_mem_cons]
          exact ⟨fun keeps => absurd keeps lost, later.kept⟩
        · intro pid notReported
          rw [List.forall_mem_cons] at notReported
          rw [later.others pid notReported.2, same]

end Lines

/-! ## The rows -/

/-- A row says of its process what the sweep has found of it. -/
structure ShowsSweep (proc : ProcFs) (names : List Bytes) (maxSnapshotMb : ℤ) (row : JudgedRow) :
    Prop where
  reported : ∀ number ∈ sweptPids proc.self names, number.toInt = row.process.pid →
    KeepsLine (checkOne (proc.process number) false) →
      Judges maxSnapshotMb (printedReport (checkOne (proc.process number) false)) row.eligibility
  unreported : (∀ number ∈ sweptPids proc.self names, number.toInt = row.process.pid →
    ¬KeepsLine (checkOne (proc.process number) false)) →
      row.eligibility = unavailable (text "the engine did not report on this process")

/-- The counts are those of the rows. -/
structure CountsOf (rows : List JudgedRow) (counts : LevelCounts) : Prop where
  ok : counts.ok = rows.countP fun row => row.eligibility.level = .ok
  risky : counts.risky = rows.countP fun row => row.eligibility.level = .risky
  blocked : counts.blocked = rows.countP fun row => row.eligibility.level = .blocked
  unknown : counts.unknown = rows.countP fun row => row.eligibility.level = .unknown

theorem countsOf_countLevels (rows : List JudgedRow) : CountsOf rows (countLevels rows) := by
  have counted : ∀ counts : LevelCounts,
      rows.foldl (fun counts row => counts.add row.eligibility.level) counts =
        ⟨counts.ok + rows.countP fun row => row.eligibility.level = .ok,
          counts.risky + rows.countP fun row => row.eligibility.level = .risky,
          counts.blocked + rows.countP fun row => row.eligibility.level = .blocked,
          counts.unknown + rows.countP fun row => row.eligibility.level = .unknown⟩ := by
    induction rows with
    | nil => intro counts; rfl
    | cons row rows ih =>
        intro counts
        rw [List.foldl_cons, ih]
        simp only [List.countP_cons]
        cases row.eligibility.level <;> simp [LevelCounts.add] <;> omega
  rw [countLevels, counted]
  constructor <;> exact Nat.zero_add _

section Sweep

variable {machine : Machine} {depth : ℕ} {found : List (ℤ × Json)} {proc : ProcFs}
  {completed : Completed Bytes} {reports : List CheckReport}

theorem swept_of_found (isFound : machine.Found depth (-1) found proc completed reports) :
    ∃ names, proc.names = some names ∧
      reports = (sweptPids proc.self names).map fun pid => checkOne (proc.process pid) false := by
  have ends := isFound.ends
  rw [CheckEnds, if_pos rfl] at ends
  cases read : proc.names with
  | none =>
      rw [read] at ends
      have answered := isFound.printed.answered
      rw [ends.1] at answered
      exact absurd answered (by decide)
  | some names =>
      rw [read] at ends
      exact ⟨names, rfl, ends.2⟩

/-- What the panel has of the reports of a sweep. -/
theorem lists_of_found (room : 3 ≤ depth) (texts : machine.ShowsText)
    (isFound : machine.Found depth (-1) found proc completed reports) :
    Lists reports [] found := by
  rcases swept_of_found isFound with ⟨names, -, swept⟩
  have wellFormed : ∀ report ∈ reports, WellFormed report := by
    rw [swept, List.forall_mem_map]
    exact fun number _ => texts proc isFound.lists number false
  have coherent : ∀ first ∈ reports, ∀ second ∈ reports, first.pid = second.pid →
      first = second := by
    rw [swept, List.forall_mem_map]
    intro number _
    rw [List.forall_mem_map]
    intro other _ same
    rw [pid_checkOne, pid_checkOne, proc.pid_eq, proc.pid_eq] at same
    rw [same]
  rcases checkOutcome_eq_ok isFound.outcome with ⟨stdout, errors, decoded, isErrors⟩
  have gathered := isFound.outcome
  rw [checkOutcome_eq decoded isErrors] at gathered
  rw [isFound.printed.stdout] at decoded
  have small := small_of_decodeStrict decoded
  rw [decodeStrict_output wellFormed small] at decoded
  rw [← Option.some.inj decoded, readerLines_output] at gathered
  exact lists_reports room wellFormed small coherent gathered

theorem process_of_judgeRow {maxSnapshotMb : ℤ} {process : ProcessRow} {row : JudgedRow}
    (judged : judgeRow maxSnapshotMb found process = .ok row) : row.process = process := by
  rcases ok_of_bind judged with ⟨verdict, -, same⟩
  cases same
  rfl

theorem showsSweep_of_judgeRow (room : 3 ≤ depth) (texts : machine.ShowsText)
    (isFound : machine.Found depth (-1) found proc completed reports) {names : List Bytes}
    (swept : reports = (sweptPids proc.self names).map fun pid =>
      checkOne (proc.process pid) false) {maxSnapshotMb : ℤ} {process : ProcessRow}
    {row : JudgedRow} (judged : judgeRow maxSnapshotMb found process = .ok row) :
    ShowsSweep proc names maxSnapshotMb row := by
  have lists := lists_of_found room texts isFound
  rcases ok_of_bind judged with ⟨verdict, isVerdict, same⟩
  cases same
  constructor
  · intro number mem isPid keeps
    have isReport : checkOne (proc.process number) false ∈ reports := by
      rw [swept]
      exact List.mem_map_of_mem mem
    have kept := lists.kept _ isReport keeps
    rw [pid_checkOne, proc.pid_eq, isPid, ← json_printedReport] at kept
    rw [kept, Option.getD_some] at isVerdict
    rcases judges maxSnapshotMb (printedReport (checkOne (proc.process number) false)) with
      ⟨other, isOther, judges⟩
    rw [isOther] at isVerdict
    cases isVerdict
    exact judges
  · intro silent
    have others : found.lookup process.pid = none := by
      apply lists.others
      rw [swept, List.forall_mem_map]
      intro number mem keeps samePid
      rw [pid_checkOne, proc.pid_eq] at samePid
      exact silent number mem samePid keeps
    rw [others] at isVerdict
    cases isVerdict
    rfl

end Sweep

/-! ## Requests for the table -/

section Looks

variable {machine : Machine} {config : Config}

theorem looking_runEngine {command : EngineCommand} {pid : Option ℤ}
    (isCheck : command.request = .check pid) (timedOut : Text) :
    Machine.Looking (runEngine command timedOut) := by
  apply OnlyCalls.catching
  · refine OnlyCalls.raising_bind (Machine.looking_attempt ⟨pid, isCheck⟩) fun completed => ?_
    refine OnlyCalls.raising_bind onlyCalls_liftExcept fun stdout => ?_
    exact OnlyCalls.raising_bind onlyCalls_liftExcept fun stderr => onlyCalls_raising_pure
  · intro raised
    split
    · exact onlyCalls_raising_throw
    · exact onlyCalls_raising_throw

theorem looking_readLine (depth : ℕ) (reports : List (ℤ × Json)) (line : Text) :
    Machine.Looking (readLine depth reports line) := by
  rw [readLine]
  dsimp only
  split
  · exact onlyCalls_raising_pure
  · apply OnlyCalls.catching
    · exact OnlyCalls.raising_bind onlyCalls_liftExcept fun entry => onlyCalls_raising_pure
    · intro raised
      exact OnlyCalls.raising_bind (Machine.looking_log _ _ _) fun _ => onlyCalls_raising_pure

theorem looking_check (depth : ℕ) (timeout : Text) (pid : Option ℤ) :
    Machine.Looking (Panel.check config depth timeout pid) := by
  refine OnlyCalls.raising_bind Machine.looking_binary fun engine => ?_
  refine OnlyCalls.raising_bind (looking_runEngine rfl _) fun completed => ?_
  apply OnlyCalls.raising_bind
  · rw [refuseUnanswered]
    split
    · exact onlyCalls_raising_pure
    · exact OnlyCalls.raising_bind (Machine.looking_log _ _ _) fun _ => onlyCalls_raising_throw
  · exact fun _ => onlyCalls_foldlM fun reports line => looking_readLine depth reports line

theorem looking_readText (pid : Text) (file : ProcessFile) : Machine.Looking (readText pid file) :=
  OnlyCalls.catching (Machine.looking_attempt trivial) fun _ => onlyCalls_raising_pure

theorem looking_describeProcess (pid name state : Text) (threads : ℤ) (arguments : List Text) :
    Machine.Looking (describeProcess pid name state threads arguments) := by
  refine OnlyCalls.raising_bind (looking_readText _ _) fun status => ?_
  refine OnlyCalls.raising_bind onlyCalls_liftExcept fun fields => ?_
  apply OnlyCalls.raising_bind
  · cases fields.uid with
    | some uid => exact onlyCalls_raising_pure
    | none =>
        exact OnlyCalls.catching (Machine.looking_attempt trivial) fun _ => onlyCalls_raising_pure
  · intro uid
    refine OnlyCalls.raising_bind onlyCalls_liftExcept fun number => ?_
    refine OnlyCalls.raising_bind ?_ fun user => onlyCalls_raising_pure
    exact OnlyCalls.catching (Machine.looking_attempt trivial) fun _ => onlyCalls_raising_pure

theorem looking_readProcess (pid : Text) : Machine.Looking (readProcess pid) := by
  refine OnlyCalls.raising_bind (looking_readText _ _) fun stat => ?_
  split
  · exact onlyCalls_raising_pure
  · split
    · exact onlyCalls_raising_pure
    · refine OnlyCalls.raising_bind onlyCalls_liftExcept fun threads => ?_
      refine OnlyCalls.raising_bind (looking_readText _ _) fun cmdline => ?_
      dsimp only
      split
      · exact onlyCalls_raising_pure
      · exact OnlyCalls.raising_bind (looking_describeProcess _ _ _ _ _)
          fun _ => onlyCalls_raising_pure

theorem looking_listEntry (lower : Text → Text) (query : Text) (list : ProcessList) (entry : Text) :
    Machine.Looking (listEntry lower query list entry) := by
  rw [listEntry]
  split
  · exact OnlyCalls.raising_bind (looking_readProcess entry) fun _ => onlyCalls_raising_pure
  · exact onlyCalls_raising_pure

theorem looking_listProcesses (lower : Text → Text) (query : Option Text) :
    Machine.Looking (listProcesses lower query) := by
  refine OnlyCalls.raising_bind (Machine.looking_attempt trivial) fun entries => ?_
  refine OnlyCalls.raising_bind ?_ fun list => onlyCalls_raising_pure
  exact onlyCalls_foldlM fun list entry => looking_listEntry _ _ list entry

theorem looking_checkAll (settings : Settings) : Machine.Looking (checkAll config settings) := by
  apply OnlyCalls.catching
  · exact OnlyCalls.raising_bind (looking_check _ _ _) fun reports => onlyCalls_raising_pure
  · intro raised
    cases raised <;> trivial

theorem looking_verdictsFor (settings : Settings) (found : List ProcessRow) :
    Machine.Looking (verdictsFor config settings found) := by
  refine OnlyCalls.raising_bind (looking_checkAll settings) fun outcome => ?_
  cases outcome with
  | error message => exact onlyCalls_raising_pure
  | ok reports => exact onlyCalls_liftExcept

theorem looking_getProcesses (settings : Settings) (lower : Text → Text)
    (given query : Option Text) :
    Machine.Looking (getProcesses config settings lower given query) := by
  refine OnlyCalls.raising_bind (looking_listProcesses _ _) fun list => ?_
  exact OnlyCalls.raising_bind (looking_verdictsFor _ _) fun found => onlyCalls_raising_pure

end Looks

/-- The rows of a table that is answered with. -/
structure Judged (machine : Machine) (settings : Settings) (rows : List JudgedRow) : Prop where
  ordered : rows.Pairwise fun one other => one.process.pid ≤ other.process.pid
  judged : (∃ message, ∀ row ∈ rows, row.eligibility = unavailable message) ∨
    ∃ proc names, machine.lists proc ∧ proc.names = some names ∧
      ∀ row ∈ rows, ShowsSweep proc names settings.maxSnapshotMb row

section Requests

variable {machine : Machine} {config : Config} {state : machine.State} {settings : Settings}

/-- The reports of the sweep, or the message instead of them. -/
theorem succeeds_checkAll (settings : Settings) :
    (checkAll config settings).run.Ensures machine.world (fun _ => True)
      (Machine.Succeeds fun outcome _ => ∀ found, outcome = .ok found →
        ∃ proc completed reports, machine.Found settings.depth (-1) found proc completed reports)
      state := by
  rw [checkAll, ensures_catching, ensures_raising_bind]
  refine (succeeds_check _ _ _).mono ?_
  intro outcome after held
  cases outcome with
  | ok found =>
      rcases held with ⟨-, number, proc, completed, reports, isAll, isFound⟩
      rw [Names] at isAll
      rw [isAll] at isFound
      intro other same
      cases same
      exact ⟨proc, completed, reports, isFound⟩
  | error raised =>
      cases raised with
      | engineError message => exact fun found impossible => nomatch impossible
      | _ => trivial

theorem succeeds_listProcesses (lower : Text → Text) (query : Option Text) :
    (listProcesses lower query).run.Ensures machine.world (fun _ => True)
      (Machine.Succeeds fun list _ =>
        list.found.Pairwise fun one other => one.pid ≤ other.pid) state := by
  refine Machine.succeeds_look (Machine.looking_attempt trivial) fun entries => ?_
  refine Machine.succeeds_look
    (onlyCalls_foldlM fun list entry => looking_listEntry _ _ list entry) fun list => ?_
  have total : Std.Total fun one other : ProcessRow => one.pid ≤ other.pid :=
    ⟨fun one other => le_total one.pid other.pid⟩
  have trans : IsTrans ProcessRow fun one other => one.pid ≤ other.pid :=
    ⟨fun _ _ _ => le_trans⟩
  exact List.pairwise_insertionSort _ _

theorem succeeds_verdictsFor (room : 3 ≤ settings.depth)
    (texts : machine.ShowsText)
    {found : List ProcessRow}
    (ordered : found.Pairwise fun one other => one.pid ≤ other.pid) :
    (verdictsFor config settings found).run.Ensures machine.world (fun _ => True)
      (Machine.Succeeds fun rows _ => Judged machine settings rows) state := by
  refine Machine.succeeds_bind (succeeds_checkAll settings) ?_
  intro outcome middle held
  cases outcome with
  | error message =>
      constructor
      · rwa [List.pairwise_map]
      · left
        refine ⟨message, ?_⟩
        rw [List.forall_mem_map]
        exact fun process _ => rfl
  | ok reports =>
      rcases held reports rfl with ⟨proc, completed, printed, isFound⟩
      rcases swept_of_found isFound with ⟨names, isNames, swept⟩
      dsimp only
      rw [ensures_liftExcept]
      cases judged : found.mapM (judgeRow settings.maxSnapshotMb reports) with
      | error raised => trivial
      | ok rows =>
          rcases results_of_mapM (fun _ _ => process_of_judgeRow) judged with ⟨same, each⟩
          constructor
          · rwa [same, List.pairwise_map] at ordered
          · right
            refine ⟨proc, names, isFound.lists, isNames, ?_⟩
            exact fun row mem => showsSweep_of_judgeRow room texts isFound swept (each row mem)

/-- The table that is answered with. -/
structure Tabulates (machine : Machine) (settings : Settings) (all : Bool) (view : ProcessesView)
    (rows : List JudgedRow) : Prop where
  visible : view.processes = rows.filter fun row => all || row.eligibility.level ≠ .blocked
  counts : CountsOf rows view.counts
  judged : Judged machine settings rows

theorem succeeds_getProcesses (room : 3 ≤ settings.depth)
    (texts : machine.ShowsText)
    (lower : Text → Text) (given query : Option Text) :
    (getProcesses config settings lower given query).run.Ensures machine.world (fun _ => True)
      (Machine.Succeeds fun view _ => ∃ rows,
        Tabulates machine settings (includesAll lower given) view rows) state := by
  refine Machine.succeeds_bind (succeeds_listProcesses lower query) ?_
  intro list middle ordered
  refine Machine.succeeds_bind (succeeds_verdictsFor room texts ordered) ?_
  intro rows final judged
  exact ⟨rows, rfl, countsOf_countLevels rows, judged⟩

/-- The process table leaves the machine as it is. Its rows are in the order of the pids, and each
says of its process what the engine's sweep has found of this very process, or that there was no
report on it, or all of them say why there was no sweep. Blocked rows are left out unless they are
asked for, and counted all the same. -/
theorem table_judges {lower : Text → Text} {given query : Option Text}
    {before after : machine.State} {view : ProcessesView} (room : 3 ≤ settings.depth)
    (texts : machine.ShowsText)
    (run : (getProcesses config settings lower given query).run.Exec machine.world before
      (.ok view) after) :
    after = before ∧ ∃ rows, Tabulates machine settings (includesAll lower given) view rows := by
  constructor
  · exact (Machine.ensures_bystander (looking_getProcesses settings lower given query) before).exec
      run
  · exact (succeeds_getProcesses room texts lower given query).exec run

end Requests

/-! ## A table of two processes -/

def soloSweep : EngineCommand := command exampleConfig (text "/Ksnap") (.check none)

/-- The reports of the sweep, the second of them on a process that has ended. -/
def soloReports : List CheckReport :=
  [checkOne sampleProcess false, checkOne (goneProcess 8) false]

theorem soloRuns_sweep (state : soloMachine.State) :
    Machine.Runs soloSweep state ⟨0, soloReports.flatMap printReport, []⟩ state := by
  rcases (finishes_check soloProc (-1)).exists_run (exists_answer soloProc) with
    ⟨code, reports, run, ends⟩
  rw [CheckEnds, if_pos rfl] at ends
  have swept : sweptPids soloProc.self [ascii "7", ascii "8"] = [7, 8] := rfl
  rcases ends with ⟨rfl, rfl⟩
  refine .ended _ rfl ⟨⟨soloProc, _, rfl, run, ?_⟩, rfl⟩
  rw [swept]
  rfl

/-- The answers of the machine to a listing. -/
def tableAnswer (state : soloMachine.State) :
    (request : PanelCall) → Option (request.Reply × soloMachine.State)
  | .run command =>
      if command = soloSweep then
        some (.ok ⟨0, soloReports.flatMap printReport, []⟩, state)
      else none
  | .processEntries => some ([text "8", text "7", text "self"], state)
  | .readProcessFile _ .stat =>
      some (.ok (ascii "7 (a) S 1 7 7 0 -1 0 0 0 0 0 0 0 0 0 20 0 1 0"), state)
  | .readProcessFile _ .cmdline => some (.ok (ascii "/a"), state)
  | .readProcessFile _ .status => some (.ok (ascii "Uid:\t0\t0\t0\t0\n"), state)
  | .userName _ => some (.ok (text "root"), state)
  | .isFile _ => some (.ok true, state)
  | .isExecutable _ => some (true, state)
  | _ => none

theorem step_of_tableAnswer {before after : soloMachine.State} {request : PanelCall}
    {reply : request.Reply} (answered : tableAnswer before request = some (reply, after)) :
    Machine.Step before ⟨request, reply⟩ after := by
  cases request with
  | run command =>
      rw [tableAnswer] at answered
      split at answered
      · next same =>
        cases answered
        subst same
        exact soloRuns_sweep before
      · cases answered
  | readProcessFile pid file => cases file <;> (cases answered; exact rfl)
  | processEntries => cases answered; exact rfl
  | userName => cases answered; exact rfl
  | isFile => cases answered; exact rfl
  | isExecutable => cases answered; exact rfl
  | _ => cases answered

/-- The table shows the process that the sweep has found nothing against, and counts the other. -/
def showsOneOfTwo (view : ProcessesView) : Prop :=
  view.processes.map (fun row => (row.process.pid, row.eligibility.level)) = [(7, .ok)] ∧
    view.counts.ok = 1 ∧ view.counts.blocked = 1

instance decidable_showsOneOfTwo (view : ProcessesView) : Decidable (showsOneOfTwo view) :=
  inferInstanceAs (Decidable (_ ∧ _))

def isJudgedTable {σ : Type} : Option (Except PythonError ProcessesView × σ) → Bool
  | some (.ok view, _) => showsOneOfTwo view
  | _ => false

theorem exists_soloTable : ∃ view after, showsOneOfTwo view ∧
    (getProcesses exampleConfig exampleSettings id none none).run.Exec soloMachine.world
      soloStart (.ok view) after := by
  have answered : isJudgedTable ((getProcesses exampleConfig exampleSettings id none none).run
      |>.follow tableAnswer soloStart) = true := by decide +kernel
  cases followed : (getProcesses exampleConfig exampleSettings id none none).run.follow tableAnswer
      soloStart with
  | none =>
      rw [followed] at answered
      cases answered
  | some found =>
      rw [followed] at answered
      rcases found with ⟨_ | view, after⟩
      · cases answered
      · exact ⟨view, after, of_decide_eq_true answered,
          exec_of_follow (fun _ _ _ _ => step_of_tableAnswer) followed⟩

/-- Both are in the table, and one of them is left out of what is shown. -/
theorem table_judges_solo : ∃ view after, showsOneOfTwo view ∧ after = soloStart ∧ ∃ rows,
    Tabulates soloMachine exampleSettings (includesAll id none) view rows := by
  rcases exists_soloTable with ⟨view, after, shown, run⟩
  exact ⟨view, after, shown, table_judges (by decide) soloMachine_showsText run⟩

end Ksnap
