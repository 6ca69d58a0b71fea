import Ksnap.Check.Arguments
import Ksnap.Panel.Verdicts

/-!
# Arguments that are not restored

What the engine counts as arguments reaches the panel as a fact of the report, where more
than one of them is a caveat.
-/

namespace Ksnap.Panel

open Foundation

/-! ## The engine's report as the panel reads it -/

/-- The facts that the engine prints. -/
def printedFacts (report : CheckReport) : List (Text × Json) :=
  match factsJson report with
  | .dict facts => facts
  | _ => []

theorem printedFacts_printed (report : CheckReport) : PrintedFacts (printedFacts report) where
  counters := by
    intro name isCounter value given
    simp only [counters, List.mem_cons, List.not_mem_nil, or_false] at isCounter
    rcases isCounter with rfl | rfl | rfl | rfl | rfl | rfl
    all_goals
      cases given
      exact ⟨_, rfl⟩
  exe := by
    intro value given
    cases given
    exact ⟨_, rfl⟩

/-- The report that the engine prints. -/
def printedReport (report : CheckReport) : EngineReport where
  pid := report.pid.toInt
  dumpable := report.reasons.length = 0
  reasons := report.reasons.map fun reason =>
    ⟨decodeReplace reason.code.text, decodeReplace reason.detail⟩
  facts := printedFacts report
  printed := printedFacts_printed report

theorem json_printedReport (report : CheckReport) :
    (printedReport report).json = .dict (reportMembers report) := by
  simp only [EngineReport.json, printedReport, reportMembers, List.map_map]
  rfl

theorem counter_argc (report : CheckReport) : counter "argc" (printedFacts report) = report.argc :=
  rfl

/-! ## The caveat -/

/-- The caveat about arguments is among the reasons. -/
def Verdict.WarnsOfArguments (verdict : Verdict) : Prop :=
  ∃ reason ∈ verdict.reasons, reason.code = .string (text "arguments_not_restored")

/-- What the first of the caveats finds is among what all of them find. -/
theorem mem_caveats {maxSnapshotMb : ℤ} {facts : Json} {found risks : List VerdictReason}
    (first : argumentsCaveat facts = .ok found) (all : caveats maxSnapshotMb facts = .ok risks)
    {reason : VerdictReason} (mem : reason ∈ found) : reason ∈ risks := by
  rcases ok_of_bind all with ⟨arguments, one, all⟩
  rcases ok_of_bind all with ⟨openFiles, -, all⟩
  rcases ok_of_bind all with ⟨children, -, all⟩
  rcases ok_of_bind all with ⟨size, -, all⟩
  rcases ok_of_bind all with ⟨path, -, all⟩
  cases first.symm.trans one
  cases all
  simp [mem]

theorem warnsOfArguments {maxSnapshotMb : ℤ} {report : EngineReport} {verdict : Verdict}
    (many : 1 < counter "argc" report.facts)
    (judged : verdictFromReport maxSnapshotMb report.json = .ok verdict) :
    verdict.WarnsOfArguments := by
  rcases warnsIf_caveats maxSnapshotMb report.printed with ⟨risks, risk, -, risky⟩
  rw [verdictFromReport_json maxSnapshotMb report risk risky] at judged
  cases judged
  have first : ∃ message, argumentsCaveat (.dict report.facts) =
      .ok [caveat "arguments_not_restored" message] := by
    rw [argumentsCaveat, factNumber_counter report.printed (by decide)]
    exact ⟨_, congrArg Except.ok (if_pos many)⟩
  rcases first with ⟨message, first⟩
  exact ⟨_, List.mem_append_right _ (mem_caveats first risk (List.mem_singleton_self _)), rfl⟩

/-! ## Counted arguments -/

/-- The command line of a process is read as what it is: its arguments are counted, no user
process is taken for a kernel thread, and more than one argument is a caveat. -/
structure CountsArguments (argv : List Bytes) : Prop where
  counts : ∀ process report, process.cmdline = some (cmdlineText argv) →
    (readCmdlineArgc process report).argc = argv.length
  user : ∀ process probe, process.cmdline = some (cmdlineText argv) → argv ≠ [] →
    ∀ reason ∈ (checkOne process probe).reasons, reason.code ≠ .kernelThread
  warns : ∀ process status probe maxSnapshotMb verdict,
    process.cmdline = some (cmdlineText argv) → process.status = .ok status → 1 < argv.length →
    verdictFromReport maxSnapshotMb (.dict (reportMembers (checkOne process probe))) =
      .ok verdict → verdict.WarnsOfArguments

theorem countsArguments_of_notMem {argv : List Bytes} (nulFree : ∀ arg ∈ argv, 0 ∉ arg)
    (noEmpty : [] ∉ argv) : CountsArguments argv := by
  have counted : ∀ process report, process.cmdline = some (cmdlineText argv) →
      (readCmdlineArgc process report).argc = argv.length :=
    fun process report cmdline =>
      (argc_readCmdlineArgc nulFree cmdline report).trans (length_filter_eq_iff.mpr noEmpty)
  refine ⟨counted, ?_, ?_⟩
  · intro process probe cmdline nonempty
    cases status : process.status with
    | error errno => exact (userProcess_of_unreadable status probe).reasons
    | ok text =>
        exact (userProcess_checkOne status (counted process · cmdline)
          (by simpa using nonempty) probe).reasons
  · intro process status probe maxSnapshotMb verdict cmdline readable many judged
    have user := userProcess_checkOne readable (counted process · cmdline) (by omega) probe
    rw [← json_printedReport] at judged
    apply warnsOfArguments _ judged
    exact (counter_argc _).symm ▸ user.argc.symm ▸ Int.ofNat_lt.mpr many

/-- A process whose command line can be read. -/
def processWith (argv : List Bytes) : CheckedProcess where
  pid := 7
  status := .ok []
  cmdline := some (cmdlineText argv)
  exe := .error ⟨true, []⟩
  access := fun _ => none
  maps := .error ⟨true, []⟩
  files := ⟨none, fun _ => none, fun _ => none, fun _ => none, fun _ => none, fun _ _ => none⟩
  children := none
  seize := none
  interrupt := none
  waitStop := none
  detach := none

/-- The command line is read as what it is exactly if no argument is empty. -/
theorem countsArguments_iff {argv : List Bytes} (nulFree : ∀ arg ∈ argv, 0 ∉ arg) :
    CountsArguments argv ↔ [] ∉ argv := by
  constructor
  · intro exact_
    have counted := exact_.counts (processWith argv) (.initial 7) rfl
    rw [argc_readCmdlineArgc nulFree rfl] at counted
    exact length_filter_eq_iff.mp counted
  · exact countsArguments_of_notMem nulFree

theorem countsArguments_iff_sleep :
    CountsArguments [ascii "sleep", ascii "5"] ↔ [] ∉ [ascii "sleep", ascii "5"] :=
  countsArguments_iff (by decide)

/-- `execve("/bin/true", {"", NULL})` is taken for a kernel thread. -/
theorem not_countsArguments :
    ¬ ∀ argv : List Bytes, (∀ arg ∈ argv, 0 ∉ arg) → CountsArguments argv := by
  intro claimed
  have counted := (claimed [[]] (by decide)).counts (processWith [[]]) (.initial 7) rfl
  exact absurd counted (by decide)

end Ksnap.Panel
