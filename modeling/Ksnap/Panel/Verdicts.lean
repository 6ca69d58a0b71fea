import Ksnap.Panel.Eligibility
import Ksnap.Panel.ReportLine

/-!
# The verdict on a report

For every report in the shape the engine prints, the level says what the most severe part
of the report is, refusals come before caveats, and the gate in front of a dump opens for
a dumpable report of exactly the process that was asked about.
-/

namespace Ksnap.Panel

open Foundation Raising

/-! ## Printed reports -/

/-- The facts that the panel calculates with. -/
def counters : List Text :=
  [text "argc", text "volatile_fds", text "open_fds", text "dumpable_fds", text "children",
    text "snapshot_bytes"]

/-- Facts as the engine prints them: the counters are integers and the path is a string,
where they are given. -/
structure PrintedFacts (facts : List (Text × Json)) : Prop where
  counters : ∀ name ∈ counters, ∀ value, member name facts = some value →
    ∃ number, value = .integer number
  exe : ∀ value, member (text "exe") facts = some value → ∃ path, value = .string path

/-- A reason of the engine. -/
structure PrintedReason : Type where
  code : Text
  detail : Text

/-- A report in the shape in which the engine prints one. -/
structure EngineReport : Type where
  pid : ℤ
  dumpable : Bool
  reasons : List PrintedReason
  facts : List (Text × Json)
  printed : PrintedFacts facts

def PrintedReason.json (reason : PrintedReason) : Json :=
  .dict [(text "code", .string reason.code), (text "detail", .string reason.detail)]

def EngineReport.json (report : EngineReport) : Json :=
  .dict [(text "pid", .integer report.pid), (text "dumpable", .boolean report.dumpable),
    (text "reasons", .list (report.reasons.map PrintedReason.json)),
    (text "facts", .dict report.facts)]

/-- The engine refuses, with reasons or without. -/
def EngineReport.Refused (report : EngineReport) : Prop :=
  report.dumpable = false ∨ report.reasons ≠ []

/-- A counter among the facts, 0 where it is not given. -/
def counter (name : String) (facts : List (Text × Json)) : ℤ :=
  match member (text name) facts with
  | some (.integer number) => number
  | _ => 0

/-- The path among the facts. -/
def exePath (facts : List (Text × Json)) : Text :=
  match member (text "exe") facts with
  | some (.string path) => path
  | _ => []

/-- A condition under which the restore is not faithful holds. -/
def HasCaveat (maxSnapshotMb : ℤ) (facts : List (Text × Json)) : Prop :=
  1 < counter "argc" facts ∨ 0 < counter "open_fds" facts - counter "dumpable_fds" facts ∨
    counter "children" facts ≠ 0 ∨
      maxSnapshotMb < counter "snapshot_bytes" facts / (1024 * 1024) ∨ 32 ∈ exePath facts

/-- A reason of the engine in the verdict. -/
def PrintedReason.refusal (reason : PrintedReason) : VerdictReason :=
  ⟨.string reason.code, .blocked,
    .string (if reason.detail = [] then reason.code else reason.detail)⟩

/-- The verdict says of the report what the engine and the facts say. -/
structure Judges (maxSnapshotMb : ℤ) (report : EngineReport) (verdict : Verdict) : Prop where
  blocked_iff : verdict.level = .blocked ↔ report.Refused
  risky_iff : verdict.level = .risky ↔ ¬report.Refused ∧ HasCaveat maxSnapshotMb report.facts
  ok_iff : verdict.level = .ok ↔ ¬report.Refused ∧ ¬HasCaveat maxSnapshotMb report.facts
  ordered : ∃ refusals caveats, verdict.reasons = refusals ++ caveats ∧
    (∀ reason ∈ refusals, reason.level = .blocked) ∧ (∀ reason ∈ caveats, reason.level = .risky) ∧
      (report.reasons ≠ [] → refusals = report.reasons.map PrintedReason.refusal)

/-! ## Caveats -/

section Facts

variable {facts : List (Text × Json)}

theorem factNumber_counter (printed : PrintedFacts facts) {name : String}
    (isCounter : text name ∈ counters) :
    factNumber name (.dict facts) = .ok (counter name facts) := by
  rw [counter]
  cases given : member (text name) facts with
  | none => simp [factNumber, fact, get, given, number, bind, Except.bind, pure, Except.pure]
  | some value =>
      rcases printed.counters _ isCounter value given with ⟨amount, rfl⟩
      simp [factNumber, fact, get, given, number, bind, Except.bind, pure, Except.pure]

theorem fact_counter (printed : PrintedFacts facts) {name : String}
    (isCounter : text name ∈ counters) :
    fact name (.dict facts) = .ok (.integer (counter name facts)) := by
  rw [counter]
  cases given : member (text name) facts with
  | none => simp [fact, get, given, bind, Except.bind, pure, Except.pure]
  | some value =>
      rcases printed.counters _ isCounter value given with ⟨amount, rfl⟩
      simp [fact, get, given, bind, Except.bind, pure, Except.pure]

theorem truthy_integer {amount : ℤ} : truthy (.integer amount) = true ↔ amount ≠ 0 :=
  decide_eq_true_iff

/-- The outcome is a list of caveats, which is not empty exactly under the condition. -/
def WarnsIf (condition : Prop) (outcome : Except PythonError (List VerdictReason)) : Prop :=
  ∃ found, outcome = .ok found ∧ (found ≠ [] ↔ condition) ∧ ∀ reason ∈ found, reason.level = .risky

theorem warnsIf_some {condition : Prop} (holds : condition) (code : String) (message : Text) :
    WarnsIf condition (.ok [caveat code message]) := by
  refine ⟨_, rfl, by simpa using holds, ?_⟩
  intro reason mem
  rw [List.mem_singleton.mp mem]
  rfl

theorem warnsIf_none {condition : Prop} (fails : ¬condition) : WarnsIf condition (.ok []) :=
  ⟨[], rfl, by simpa using fails, fun reason mem => absurd mem List.not_mem_nil⟩

theorem warnsIf_caveat {condition : Prop} [Decidable condition] (code : String) (message : Text) :
    WarnsIf condition (.ok (if condition then [caveat code message] else [])) := by
  by_cases holds : condition
  · rw [if_pos holds]
    exact warnsIf_some holds code message
  · rw [if_neg holds]
    exact warnsIf_none holds

theorem warnsIf_arguments (printed : PrintedFacts facts) :
    WarnsIf (1 < counter "argc" facts) (argumentsCaveat (.dict facts)) := by
  rw [argumentsCaveat, factNumber_counter printed (by decide)]
  exact warnsIf_caveat _ _

theorem warnsIf_openFiles (printed : PrintedFacts facts) :
    WarnsIf (0 < counter "open_fds" facts - counter "dumpable_fds" facts)
      (openFilesCaveat (.dict facts)) := by
  rw [openFilesCaveat, fact_counter printed (by decide), factNumber_counter printed (by decide),
    factNumber_counter printed (by decide)]
  simp only [bind, Except.bind, number]
  by_cases lost : 0 < counter "open_fds" facts - counter "dumpable_fds" facts
  · rw [if_pos lost]
    exact warnsIf_some lost _ _
  · rw [if_neg lost]
    exact warnsIf_none lost

theorem warnsIf_children (printed : PrintedFacts facts) :
    WarnsIf (counter "children" facts ≠ 0) (childrenCaveat (.dict facts)) := by
  rw [childrenCaveat, fact_counter printed (by decide)]
  simp only [bind, Except.bind, number]
  by_cases some_ : counter "children" facts ≠ 0
  · rw [if_pos (truthy_integer.mpr some_)]
    exact warnsIf_some some_ _ _
  · rw [if_neg (truthy_integer.not.mpr some_)]
    exact warnsIf_none some_

theorem warnsIf_size (maxSnapshotMb : ℤ) (printed : PrintedFacts facts) :
    WarnsIf (maxSnapshotMb < counter "snapshot_bytes" facts / (1024 * 1024))
      (sizeCaveat maxSnapshotMb (.dict facts)) := by
  rw [sizeCaveat, factNumber_counter printed (by decide)]
  exact warnsIf_caveat _ _

theorem warnsIf_path (printed : PrintedFacts facts) :
    WarnsIf (32 ∈ exePath facts) (pathCaveat (.dict facts)) := by
  have spaced : (get "exe" (.dict facts) >>= fun given => containsSpace (given.getD (.string []))) =
      .ok (decide (32 ∈ exePath facts)) := by
    rw [exePath, get]
    cases given : member (text "exe") facts with
    | none => rfl
    | some value =>
        rcases printed.exe value given with ⟨path, rfl⟩
        simp [containsSpace, bind, Except.bind]
  rw [pathCaveat, ← bind_assoc, spaced]
  by_cases holds : 32 ∈ exePath facts
  · rw [decide_eq_true holds]
    exact warnsIf_some holds _ _
  · rw [decide_eq_false holds]
    exact warnsIf_none holds

/-- The caveats together, one under each of its conditions. -/
theorem warnsIf_caveats (maxSnapshotMb : ℤ) (printed : PrintedFacts facts) :
    WarnsIf (HasCaveat maxSnapshotMb facts) (caveats maxSnapshotMb (.dict facts)) := by
  rcases warnsIf_arguments printed with ⟨arguments, argumentsRun, argumentsIff, argumentsRisky⟩
  rcases warnsIf_openFiles printed with ⟨openFiles, openFilesRun, openFilesIff, openFilesRisky⟩
  rcases warnsIf_children printed with ⟨children, childrenRun, childrenIff, childrenRisky⟩
  rcases warnsIf_size maxSnapshotMb printed with ⟨size, sizeRun, sizeIff, sizeRisky⟩
  rcases warnsIf_path printed with ⟨path, pathRun, pathIff, pathRisky⟩
  refine ⟨arguments ++ openFiles ++ children ++ size ++ path, ?_, ?_, ?_⟩
  · rw [caveats, argumentsRun, openFilesRun, childrenRun, sizeRun, pathRun]
    simp only [bind, Except.bind, pure, Except.pure]
  · rw [HasCaveat, ← argumentsIff, ← openFilesIff, ← childrenIff, ← sizeIff, ← pathIff]
    simp only [ne_eq, List.append_eq_nil_iff, not_and_or, or_assoc]
  · simp only [List.mem_append]
    rintro reason ((((mem | mem) | mem) | mem) | mem)
    · exact argumentsRisky reason mem
    · exact openFilesRisky reason mem
    · exact childrenRisky reason mem
    · exact sizeRisky reason mem
    · exact pathRisky reason mem

end Facts

/-! ## The order of the reasons -/

/-- How much a refusal or a caveat weighs. -/
def weight (reason : VerdictReason) : ℤ :=
  if reason.level = .blocked then 2 else 1

/-- Refusals in front of caveats are sorted already. -/
theorem sortReasons_eq {refusals caveats : List VerdictReason}
    (blocked : ∀ reason ∈ refusals, reason.level = .blocked)
    (risky : ∀ reason ∈ caveats, reason.level = .risky) :
    sortReasons (refusals ++ caveats) = .ok (refusals ++ caveats) := by
  have keyed : (refusals ++ caveats).mapM (fun reason => do
      let weight ← severity reason.level
      return (weight, reason)) =
        .ok ((refusals ++ caveats).map fun reason => (weight reason, reason)) := by
    apply mapM_ok
    intro reason mem
    rcases List.mem_append.mp mem with mem | mem
    · simp [weight, blocked reason mem, severity, bind, Except.bind, pure, Except.pure]
    · simp [weight, risky reason mem, severity, bind, Except.bind, pure, Except.pure]
  have sorted : ((refusals ++ caveats).map fun reason => (weight reason, reason)).Pairwise
      fun first second => second.1 ≤ first.1 := by
    rw [List.pairwise_map, List.pairwise_append]
    refine ⟨?_, ?_, ?_⟩
    · apply List.pairwise_of_forall_mem_list
      intro first firstMem second secondMem
      simp [weight, blocked first firstMem, blocked second secondMem]
    · apply List.pairwise_of_forall_mem_list
      intro first firstMem second secondMem
      simp [weight, risky first firstMem, risky second secondMem]
    · intro first firstMem second secondMem
      simp [weight, blocked first firstMem, risky second secondMem]
  rw [sortReasons, keyed]
  simp only [bind, Except.bind, pure, Except.pure, sorted.insertionSort_eq, List.map_map]
  simp [Function.comp_def]

/-! ## The verdict -/

theorem engineReason_json (reason : PrintedReason) :
    engineReason reason.json = .ok reason.refusal := by
  have code : member (text "code") [(text "code", .string reason.code),
      (text "detail", .string reason.detail)] = some (.string reason.code) := rfl
  have detail : member (text "detail") [(text "code", .string reason.code),
      (text "detail", .string reason.detail)] = some (.string reason.detail) := rfl
  rw [engineReason, PrintedReason.json, item, code, get, detail, PrintedReason.refusal]
  by_cases empty : reason.detail = []
  · simp [truthy, empty, bind, Except.bind, pure, Except.pure]
  · simp [truthy, empty, bind, Except.bind, pure, Except.pure]

/-- The refusals that a report stands for. -/
def EngineReport.refusals (report : EngineReport) : List VerdictReason :=
  if report.dumpable = false ∧ report.reasons = [] then [silentRefusal]
  else report.reasons.map PrintedReason.refusal

theorem refusals_ne_nil_iff (report : EngineReport) : report.refusals ≠ [] ↔ report.Refused := by
  rw [EngineReport.refusals, EngineReport.Refused]
  by_cases silent : report.dumpable = false ∧ report.reasons = []
  · simp [silent]
  · rw [if_neg silent]
    by_cases none_ : report.reasons = []
    · simp_all
    · simp [none_]

theorem blocked_of_mem_refusals {report : EngineReport} {reason : VerdictReason}
    (mem : reason ∈ report.refusals) : reason.level = .blocked := by
  rw [EngineReport.refusals] at mem
  split at mem
  · rw [List.mem_singleton.mp mem]
    rfl
  · rcases List.mem_map.mp mem with ⟨given, -, rfl⟩
    rfl

theorem verdictFromReport_json (maxSnapshotMb : ℤ) (report : EngineReport)
    {risks : List VerdictReason} (risk : caveats maxSnapshotMb (.dict report.facts) = .ok risks)
    (risky : ∀ reason ∈ risks, reason.level = .risky) :
    verdictFromReport maxSnapshotMb report.json =
      .ok ⟨levelOf (report.refusals ++ risks), report.refusals ++ risks, text "engine",
        .dict report.facts⟩ := by
  have facts : get "facts" report.json = .ok (some (.dict report.facts)) := rfl
  have given : get "reasons" report.json =
      .ok (some (.list (report.reasons.map PrintedReason.json))) := rfl
  have dumpable : get "dumpable" report.json = .ok (some (.boolean report.dumpable)) := rfl
  have reasons : (report.reasons.map PrintedReason.json).mapM engineReason =
      .ok (report.reasons.map PrintedReason.refusal) := by
    rw [List.mapM_map]
    exact mapM_ok fun reason _ => engineReason_json reason
  have refusals : (if !truthy (.boolean report.dumpable) &&
      (report.reasons.map PrintedReason.refusal).isEmpty then
        report.reasons.map PrintedReason.refusal ++ [silentRefusal]
      else report.reasons.map PrintedReason.refusal) = report.refusals := by
    rw [EngineReport.refusals]
    by_cases silent : report.dumpable = false ∧ report.reasons = []
    · simp [silent, truthy]
    · rw [if_neg silent, if_neg]
      simpa [truthy] using silent
  have blocked : ∀ reason ∈ report.refusals, reason.level = .blocked :=
    fun reason mem => blocked_of_mem_refusals mem
  have isObject : report.json = .null → False := nofun
  rw [verdictFromReport.eq_2 _ _ isObject, facts, given, dumpable]
  simp only [bind, Except.bind, Option.getD_some, iterate, reasons, refusals, risk,
    sortReasons_eq blocked risky]
  rfl

/-- The level is that of the refusals, where there are any, and otherwise that of the risks. -/
theorem levelOf_append {refusals risks : List VerdictReason}
    (blocked : ∀ reason ∈ refusals, reason.level = .blocked)
    (risky : ∀ reason ∈ risks, reason.level = .risky) :
    (levelOf (refusals ++ risks) = .blocked ↔ refusals ≠ []) ∧
      (levelOf (refusals ++ risks) = .risky ↔ ¬refusals ≠ [] ∧ risks ≠ []) ∧
        (levelOf (refusals ++ risks) = .ok ↔ ¬refusals ≠ [] ∧ ¬risks ≠ []) := by
  cases refusals with
  | cons first others => simp [levelOf, blocked first List.mem_cons_self]
  | nil =>
      cases risks with
      | cons first others => simp [levelOf, risky first List.mem_cons_self]
      | nil => simp [levelOf]

/-- Every printed report has a verdict, and it judges the report. -/
theorem judges (maxSnapshotMb : ℤ) (report : EngineReport) :
    ∃ verdict, verdictFromReport maxSnapshotMb report.json = .ok verdict ∧
      Judges maxSnapshotMb report verdict := by
  rcases warnsIf_caveats maxSnapshotMb report.printed with ⟨risks, risk, conditions, risky⟩
  have blocked : ∀ reason ∈ report.refusals, reason.level = .blocked :=
    fun reason mem => blocked_of_mem_refusals mem
  refine ⟨_, verdictFromReport_json maxSnapshotMb report risk risky, ?_⟩
  have refused := refusals_ne_nil_iff report
  rcases levelOf_append blocked risky with ⟨isBlocked, isRisky, isOk⟩
  refine ⟨isBlocked.trans refused, isRisky.trans (and_congr refused.not conditions),
    isOk.trans (and_congr refused.not conditions.not), report.refusals, risks, rfl, blocked,
    risky, ?_⟩
  intro given
  rw [EngineReport.refusals, if_neg fun silent => given silent.2]

/-! ## The gate -/

/-- What the gate does with the reports that came. -/
def gate (maxSnapshotMb pid : ℤ) (reports : List (ℤ × Json)) : Except PythonError Verdict := do
  let verdict ← verdictFromReport maxSnapshotMb ((reports.lookup pid).getD .null)
  if verdict.level = .blocked ∨ verdict.level = .unknown then do
    let reasons ← joinMessages (verdict.describe (some verdict.level))
    throw (.processError (text "pid " ++ decimal pid ++ text " cannot be snapshotted: " ++ reasons))
  else return verdict

theorem gate_of_verdict {maxSnapshotMb pid : ℤ} {reports : List (ℤ × Json)} {verdict : Verdict}
    (judged : verdictFromReport maxSnapshotMb ((reports.lookup pid).getD .null) = .ok verdict) :
    (∃ passed, gate maxSnapshotMb pid reports = .ok passed) ↔
      verdict.level ≠ .blocked ∧ verdict.level ≠ .unknown := by
  rw [gate, judged]
  simp only [bind, Except.bind]
  by_cases refused : verdict.level = .blocked ∨ verdict.level = .unknown
  · rw [if_pos refused]
    cases joinMessages (verdict.describe (some verdict.level)) with
    | error raised => simpa using fun notBlocked => refused.resolve_left notBlocked
    | ok reasons =>
        simpa [throw, throwThe, MonadExceptOf.throw] using
          fun notBlocked => refused.resolve_left notBlocked
  · rw [if_neg refused]
    simpa [pure, Except.pure] using not_or.mp refused

/-- Every report for the pid is one that the engine prints. -/
def PrintedFor (pid : ℤ) (checked : Except PythonError (List (ℤ × Json))) : Prop :=
  ∀ reports, checked = .ok reports → ∀ json, reports.lookup pid = some json →
    ∃ report : EngineReport, json = report.json

/-- There is a report for exactly this pid, dumpable and without reasons. -/
def Dumpable (pid : ℤ) (checked : Except PythonError (List (ℤ × Json))) : Prop :=
  ∃ reports, checked = .ok reports ∧ ∃ report : EngineReport,
    reports.lookup pid = some report.json ∧ report.dumpable = true ∧ report.reasons = []

theorem refused_iff_of_json {report other : EngineReport} (same : report.json = other.json) :
    report.Refused ↔ other.Refused := by
  simp only [EngineReport.json, Json.dict.injEq, List.cons.injEq, Prod.mk.injEq, Json.boolean.injEq,
    Json.list.injEq] at same
  rcases same with ⟨-, ⟨-, dumpable⟩, ⟨-, reasons⟩, -⟩
  have empty : report.reasons = [] ↔ other.reasons = [] := by
    rw [← List.map_eq_nil_iff, reasons, List.map_eq_nil_iff]
  rw [EngineReport.Refused, EngineReport.Refused, dumpable, ne_eq, ne_eq, empty]

theorem Judges.passes_iff {maxSnapshotMb : ℤ} {report : EngineReport} {verdict : Verdict}
    (judged : Judges maxSnapshotMb report verdict) :
    verdict.level ≠ .blocked ∧ verdict.level ≠ .unknown ↔ ¬report.Refused := by
  constructor
  · exact fun passes refused => passes.1 (judged.blocked_iff.mpr refused)
  · intro accepted
    refine ⟨fun blocked => accepted (judged.blocked_iff.mp blocked), ?_⟩
    by_cases caveat : HasCaveat maxSnapshotMb report.facts
    · rw [judged.risky_iff.mpr ⟨accepted, caveat⟩]
      exact VerdictLevel.noConfusion
    · rw [judged.ok_iff.mpr ⟨accepted, caveat⟩]
      exact VerdictLevel.noConfusion

theorem not_refused_iff (report : EngineReport) :
    ¬report.Refused ↔ report.dumpable = true ∧ report.reasons = [] := by
  simp [EngineReport.Refused]

theorem gate_iff {maxSnapshotMb pid : ℤ} {reports : List (ℤ × Json)}
    (printed : PrintedFor pid (.ok reports)) :
    (∃ passed, gate maxSnapshotMb pid reports = .ok passed) ↔ Dumpable pid (.ok reports) := by
  cases found : reports.lookup pid with
  | none =>
      have unknown : ¬∃ passed, gate maxSnapshotMb pid reports = .ok passed := by
        have judged : verdictFromReport maxSnapshotMb ((reports.lookup pid).getD .null) =
            .ok (unavailable (text "the engine did not report on this process")) := by
          rw [found]
          rfl
        rw [gate_of_verdict judged]
        exact fun passes => passes.2 rfl
      refine iff_of_false unknown ?_
      rintro ⟨given, same, report, some_, -⟩
      cases same
      rw [found] at some_
      cases some_
  | some json =>
      rcases printed reports rfl json found with ⟨report, rfl⟩
      rcases judges maxSnapshotMb report with ⟨verdict, judged, judges⟩
      have passes : (∃ passed, gate maxSnapshotMb pid reports = .ok passed) ↔ ¬report.Refused := by
        apply Iff.trans (gate_of_verdict _) judges.passes_iff
        rw [found]
        exact judged
      rw [passes]
      constructor
      · exact fun accepted =>
          ⟨reports, rfl, report, found, (not_refused_iff report).mp accepted⟩
      · rintro ⟨given, again, other, same, accepted⟩
        cases again
        rw [refused_iff_of_json (Option.some.inj (found.symm.trans same))]
        exact (not_refused_iff other).mpr accepted

/-- Behind the check, the gate makes no calls. -/
theorem requireDumpable_eq (config : Config) (depth : ℕ) (timeout : Text) (maxSnapshotMb pid : ℤ) :
    requireDumpable config depth timeout maxSnapshotMb pid =
      check config depth timeout (some pid) >>= fun reports =>
        liftExcept (gate maxSnapshotMb pid reports) := by
  rw [requireDumpable]
  congr 1
  funext reports
  rw [gate]
  cases verdictFromReport maxSnapshotMb ((reports.lookup pid).getD .null) with
  | error raised => rfl
  | ok verdict =>
      change (if verdict.level = .blocked ∨ verdict.level = .unknown then _ else _) =
        liftExcept (if verdict.level = .blocked ∨ verdict.level = .unknown then _ else _)
      by_cases refused : verdict.level = .blocked ∨ verdict.level = .unknown
      · rw [if_pos refused, if_pos refused]
        cases joinMessages (verdict.describe (some verdict.level)) with
        | error raised => rfl
        | ok reasons => rfl
      · rw [if_neg refused, if_neg refused]
        rfl

theorem exec_liftExcept {α : Type} {env : Environment PanelInterface} {state final : env.State}
    {plain outcome : Except PythonError α}
    (ran : (liftExcept plain : Request α).run.Exec env state outcome final) :
    outcome = plain ∧ final = state := by
  cases plain with
  | ok value => exact ran
  | error raised => exact ran

/-- The verdicts and the gate in front of a dump are exact. -/
structure GateExact (maxSnapshotMb : ℤ) : Prop where
  judges : ∀ report : EngineReport, ∃ verdict,
    verdictFromReport maxSnapshotMb report.json = .ok verdict ∧ Judges maxSnapshotMb report verdict
  gates : ∀ config depth timeout pid answers state outcome final,
    (requireDumpable config depth timeout maxSnapshotMb pid).run.Exec (answering answers) state
      outcome final →
    ∃ checked, (check config depth timeout (some pid)).run.Exec (answering answers) state checked
      final ∧ (PrintedFor pid checked → ((∃ verdict, outcome = .ok verdict) ↔ Dumpable pid checked))

/-- Every printed report is judged by what it says, and the gate opens in exactly those runs
whose check came back with a dumpable report for the pid. -/
theorem gateExact (maxSnapshotMb : ℤ) : GateExact maxSnapshotMb := by
  constructor
  · exact judges maxSnapshotMb
  · intro config depth timeout pid answers state outcome final ran
    rw [requireDumpable_eq] at ran
    rcases exec_raising_bind.mp ran with ⟨reports, middle, checked, opened⟩ | ⟨raised, checked, rfl⟩
    · rcases exec_liftExcept opened with ⟨rfl, rfl⟩
      exact ⟨.ok reports, checked, gate_iff⟩
    · refine ⟨.error raised, checked, fun _ => iff_of_false ?_ ?_⟩
      · rintro ⟨verdict, same⟩
        cases same
      · rintro ⟨reports, same, -⟩
        cases same

end Ksnap.Panel
