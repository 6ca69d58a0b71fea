import Ksnap.Check.Reasons
import Ksnap.Check.Sweep

/-!
# What Check does to a process

Whatever the kernel answers, a check of one process looks at it first, and attaches only when
nothing was found against it. A seize that went through is followed by exactly one detach, behind
which only the report is printed. A check of every process uses no ptrace at all.
-/

namespace Ksnap

open Foundation Foundation.Program

def UsesPtrace : CheckCall → Prop
  | .seize _ | .interrupt _ | .waitStop _ | .detach _ => True
  | _ => False

/-- A call that neither uses ptrace nor prints. -/
def Looks (request : CheckCall) : Prop :=
  ¬UsesPtrace request ∧ printedBy request = []

/-- The calls of a probe: what was seized is let go again, once and at the end. -/
inductive Attached (pid : Int32) : List CheckEvent → Prop
  | refused (errno : Errno) : Attached pid [⟨.seize pid, some errno⟩]
  | running (errno : Errno) (detached : Option Errno) : Attached pid
      [⟨.seize pid, none⟩, ⟨.interrupt pid, some errno⟩, ⟨.detach pid, detached⟩]
  | stopped (waited : Option Bool) (detached : Option Errno) : Attached pid
      [⟨.seize pid, none⟩, ⟨.interrupt pid, none⟩, ⟨.waitStop pid, waited⟩,
        ⟨.detach pid, detached⟩]

/-- The calls of a check of one process: it looks, it probes what it has found nothing against if
it is to probe at all, and at the end it prints its report. -/
structure Checked (pid : Int32) (probe : Bool) (code : ℤ) (looked attached : List CheckEvent)
    (report : CheckReport) : Prop where
  looked : ∀ event ∈ looked, Looks event.request
  attached : attached = [] ∨ probe = true ∧ Attached pid attached ∧
    ∀ reason ∈ report.reasons, reason.code = .ptraceRefused
  code : code = exitCodeOf report

/-- The record of a check of one process. -/
def RecordsCheck (pid : Int32) (probe : Bool) (code : ℤ) (trace : List CheckEvent) : Prop :=
  ∃ looked attached report, trace = looked ++ attached ++ [⟨.printReport report, ()⟩] ∧
    Checked pid probe code looked attached report

/-! ## Calls that only look -/

theorem onlyCalls_probeExe (pid : Int32) (report : CheckReport) :
    (CheckMode.probeExe pid report).OnlyCalls Looks := by
  refine (onlyCalls_perform.mpr ⟨id, rfl⟩).bind fun exe => ?_
  cases exe with
  | error errno => exact onlyCalls_pure
  | ok link =>
      dsimp only
      split
      · exact (onlyCalls_perform.mpr ⟨id, rfl⟩).bind fun _ => onlyCalls_pure
      · exact onlyCalls_pure

/-- The record while Check only looks. -/
def OnlyLooked (trace : List CheckEvent) : Prop :=
  ∀ event ∈ trace, Looks event.request

theorem OnlyLooked.append {trace more : List CheckEvent} (only : OnlyLooked trace)
    (looks : OnlyLooked more) : OnlyLooked (trace ++ more) := by
  intro event mem
  rcases List.mem_append.mp mem with earlier | later
  · exact only event earlier
  · exact looks event later

theorem OnlyLooked.concat {trace : List CheckEvent} (only : OnlyLooked trace)
    {request : CheckCall} (looks : Looks request) (reply : request.Reply) :
    OnlyLooked (trace ++ [⟨request, reply⟩]) := by
  refine only.append fun event mem => ?_
  rw [List.mem_singleton.mp mem]
  exact looks

/-! ## The probe -/

theorem probed_reasons {process : CheckedProcess} {report : CheckReport}
    (clean : report.reasons = []) :
    ∀ reason ∈ (probePtrace process report).reasons, reason.code = .ptraceRefused := by
  have begins : Gives report [] 0 := ⟨by rw [clean]; rfl, le_rfl⟩
  have gives := (gives_probePtrace begins process).same
  intro reason mem
  have code := List.mem_map_of_mem (f := CheckReason.code) mem
  rw [gives, attachRefusals] at code
  split at code
  · exact List.mem_singleton.mp code
  · rcases List.mem_append.mp code with stopped | detached
    · exact (mem_refusal stopped).1
    · exact (mem_refusal detached).1

theorem probePtrace_spec {report : CheckReport} (clean : report.reasons = []) (pid : Int32)
    (trace : List CheckEvent) :
    (CheckMode.probePtrace pid report).Ensures (recording CheckInterface) (fun _ => True)
      (fun result final => ∃ attached, final = trace ++ attached ∧ Attached pid attached ∧
        ∀ reason ∈ result.reasons, reason.code = .ptraceRefused) trace := by
  rw [CheckMode.probePtrace, ensures_perform_bind]
  rintro seized _ rfl
  refine ⟨trivial, ?_⟩
  cases seized with
  | some errno => exact ⟨_, rfl, .refused errno, probed_reasons clean⟩
  | none =>
      dsimp only
      rw [ensures_perform_bind]
      rintro interrupted _ rfl
      refine ⟨trivial, ?_⟩
      cases interrupted with
      | some errno =>
          dsimp only
          rw [ensures_perform_bind]
          rintro detached _ rfl
          exact ⟨trivial, _, by simp, .running errno detached, probed_reasons clean⟩
      | none =>
          dsimp only
          rw [ensures_perform_bind]
          rintro waited _ rfl
          refine ⟨trivial, ?_⟩
          rw [ensures_perform_bind]
          rintro detached _ rfl
          exact ⟨trivial, _, by simp, .stopped waited detached, probed_reasons clean⟩

/-! ## A check of one process -/

theorem conclude_spec {pid : Int32} {probe : Bool} {code : ℤ} {looked attached : List CheckEvent}
    {report : CheckReport} (checked : Checked pid probe code looked attached report) :
    (CheckMode.conclude report code).Ensures (recording CheckInterface) (fun _ => True)
      (RecordsCheck pid probe) (looked ++ attached) := by
  rintro _ _ rfl
  exact ⟨trivial, looked, attached, report, rfl, checked⟩

/-- A report that Check comes to early on, with nothing attached to. -/
theorem conclude_early {pid : Int32} {probe : Bool} {looked : List CheckEvent}
    {report : CheckReport} (only : OnlyLooked looked) (refused : report.reasons ≠ []) :
    (CheckMode.conclude report checkExitBlocked).Ensures (recording CheckInterface)
      (fun _ => True) (RecordsCheck pid probe) looked := by
  have code : checkExitBlocked = exitCodeOf report := by
    rw [exitCodeOf, if_neg]
    exact fun none_ => refused (List.length_eq_zero_iff.mp none_)
  have checked : Checked pid probe checkExitBlocked looked [] report := ⟨only, .inl rfl, code⟩
  have spec := conclude_spec checked
  rwa [List.append_nil] at spec

theorem probeClean_spec {trace : List CheckEvent} (pid : Int32) (probe : Bool)
    (report : CheckReport) :
    (CheckMode.probeClean pid probe report).Ensures (recording CheckInterface) (fun _ => True)
      (fun result final => ∃ attached, final = trace ++ attached ∧
        (attached = [] ∨ probe = true ∧ Attached pid attached ∧
          ∀ reason ∈ result.reasons, reason.code = .ptraceRefused)) trace := by
  rw [CheckMode.probeClean]
  split
  · next probes =>
    rcases Bool.and_eq_true_iff.mp probes with ⟨asked, none_⟩
    have clean : report.reasons = [] := List.length_eq_zero_iff.mp (of_decide_eq_true none_)
    refine (probePtrace_spec clean pid trace).mono ?_
    rintro result final ⟨attached, same, isAttached, reasons⟩
    exact ⟨attached, same, .inr ⟨asked, isAttached, reasons⟩⟩
  · exact ⟨[], (List.append_nil _).symm, .inl rfl⟩

theorem scanProcess_spec {looked : List CheckEvent} (only : OnlyLooked looked) (pid : Int32)
    (probe : Bool) (report : CheckReport) :
    (CheckMode.scanProcess pid probe report).Ensures (recording CheckInterface) (fun _ => True)
      (RecordsCheck pid probe) looked := by
  rw [CheckMode.scanProcess, ensures_bind]
  refine ((onlyCalls_probeExe pid report).ensures_record looked).mono ?_
  rintro exe _ ⟨asked, rfl, asks⟩
  have only := only.append asks
  rw [ensures_perform_bind]
  rintro maps _ rfl
  refine ⟨trivial, ?_⟩
  have only := @OnlyLooked.concat _ only (.readMaps pid) ⟨id, rfl⟩ maps
  rw [ensures_perform_bind]
  rintro files _ rfl
  refine ⟨trivial, ?_⟩
  have only := @OnlyLooked.concat _ only (.readFds pid) ⟨id, rfl⟩ files
  rw [ensures_perform_bind]
  rintro children _ rfl
  refine ⟨trivial, ?_⟩
  have only := @OnlyLooked.concat _ only (.readChildren pid) ⟨id, rfl⟩ children
  rw [ensures_bind]
  refine (probeClean_spec pid probe _).mono ?_
  rintro result _ ⟨attached, rfl, isAttached⟩
  exact conclude_spec ⟨only, isAttached, rfl⟩

theorem reasons_of_readStatusFields {process : CheckedProcess} {start report : CheckReport}
    (failed : readStatusFields process start = .error report) : report.reasons ≠ [] := by
  rw [readStatusFields] at failed
  split at failed
  · cases failed
    exact reasons_addInaccessible_ne_nil _ _ _ _ _
  · cases failed

theorem checkOne_spec (pid : Int32) (probe : Bool) :
    (CheckMode.checkOne pid probe).Ensures (recording CheckInterface) (fun _ => True)
      (RecordsCheck pid probe) [] := by
  rw [CheckMode.checkOne, ensures_perform_bind]
  rintro status _ rfl
  refine ⟨trivial, ?_⟩
  have nothing : OnlyLooked [] := fun event mem => absurd mem List.not_mem_nil
  have only := @OnlyLooked.concat _ nothing (.readStatus pid) ⟨id, rfl⟩ status
  split
  · next report failed => exact conclude_early only (reasons_of_readStatusFields failed)
  · next report _ =>
    rw [ensures_perform_bind]
    rintro cmdline _ rfl
    refine ⟨trivial, ?_⟩
    have only := @OnlyLooked.concat _ only (.readCmdline pid) ⟨id, rfl⟩ cmdline
    generalize cheapVerdicts (readCmdlineArgc { unasked pid with cmdline } report) = settled
    dsimp only
    split
    · next refused => exact conclude_early only (List.ne_nil_of_length_pos refused)
    · exact scanProcess_spec only pid probe settled

/-! ## Every process -/

/-- A call that no check without a probe does more than. -/
def Unattached (request : CheckCall) : Prop := ¬UsesPtrace request

theorem onlyCalls_checkOne (pid : Int32) :
    (CheckMode.checkOne pid false).OnlyCalls Unattached := by
  refine (onlyCalls_perform.mpr id).bind fun status => ?_
  split
  · exact (onlyCalls_perform.mpr id).bind fun _ => onlyCalls_pure
  · refine (onlyCalls_perform.mpr id).bind fun cmdline => ?_
    dsimp only
    split
    · exact (onlyCalls_perform.mpr id).bind fun _ => onlyCalls_pure
    · refine ((onlyCalls_probeExe pid _).mono fun _ looks => looks.1).bind fun exe => ?_
      refine (onlyCalls_perform.mpr id).bind fun maps => ?_
      refine (onlyCalls_perform.mpr id).bind fun files => ?_
      refine (onlyCalls_perform.mpr id).bind fun children => ?_
      exact (onlyCalls_perform.mpr id).bind fun _ => onlyCalls_pure

theorem onlyCalls_checkEntries (self : Int32) (names : List Bytes) :
    (CheckMode.checkEntries self names).OnlyCalls Unattached := by
  induction names with
  | nil => exact onlyCalls_pure
  | cons name names ih =>
      refine OnlyCalls.bind ?_ fun _ => ih
      rw [CheckMode.checkEntry]
      split
      · exact (onlyCalls_checkOne (atoi name)).bind fun _ => onlyCalls_pure
      · exact onlyCalls_pure

theorem onlyCalls_checkAll : CheckMode.checkAll.OnlyCalls Unattached := by
  refine (onlyCalls_perform.mpr id).bind fun names => ?_
  cases names with
  | none => exact onlyCalls_pure
  | some names =>
      refine (onlyCalls_perform.mpr id).bind fun self => ?_
      exact (onlyCalls_checkEntries self names).bind fun _ => onlyCalls_pure

theorem check_attaches {pid : Int32} {code : ℤ} {trace : List CheckEvent}
    (run : (CheckMode.check pid).Exec (recording CheckInterface) [] code trace) :
    if pid = -1 then ∀ event ∈ trace, ¬UsesPtrace event.request
    else RecordsCheck pid true code trace := by
  rw [CheckMode.check] at run
  split
  · next every =>
    rw [if_pos every] at run
    rcases (onlyCalls_checkAll.ensures_record []).exec run with ⟨new, rfl, calls⟩
    exact calls
  · next one =>
    rw [if_neg one] at run
    exact (checkOne_spec pid true).exec run

/-- The answers of a process that can be dumped. -/
def answersOf (process : CheckedProcess) : (request : CheckCall) → request.Reply
  | .openProc => none
  | .getPid => (1 : Int32)
  | .readStatus _ => process.status
  | .readCmdline _ => process.cmdline
  | .readExe _ => process.exe
  | .access path => process.access path
  | .readMaps _ => process.maps
  | .readFds _ => process.files
  | .readChildren _ => process.children
  | .seize _ => process.seize
  | .interrupt _ => process.interrupt
  | .waitStop _ => process.waitStop
  | .detach _ => process.detach
  | .printReport _ => ()

/-- A process with nothing against it is attached to, and let go. -/
theorem check_attaches_sample : ∃ trace,
    (CheckMode.check 7).Exec (recording CheckInterface) [] 0 trace ∧
      (if (7 : Int32) = -1 then ∀ event ∈ trace, ¬UsesPtrace event.request
        else RecordsCheck 7 true 0 trace) := by
  have evaluates : ((CheckMode.check 7).evaluate
      (fun trace request => (answersOf sampleProcess request,
        trace ++ [⟨request, answersOf sampleProcess request⟩])) ([] : List CheckEvent)).map
          Prod.fst = some 0 := by
    decide +kernel
  rcases Option.map_eq_some_iff.mp evaluates with ⟨⟨code, trace⟩, evaluated, rfl⟩
  have run : (CheckMode.check 7).Exec (recording CheckInterface) [] 0 trace :=
    exec_of_evaluate (fun _ _ => rfl) evaluated
  exact ⟨trace, run, check_attaches run⟩

end Ksnap
