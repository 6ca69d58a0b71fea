import Ksnap.Foundation.Lines
import Ksnap.Foundation.Numeral
import Ksnap.Panel.Engine

/-!
# Reading the engine's reports

`check` of `engine.py` runs the engine and reads one report a line. What a line holds may
be unreadable, and then the line is logged and left out. The output is decoded as a whole
before any line is looked at, and the handler of a line knows three kinds of exceptions.
How deep `json` can go before it raises `RecursionError` depends on the interpreter and is
a parameter.
-/

namespace Ksnap.Panel

open Foundation Raising

/-! ## One line -/

/-- `json.loads(line)` -/
def jsonLoads (depth : ℕ) (line : Text) : Except PythonError Json :=
  match loads (.python depth) line with
  | .ok value => .ok value
  | .error .tooDeep => .error .recursionError
  | .error _ => .error (.valueError [])

/-- The member with a name, the last one where there are several. -/
def member (name : Text) (members : List (Text × Json)) : Option Json :=
  members.reverse.lookup name

/-- `report["pid"]` -/
def readPid : Json → Except PythonError Json
  | .dict members =>
      match member (text "pid") members with
      | some pid => .ok pid
      | none => .error .keyError
  | _ => .error .typeError

/-- `int(value)` -/
def toInt : Json → Except PythonError ℤ
  | .integer number => .ok number
  | .boolean value => .ok (if value then 1 else 0)
  | .float literal =>
      match truncateFloat literal with
      | .whole number => .ok number
      | .notANumber => .error (.valueError [])
      | .infinite => .error .overflowError
  | .string value =>
      match intOfText (some 4300) value with
      | some number => .ok number
      | none => .error (.valueError [])
  | _ => .error .typeError

/-- The report of a line, with its pid. -/
def readReport (depth : ℕ) (line : Text) : Except PythonError (ℤ × Json) := do
  let report ← jsonLoads depth line
  let given ← readPid report
  let pid ← toInt given
  return (pid, report)

/-- `except (ValueError, KeyError, TypeError)` -/
def isUnreadable (error : PythonError) : Bool :=
  error.isValueError || error = .keyError || error = .typeError

/-- `reports[pid] = report` -/
def putReport (reports : List (ℤ × Json)) (pid : ℤ) (report : Json) : List (ℤ × Json) :=
  if reports.any (·.1 = pid) then
    reports.map fun entry => if entry.1 = pid then (pid, report) else entry
  else reports ++ [(pid, report)]

def readLine (depth : ℕ) (reports : List (ℤ × Json)) (line : Text) :
    Request (List (ℤ × Json)) :=
  let line := strip line
  if line = [] then pure reports
  else
    catching
      (do
        let (pid, report) ← liftExcept (readReport depth line)
        return putReport reports pid report)
      isUnreadable
      fun _ => do
        log (text "unreadable check output: " ++ line.take 120) .error (text "check")
        return reports

/-! ## `check` -/

variable (config : Config)

/-- `CHECK_EXIT_BLOCKED` -/
def checkExitBlocked : ℤ := 11

/-- The exit of `check` for a run that is no answer. -/
def refuseUnanswered (completed : Completed Text) : Request Unit :=
  if completed.returncode = 0 ∨ completed.returncode = checkExitBlocked then pure ()
  else do
    let message := explainFailure config completed.returncode (strip completed.stderr)
    log (text "Eligibility check failed: " ++ message) .error (text "check")
    throw (.engineError message)

/-- `check`. The timeout is a number of seconds, as `"%.0f"` prints it. -/
def check (depth : ℕ) (timeout : Text) (pid : Option ℤ) : Request (List (ℤ × Json)) := do
  let engine ← binary config
  let completed ← runEngine (command config engine (.check pid))
    (text "the eligibility check timed out after " ++ timeout ++ text "s")
  refuseUnanswered config completed
  (splitlines completed.stdout).foldlM (readLine depth) []

/-! ## What it comes to -/

/-- What `readLine` does to the reports. -/
def gatherLine (depth : ℕ) (reports : List (ℤ × Json)) (line : Text) :
    Except PythonError (List (ℤ × Json)) :=
  if strip line = [] then .ok reports
  else
    match readReport depth (strip line) with
    | .ok (pid, report) => .ok (putReport reports pid report)
    | .error error => if isUnreadable error then .ok reports else .error error

/-- The reports in the output of an engine that answered. -/
def gather (depth : ℕ) (stdout : Text) : Except PythonError (List (ℤ × Json)) :=
  (splitlines stdout).foldlM (gatherLine depth) []

/-- The engine is there and ends like this, whatever else happens. -/
def EngineWrote (completed : Completed Bytes) : (request : PanelCall) → request.Reply → Prop
  | .isFile _, reply => reply = .ok true
  | .isExecutable _, executable => executable = true
  | .run _, reply => reply = .ok completed
  | _, _ => True

/-- What `check` makes of the end of an engine that answers. -/
def checkOutcome (depth : ℕ) (completed : Completed Bytes) :
    Except PythonError (List (ℤ × Json)) := do
  let stdout ← decodeOutput completed.stdout
  let _ ← decodeOutput completed.stderr
  gather depth stdout

/-- The engine is there, a run of the command ends like this, and the console takes every
line. -/
structure EngineEnds (env : Environment PanelInterface) (config : Config)
    (command : EngineCommand) (completed : Completed Bytes) : Prop where
  isFile : Yields env ((PanelCall.isFile config.engineBinary).attempt id : Request Bool)
    (.ok true)
  isExecutable : Yields env ((PanelCall.isExecutable config.engineBinary).ask id : Request Bool)
    (.ok true)
  run : Yields env ((PanelCall.run command).attempt id : Request (Completed Bytes))
    (.ok completed)
  log : ∀ message level source, Yields env (log message level source) (.ok ())

section Outcome

variable {env : Environment PanelInterface} {config : Config} {engineCommand : EngineCommand}
  {completed : Completed Bytes}

theorem engineEnds_of_engineWrote :
    EngineEnds (answering (EngineWrote completed)) config engineCommand completed where
  isFile := yields_call (.ok true) rfl fun _ given => given
  isExecutable := yields_call true rfl fun _ given => congrArg Except.ok given
  run := yields_call (.ok completed) rfl fun _ given => given
  log := by
    intro message level source
    have reply : (PanelCall.log message level source).Reply := ()
    exact yields_call reply trivial fun _ _ => rfl

theorem EngineEnds.binary (ends : EngineEnds env config engineCommand completed) :
    Yields env (binary config) (.ok config.engineBinary) := by
  have isUsable : Yields env (usable config.engineBinary) (.ok true) :=
    ends.isFile.bind_ok ends.isExecutable
  exact isUsable.bind_ok Yields.of_pure

/-- `runEngine` fails only where the output is not decoded. -/
theorem EngineEnds.runEngine (ends : EngineEnds env config engineCommand completed)
    (timedOut : Text) :
    Yields env (runEngine engineCommand timedOut)
      (match decodeStrict completed.stdout, decodeStrict completed.stderr with
        | some stdout, some stderr =>
            .ok ⟨completed.returncode, universalNewlines stdout, universalNewlines stderr⟩
        | _, _ => .error .unicodeDecodeError) := by
  have decodes : ∀ raw decoded, decodeStrict raw = some decoded →
      Yields env (liftExcept (decodeOutput raw) : Request Text)
        (.ok (universalNewlines decoded)) := by
    intro raw decoded isText
    rw [decodeOutput, isText]
    exact Yields.of_liftExcept
  have refuses : ∀ raw, decodeStrict raw = none →
      Yields env (liftExcept (decodeOutput raw) : Request Text) (.error .unicodeDecodeError) := by
    intro raw noText
    rw [decodeOutput, noText]
    exact Yields.of_liftExcept
  have handles : ∀ error : PythonError, Yields env
      (if error = .timeoutExpired then throw (.engineError timedOut)
        else throw (.engineError (text "cannot start the engine: " ++ error.reason)) :
          Request (Completed Text))
      (.error (if error = .timeoutExpired then .engineError timedOut
        else .engineError (text "cannot start the engine: " ++ error.reason))) := by
    intro error
    split
    · exact Yields.of_throw
    · exact Yields.of_throw
  have caught : ∀ outcome, Yields env
      (do
        let completed ← (PanelCall.run engineCommand).attempt id
        let stdout ← liftExcept (decodeOutput completed.stdout)
        let stderr ← liftExcept (decodeOutput completed.stderr)
        return { returncode := completed.returncode, stdout, stderr } : Request (Completed Text))
      outcome → Yields env (Panel.runEngine engineCommand timedOut)
        (rescue (fun error => error.isOsError || error = .timeoutExpired) _ outcome) :=
    fun _ body => body.catching handles
  cases stdout : decodeStrict completed.stdout with
  | none => exact caught _ (ends.run.bind_ok (refuses _ stdout).bind_error)
  | some out =>
      have first := decodes _ out stdout
      cases stderr : decodeStrict completed.stderr with
      | none => exact caught _ (ends.run.bind_ok (first.bind_ok (refuses _ stderr).bind_error))
      | some err =>
          exact caught _ (ends.run.bind_ok (first.bind_ok ((decodes _ err stderr).bind_ok
            Yields.of_pure)))

theorem EngineEnds.readLine (ends : EngineEnds env config engineCommand completed) (depth : ℕ)
    (reports : List (ℤ × Json)) (line : Text) :
    Yields env (readLine depth reports line) (gatherLine depth reports line) := by
  rw [Panel.readLine, gatherLine]
  split
  · exact Yields.of_pure
  · have handles : ∀ _ : PythonError, Yields env
        (do
          Panel.log (text "unreadable check output: " ++ (strip line).take 120) .error
            (text "check")
          return reports : Request (List (ℤ × Json)))
        (.ok reports) :=
      fun _ => (ends.log _ _ _).bind_ok Yields.of_pure
    cases readReport depth (strip line) with
    | ok entry =>
        have body : Yields env
            (do
              let (pid, report) ← liftExcept (.ok entry)
              return putReport reports pid report : Request (List (ℤ × Json)))
            (.ok (putReport reports entry.1 entry.2)) :=
          Yields.of_liftExcept.bind_ok Yields.of_pure
        exact body.catching handles
    | error error =>
        have body : Yields env
            (do
              let (pid, report) ← liftExcept (.error error)
              return putReport reports pid report : Request (List (ℤ × Json)))
            (.error error) := Yields.of_liftExcept.bind_error
        exact body.catching handles

/-- An engine that answers leaves `check` no choice. -/
theorem EngineEnds.check {pid : Option ℤ}
    (ends : EngineEnds env config (command config config.engineBinary (.check pid)) completed)
    (depth : ℕ) (timeout : Text)
    (answered : completed.returncode = 0 ∨ completed.returncode = checkExitBlocked) :
    Yields env (check config depth timeout pid) (checkOutcome depth completed) := by
  have runs := ends.runEngine (text "the eligibility check timed out after " ++ timeout ++ text "s")
  apply ends.binary.bind_ok
  rw [checkOutcome, decodeOutput, decodeOutput]
  cases stdout : decodeStrict completed.stdout with
  | none =>
      rw [stdout] at runs
      exact runs.bind_error
  | some out =>
      cases stderr : decodeStrict completed.stderr with
      | none =>
          rw [stdout, stderr] at runs
          exact runs.bind_error
      | some err =>
          rw [stdout, stderr] at runs
          apply runs.bind_ok
          have passes : Yields env
              (refuseUnanswered config
                ⟨completed.returncode, universalNewlines out, universalNewlines err⟩)
              (.ok ()) := by
            rw [refuseUnanswered, if_pos answered]
            exact Yields.of_pure
          apply passes.bind_ok
          exact yields_foldlM fun reports line => ends.readLine depth reports line

theorem yields_check (config : Config) (depth : ℕ) (timeout : Text) (pid : Option ℤ)
    (answered : completed.returncode = 0 ∨ completed.returncode = checkExitBlocked) :
    Yields (answering (EngineWrote completed)) (check config depth timeout pid)
      (checkOutcome depth completed) :=
  engineEnds_of_engineWrote.check depth timeout answered

end Outcome

end Ksnap.Panel
