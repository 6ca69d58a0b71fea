import Ksnap.Panel.Check

/-!
# Which outputs `check` can list

`check` isolates the lines of an output from each other up to three things: bytes that are
no text make it raise before it looks at a line, a line can raise what the handler does not
catch, and the lines it looks at are not those that the engine wrote. Here is exactly which
outputs are spared.
-/

namespace Ksnap.Panel

open Foundation Raising

/-! ## What a line does -/

/-- The line raises what its handler does not catch: `RecursionError` of `json`, or
`OverflowError` of `int`. -/
def Crashes (depth : ℕ) (line : Text) : Prop :=
  loads (.python depth) (strip line) = .error .tooDeep ∨
    ∃ members literal, loads (.python depth) (strip line) = .ok (.dict members) ∧
      member (text "pid") members = some (.float literal) ∧ truncateFloat literal = .infinite

/-- The line is read as the report of this process. -/
def ReadAs (depth : ℕ) (pid : ℤ) (line : Text) : Prop :=
  ∃ report, readReport depth (strip line) = .ok (pid, report)

theorem toInt_error {value : Json} {error : PythonError} (failed : toInt value = .error error) :
    isUnreadable error = true ∨ error = .overflowError ∧
      ∃ literal, value = .float literal ∧ truncateFloat literal = .infinite := by
  cases value with
  | float literal =>
      rw [toInt] at failed
      cases truncated : truncateFloat literal with
      | whole number =>
          rw [truncated] at failed
          cases failed
      | notANumber =>
          rw [truncated] at failed
          cases failed
          exact .inl rfl
      | infinite =>
          rw [truncated] at failed
          cases failed
          exact .inr ⟨rfl, literal, rfl, truncated⟩
  | string value =>
      rw [toInt] at failed
      split at failed <;> cases failed
      exact .inl rfl
  | integer number => cases failed
  | boolean value => cases failed
  | _ =>
      cases failed
      exact .inl rfl

theorem readPid_eq_ok {report pid : Json} (found : readPid report = .ok pid) :
    ∃ members, report = .dict members ∧ member (text "pid") members = some pid := by
  cases report with
  | dict members =>
      rw [readPid] at found
      split at found
      · next given isMember =>
          cases found
          exact ⟨members, rfl, isMember⟩
      · cases found
  | _ => cases found

theorem readPid_error {report : Json} {error : PythonError}
    (failed : readPid report = .error error) : isUnreadable error = true := by
  cases report with
  | dict members =>
      rw [readPid] at failed
      split at failed <;> cases failed
      rfl
  | _ =>
      cases failed
      rfl

/-- The steps of a line that is read. -/
theorem readReport_eq {depth : ℕ} {line : Text} {report : Json}
    (read : loads (.python depth) line = .ok report) :
    readReport depth line = (do
      let given ← readPid report
      let pid ← toInt given
      return (pid, report)) := by
  rw [readReport, jsonLoads, read]
  rfl

theorem readReport_of_member {depth : ℕ} {line : Text} {members : List (Text × Json)} {given : Json}
    (read : loads (.python depth) line = .ok (.dict members))
    (isMember : member (text "pid") members = some given) :
    readReport depth line = (toInt given).map fun pid => (pid, .dict members) := by
  rw [readReport_eq read, readPid, isMember]
  change (toInt given >>= fun pid => pure (pid, Json.dict members)) = _
  cases toInt given <;> rfl

/-- What the handler of a line does not catch. -/
theorem crashes_iff {depth : ℕ} {line : Text} :
    Crashes depth line ↔
      ∃ error, readReport depth (strip line) = .error error ∧ isUnreadable error = false := by
  constructor
  · intro crashes
    rcases crashes with deep | ⟨members, literal, read, isMember, infinite⟩
    · refine ⟨.recursionError, ?_, rfl⟩
      rw [readReport, jsonLoads, deep]
      rfl
    · refine ⟨.overflowError, ?_, rfl⟩
      rw [readReport_of_member read isMember, toInt, infinite]
      rfl
  · intro raised
    rcases raised with ⟨error, failed, uncaught⟩
    cases read : loads (.python depth) (strip line) with
    | error why =>
        rw [readReport, jsonLoads, read] at failed
        cases why with
        | tooDeep => exact .inl read
        | invalid =>
            cases failed
            cases uncaught
        | tooLong =>
            cases failed
            cases uncaught
    | ok report =>
        right
        cases found : readPid report with
        | error other =>
            rw [readReport_eq read, found] at failed
            cases failed
            rw [readPid_error found] at uncaught
            cases uncaught
        | ok given =>
            rcases readPid_eq_ok found with ⟨members, rfl, isMember⟩
            rw [readReport_of_member read isMember] at failed
            cases number : toInt given with
            | ok pid =>
                rw [number] at failed
                cases failed
            | error other =>
                rw [number] at failed
                cases failed
                rcases toInt_error number with caught | ⟨_, literal, rfl, infinite⟩
                · rw [caught] at uncaught
                  cases uncaught
                · exact ⟨members, literal, read, isMember, infinite⟩

/-! ## What the lines come to -/

theorem mem_putReport {reports : List (ℤ × Json)} {pid other : ℤ} {report : Json} :
    (∃ found, (other, found) ∈ putReport reports pid report) ↔
      other = pid ∨ ∃ found, (other, found) ∈ reports := by
  rw [putReport]
  split
  · next present =>
      rcases List.any_eq_true.mp present with ⟨⟨key, old⟩, mem, same⟩
      have isPid : key = pid := of_decide_eq_true same
      subst isPid
      constructor
      · rintro ⟨found, mem⟩
        rcases List.mem_map.mp mem with ⟨⟨key', old'⟩, mem', image⟩
        split at image
        · cases image
          exact .inl rfl
        · cases image
          exact .inr ⟨_, mem'⟩
      · rintro (rfl | ⟨found, mem'⟩)
        · exact ⟨report, List.mem_map.mpr ⟨_, mem, if_pos rfl⟩⟩
        · by_cases own : other = key
          · exact ⟨report, List.mem_map.mpr ⟨_, mem', by rw [if_pos own, own]⟩⟩
          · exact ⟨found, List.mem_map.mpr ⟨_, mem', if_neg own⟩⟩
  · constructor
    · rintro ⟨found, mem⟩
      rcases List.mem_append.mp mem with old | new
      · exact .inr ⟨found, old⟩
      · cases List.mem_singleton.mp new
        exact .inl rfl
    · rintro (rfl | ⟨found, old⟩)
      · exact ⟨report, List.mem_append_right _ (List.mem_singleton_self _)⟩
      · exact ⟨found, List.mem_append_left _ old⟩

theorem readReport_nil (depth : ℕ) : readReport depth [] = .error (.valueError []) := rfl

/-- A line either crashes, or it may put one report to the others. -/
theorem gatherLine_cases (depth : ℕ) (reports : List (ℤ × Json)) (line : Text) :
    (Crashes depth line ∧ ∃ error, gatherLine depth reports line = .error error) ∨
      ¬ Crashes depth line ∧ ∃ more, gatherLine depth reports line = .ok more ∧
        ∀ pid, (∃ report, (pid, report) ∈ more) ↔
          ReadAs depth pid line ∨ ∃ report, (pid, report) ∈ reports := by
  cases read : readReport depth (strip line) with
  | ok entry =>
      rcases entry with ⟨pid, report⟩
      have some : strip line ≠ [] := by
        intro nothing
        rw [nothing, readReport_nil] at read
        cases read
      right
      refine ⟨?_, putReport reports pid report, ?_, ?_⟩
      · rw [crashes_iff]
        rintro ⟨error, failed, _⟩
        rw [read] at failed
        cases failed
      · rw [gatherLine, if_neg some, read]
      · intro other
        rw [mem_putReport]
        refine or_congr ?_ Iff.rfl
        constructor
        · rintro rfl
          exact ⟨report, read⟩
        · rintro ⟨found, again⟩
          rw [read] at again
          cases again
          rfl
  | error error =>
      have noReport : ∀ pid, ¬ ReadAs depth pid line := by
        rintro pid ⟨report, again⟩
        rw [read] at again
        cases again
      cases caught : isUnreadable error with
      | true =>
          right
          refine ⟨?_, reports, ?_, ?_⟩
          · rw [crashes_iff]
            rintro ⟨other, failed, uncaught⟩
            rw [read] at failed
            cases failed
            rw [caught] at uncaught
            cases uncaught
          · rw [gatherLine]
            split
            · rfl
            · rw [read]
              exact if_pos caught
          · intro pid
            exact ⟨.inr, fun either => either.resolve_left (noReport pid)⟩
      | false =>
          left
          refine ⟨crashes_iff.mpr ⟨error, read, caught⟩, error, ?_⟩
          have some : strip line ≠ [] := by
            intro nothing
            rw [nothing, readReport_nil] at read
            cases read
            cases caught
          rw [gatherLine, if_neg some, read]
          exact if_neg (Bool.eq_false_iff.mp caught)

/-- The lines are gathered unless one crashes, and then every line that is read has an
entry. -/
theorem gather_cases (depth : ℕ) (lines : List Text) (reports : List (ℤ × Json)) :
    ((∃ line ∈ lines, Crashes depth line) ∧
        ∃ error, lines.foldlM (gatherLine depth) reports = .error error) ∨
      (∀ line ∈ lines, ¬ Crashes depth line) ∧
        ∃ more, lines.foldlM (gatherLine depth) reports = .ok more ∧
          ∀ pid, (∃ report, (pid, report) ∈ more) ↔
            (∃ line ∈ lines, ReadAs depth pid line) ∨ ∃ report, (pid, report) ∈ reports := by
  induction lines generalizing reports with
  | nil =>
      right
      refine ⟨fun line mem => absurd mem List.not_mem_nil, reports, rfl, fun pid => ?_⟩
      exact ⟨.inr, fun either => either.resolve_left fun ⟨_, mem, _⟩ =>
        absurd mem List.not_mem_nil⟩
  | cons line lines ih =>
      rw [List.foldlM_cons]
      rcases gatherLine_cases depth reports line with ⟨crashes, error, failed⟩ |
        ⟨spared, next, gathered, entries⟩
      · left
        rw [failed]
        exact ⟨⟨line, List.mem_cons_self, crashes⟩, error, rfl⟩
      · rw [gathered]
        rcases ih next with ⟨⟨other, mem, crashes⟩, error, failed⟩ |
          ⟨later, more, whole, others⟩
        · left
          exact ⟨⟨other, List.mem_cons_of_mem _ mem, crashes⟩, error, failed⟩
        · right
          refine ⟨List.forall_mem_cons.mpr ⟨spared, later⟩, more, whole, fun pid => ?_⟩
          rw [others pid, entries pid, List.exists_mem_cons_iff, or_assoc]
          exact or_left_comm

/-! ## Isolation -/

/-- On its own the line is a JSON object with this integer as its pid. -/
def IsReportFor (pid : ℤ) (line : Bytes) : Prop :=
  ∃ decoded members, decodeStrict line = some decoded ∧
    loads .standard decoded = .ok (.dict members) ∧
    member (text "pid") members = some (.integer pid)

/-- `check` raises nothing, and every line that is a report on its own has an entry. -/
def Isolates (config : Config) (depth : ℕ) (timeout : Text) (pid : Option ℤ)
    (completed : Completed Bytes) : Prop :=
  ∀ outcome trace,
    (check config depth timeout pid).run.Exec (answering (EngineWrote completed)) [] outcome
      trace →
    ∃ reports, outcome = .ok reports ∧
      ∀ line of, IsLineOf 10 line completed.stdout → IsReportFor of line →
        ∃ report, (of, report) ∈ reports

/-- The lines that `check` looks at. -/
def readerLines (stdout : Text) : List Text :=
  splitlines (universalNewlines stdout)

/-- `splitlines` cuts the line, and not only in the white space around it. -/
def IsSplit (line : Bytes) : Prop :=
  ∃ decoded, decodeStrict line = some decoded ∧ ∃ c ∈ strip decoded, isLineBoundary c = true

/-- The line is nested deeper than `json` goes, or holds an integer with too many digits. -/
def OverLimits (depth : ℕ) (line : Bytes) : Prop :=
  ∃ decoded, decodeStrict line = some decoded ∧
    (loads (.python depth) (strip decoded) = .error .tooDeep ∨
      loads (.python depth) (strip decoded) = .error .tooLong)

/-- Another line that `check` looks at is read for the same process. -/
def Duplicated (depth : ℕ) (pid : ℤ) (line : Bytes) (stdout : Text) : Prop :=
  ∃ other ∈ readerLines stdout, ReadAs depth pid other ∧
    ∀ decoded, decodeStrict line = some decoded → strip other ≠ strip decoded

/-- An output that no line of it can spoil. -/
structure Isolable (depth : ℕ) (completed : Completed Bytes) (stdout : Text) : Prop where
  decoded : decodeStrict completed.stdout = some stdout
  errors : ∃ stderr, decodeStrict completed.stderr = some stderr
  spared : ∀ line ∈ readerLines stdout, ¬ Crashes depth line
  reports : ∀ line pid, IsLineOf 10 line completed.stdout → IsReportFor pid line →
    IsSplit line ∨ OverLimits depth line → Duplicated depth pid line stdout

section Pieces

variable {depth : ℕ} {line : Bytes} {pid : ℤ}

/-- A report in one piece and within the limits is read, wherever it stands. -/
theorem readAs_of_whole {raw : Bytes} {stdout : Text} (decoded : decodeStrict raw = some stdout)
    (isLine : IsLineOf 10 line raw) (isReport : IsReportFor pid line) (whole : ¬IsSplit line)
    (limited : ¬OverLimits depth line) : ∃ other ∈ readerLines stdout, ReadAs depth pid other := by
  rcases isReport with ⟨content, members, isContent, isObject, isMember⟩
  have stripped := loads_strip isObject
  have read : loads (.python depth) (strip content) = .ok (.dict members) := by
    cases readAs : loads (.python depth) (strip content) with
    | ok report => rw [eq_of_loads readAs stripped]
    | error why =>
        cases why with
        | invalid => exact absurd readAs (limited_of_loads stripped)
        | tooDeep => exact absurd ⟨content, isContent, .inl readAs⟩ limited
        | tooLong => exact absurd ⟨content, isContent, .inr readAs⟩ limited
  have some : strip content ≠ [] := by
    intro nothing
    rw [nothing] at stripped
    cases stripped
  have inner : ∀ c ∈ strip content, isLineBoundary c = false := by
    intro c mem
    by_contra boundary
    exact whole ⟨content, isContent, c, mem, Bool.eq_true_of_not_eq_false boundary⟩
  rcases decodeStrict_stands isLine.2 decoded with ⟨part, isPart, stands⟩
  cases isContent.symm.trans isPart
  rcases exists_line_of_stands stands some inner with ⟨other, mem, same⟩
  refine ⟨other, mem, .dict members, ?_⟩
  rw [same, readReport_of_member read isMember]
  rfl

/-- What is read is in one piece and within the limits. -/
theorem ne_of_readAs {other : Text} {stdout : Text} (mem : other ∈ readerLines stdout)
    (readAs : ReadAs depth pid other) (lost : IsSplit line ∨ OverLimits depth line)
    (content : Text) (isContent : decodeStrict line = some content) :
    strip other ≠ strip content := by
  intro same
  rcases lost with ⟨again, isAgain, c, inside, boundary⟩ | ⟨again, isAgain, limit⟩
  · cases isContent.symm.trans isAgain
    rw [← same] at inside
    have isPrefix : strip other <+: other.dropWhile isWhitespace := List.rdropWhile_prefix _ _
    have inOther := (List.dropWhile_sublist isWhitespace).subset (isPrefix.subset inside)
    rw [inner_of_mem_splitlines mem c inOther] at boundary
    cases boundary
  · cases isContent.symm.trans isAgain
    rcases readAs with ⟨report, read⟩
    rw [same, readReport, jsonLoads] at read
    rcases limit with deep | long
    · rw [deep] at read
      cases read
    · rw [long] at read
      cases read

end Pieces

/-- What `check` makes of an output that is decoded. -/
theorem checkOutcome_eq {depth : ℕ} {completed : Completed Bytes} {stdout stderr : Text}
    (decoded : decodeStrict completed.stdout = some stdout)
    (errors : decodeStrict completed.stderr = some stderr) :
    checkOutcome depth completed = (readerLines stdout).foldlM (gatherLine depth) [] := by
  rw [checkOutcome, decodeOutput, decodeOutput, decoded, errors]
  rfl

theorem checkOutcome_eq_ok {depth : ℕ} {completed : Completed Bytes} {reports : List (ℤ × Json)}
    (outcome : checkOutcome depth completed = .ok reports) :
    ∃ stdout stderr, decodeStrict completed.stdout = some stdout ∧
      decodeStrict completed.stderr = some stderr := by
  rw [checkOutcome, decodeOutput, decodeOutput] at outcome
  cases decoded : decodeStrict completed.stdout with
  | none =>
      rw [decoded] at outcome
      cases outcome
  | some stdout =>
      cases errors : decodeStrict completed.stderr with
      | none =>
          rw [decoded, errors] at outcome
          cases outcome
      | some stderr => exact ⟨stdout, stderr, rfl, rfl⟩

/-- `check` isolates the lines of an output exactly if it is text, no line that it looks at
crashes, and every report that is split or over the limits is the duplicate of another line. -/
theorem isolates_iff (config : Config) (depth : ℕ) (timeout : Text) (pid : Option ℤ)
    {completed : Completed Bytes}
    (answered : completed.returncode = 0 ∨ completed.returncode = checkExitBlocked) :
    Isolates config depth timeout pid completed ↔
      ∃ stdout, Isolable depth completed stdout := by
  have yields := yields_check config depth timeout pid answered
  constructor
  · intro isolates
    rcases yields.completes [] with ⟨trace, run⟩
    rcases isolates _ trace run with ⟨reports, outcome, entries⟩
    rcases checkOutcome_eq_ok outcome with ⟨stdout, stderr, decoded, errors⟩
    rw [checkOutcome_eq decoded errors] at outcome
    rcases gather_cases depth (readerLines stdout) [] with ⟨_, error, failed⟩ |
      ⟨spared, more, gathered, others⟩
    · rw [outcome] at failed
      cases failed
    · rw [outcome] at gathered
      cases gathered
      refine ⟨stdout, decoded, ⟨stderr, errors⟩, spared, fun line of isLine isReport lost => ?_⟩
      rcases (others of).mp (entries line of isLine isReport) with ⟨other, mem, readAs⟩ | ⟨_, mem⟩
      · exact ⟨other, mem, readAs, ne_of_readAs mem readAs lost⟩
      · exact absurd mem List.not_mem_nil
  · rintro ⟨stdout, isolable⟩ outcome trace run
    rcases isolable.errors with ⟨stderr, errors⟩
    have same := yields.only _ outcome trace run
    rw [checkOutcome_eq isolable.decoded errors] at same
    rcases gather_cases depth (readerLines stdout) [] with ⟨⟨line, mem, crashes⟩, _⟩ |
      ⟨_, reports, gathered, others⟩
    · exact absurd crashes (isolable.spared line mem)
    · refine ⟨reports, same.trans gathered, fun line of isLine isReport => ?_⟩
      rw [others of]
      left
      by_cases lost : IsSplit line ∨ OverLimits depth line
      · rcases isolable.reports line of isLine isReport lost with ⟨other, mem, readAs, -⟩
        exact ⟨other, mem, readAs⟩
      · rw [not_or] at lost
        exact readAs_of_whole isolable.decoded isLine isReport lost.1 lost.2

/-! ## Runs -/

def goodLine : Text := text "\x7b\"pid\":7\x7d"

def badLine : Text := text "\x7b\"pid\":"

/-- A report, and a line that breaks off. -/
def oneReport : Completed Bytes where
  returncode := 0
  stdout := utf8 (goodLine ++ [10] ++ badLine)
  stderr := []

/-- The lines of a text with one newline. -/
theorem eq_of_isLineOf {line first second : Bytes} (noFirst : 10 ∉ first) (noSecond : 10 ∉ second)
    (isLine : IsLineOf 10 line (first ++ 10 :: second)) : line = first ∨ line = second := by
  have parted : ∀ {front back : Bytes}, first ++ 10 :: second = front ++ 10 :: back →
      first = front ∧ second = back := fun same =>
    ((List.append_cons_inj_of_notMem noFirst noSecond).mp same).imp_right And.right
  rcases isLine with ⟨noLine, before, after, whole, begins, ends⟩
  rcases begins with rfl | ⟨front, rfl⟩
  · rw [List.nil_append] at whole
    rcases ends with rfl | ⟨back, rfl⟩
    · rw [List.append_nil] at whole
      exact absurd (whole ▸ by simp) noLine
    · exact .inl (parted whole).1.symm
  · rw [List.append_assoc, List.append_assoc, List.singleton_append] at whole
    have behind := (parted whole).2
    rcases ends with rfl | ⟨back, rfl⟩
    · rw [List.append_nil] at behind
      exact .inr behind.symm
    · rw [behind] at noSecond
      exact absurd (by simp) noSecond

theorem isolates_iff_oneReport : Isolates exampleConfig 900 (text "15") none oneReport := by
  have decoded : decodeStrict oneReport.stdout = some (goodLine ++ [10] ++ badLine) := rfl
  have lines : readerLines (goodLine ++ [10] ++ badLine) = [goodLine, badLine] := rfl
  have goodText : decodeStrict (utf8 goodLine) = some goodLine := rfl
  have badText : decodeStrict (utf8 badLine) = some badLine := rfl
  have read : loads (.python 900) (strip goodLine) = .ok (.dict [(text "pid", .integer 7)]) := rfl
  have broken : loads (.python 900) (strip badLine) = .error .invalid := rfl
  have inner : (strip goodLine).all (!isLineBoundary ·) = true := rfl
  refine (isolates_iff exampleConfig 900 (text "15") none (.inl rfl)).mpr
    ⟨_, decoded, ⟨[], rfl⟩, ?_, ?_⟩
  · rw [lines, List.forall_mem_cons, List.forall_mem_singleton]
    constructor
    · rintro (deep | ⟨members, literal, object, isMember, -⟩)
      · cases read.symm.trans deep
      · cases read.symm.trans object
        cases isMember
    · rintro (deep | ⟨members, literal, object, -⟩)
      · cases broken.symm.trans deep
      · cases broken.symm.trans object
  · intro line pid isLine isReport lost
    have noGood : 10 ∉ utf8 goodLine := by decide
    have noBad : 10 ∉ utf8 badLine := by decide
    rcases eq_of_isLineOf noGood noBad isLine with rfl | rfl
    · rcases lost with ⟨content, isContent, c, mem, boundary⟩ | ⟨content, isContent, limit⟩
      · cases goodText.symm.trans isContent
        have isInner := List.all_eq_true.mp inner c mem
        rw [boundary] at isInner
        cases isInner
      · cases goodText.symm.trans isContent
        rw [read] at limit
        rcases limit with deep | long
        · cases deep
        · cases long
    · rcases isReport with ⟨content, members, isContent, isObject, -⟩
      cases badText.symm.trans isContent
      cases isObject

/-- The first line is a report. The name in the second one was cut inside a character. -/
def cutName : Completed Bytes where
  returncode := 0
  stdout := utf8 (text "\x7b\"pid\":7\x7d\n\x7b\"pid\":9,\"comm\":\"") ++ [0xC3] ++
    utf8 (text "\"\x7d\n")
  stderr := []

/-- One line costs the whole listing. -/
theorem not_isolates :
    ¬ ∀ completed : Completed Bytes,
      completed.returncode = 0 ∨ completed.returncode = checkExitBlocked →
      Isolates exampleConfig 900 (text "15") none completed := by
  intro claimed
  have yields : Yields (answering (EngineWrote cutName))
      (check exampleConfig 900 (text "15") none) (checkOutcome 900 cutName) :=
    yields_check exampleConfig 900 (text "15") none (.inl rfl)
  rcases yields.completes [] with ⟨trace, run⟩
  rcases claimed cutName (.inl rfl) _ trace run with ⟨reports, outcome, _⟩
  have undecoded : decodeStrict cutName.stdout = none := by decide
  rw [checkOutcome, decodeOutput, undecoded] at outcome
  cases outcome

end Ksnap.Panel
