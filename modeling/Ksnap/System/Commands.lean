import Ksnap.Dump.Target
import Ksnap.Engine.Main
import Ksnap.Panel.Arguments
import Ksnap.Panel.ReportLine

/-!
# What the panel asks and the engine does

The panel puts a request into arguments, and `main` makes a job of them. The job is the one the
panel had in mind, with the same pid, folder and name, or the engine exits with a failure
because one of these is not for it. It never takes one thing for another.
-/

namespace Ksnap

open Foundation Panel

/-! ## The checks of single arguments -/

theorem validatePid_cases (arg : Bytes) :
    validatePid arg = .ok () ∨ validatePid arg = .error .invalidPid := by
  rw [validatePid]
  split
  · exact .inr rfl
  · split
    · exact .inl rfl
    · exact .inr rfl

theorem validateDir_cases (arg : Bytes) :
    validateDir arg = .ok () ∨ validateDir arg = .error .invalidArgs := by
  rw [validateDir]
  split
  · exact .inr rfl
  · exact .inl rfl

theorem validateName_cases (arg : Bytes) :
    validateName arg = .ok () ∨ validateName arg = .error .invalidName := by
  rw [validateName]
  split
  · exact .inr rfl
  · split
    · exact .inr rfl
    · split
      · exact .inr rfl
      · exact .inl rfl

/-! ## Numbers as arguments -/

/-- The bytes of a text that has no others than ASCII characters. -/
theorem fsEncode_decimal (number : ℤ) :
    fsEncode (Panel.decimal number) = some (nameBytes (Panel.decimal number)) :=
  fsEncode_ascii fun c mem => (printable_decimal number c mem).2

theorem argumentBytes_decimal (number : ℤ) :
    argumentBytes (Panel.decimal number) = some (nameBytes (Panel.decimal number)) := by
  have noNul : 0 ∉ nameBytes (Panel.decimal number) := by
    intro mem
    rcases List.mem_map.mp mem with ⟨c, memC, zero⟩
    have printable := printable_decimal number c memC
    have value := congrArg UInt8.toNat zero
    rw [UInt8.toNat_ofNat', Nat.mod_eq_of_lt (by omega), UInt8.toNat_zero] at value
    omega
  rw [argumentBytes, fsEncode_decimal]
  exact Option.filter_some_pos (decide_eq_true noNul)

theorem isDigit_of_isDecimal {c : CodePoint} (isDecimal_ : isDecimal c = true) :
    isDigit (.ofNat c.val) = true := by
  simp only [isDecimal, Bool.and_eq_true, decide_eq_true_eq] at isDecimal_
  obtain ⟨value, lt⟩ : ∃ value : ℕ, c.val = 48 + value := ⟨c.val - 48, by omega⟩
  have small : value < 10 := by omega
  rw [lt]
  interval_cases value <;> rfl

/-- The digits of a number denote it. -/
theorem decimalValue_nameBytes (number : ℕ) :
    decimalValue (nameBytes (decimalDigits number)) = number := by
  induction number using Nat.strong_induction_on with
  | _ number ih =>
      by_cases small : number < 10
      · rw [decimalDigits_of_lt small]
        interval_cases number <;> rfl
      · have last : number % 10 < 10 := Nat.mod_lt _ (by decide)
        have digit : ∀ value < 10, (UInt8.ofNat (codePoint (48 + value)).val).toNat - 48 =
            value := by decide
        rw [decimalDigits_of_le (not_lt.mp small), nameBytes, List.map_append,
          decimalDigits_of_lt last, List.map_singleton, decimalValue_concat, digit _ last]
        have front := ih (number / 10) (by omega)
        rw [nameBytes] at front
        rw [front]
        omega

/-- A pid that the engine takes. -/
def PidPasses (pid : ℤ) : Prop := 0 ≤ pid ∧ pid < 10 ^ 7

theorem validatePid_decimal_iff (pid : ℤ) :
    validatePid (nameBytes (Panel.decimal pid)) = .ok () ↔ PidPasses pid := by
  rw [validatePid_ok_iff, PidPasses]
  cases pid with
  | ofNat number =>
      have digits : Panel.decimal (.ofNat number) = decimalDigits number :=
        text_toString_natCast number
      have decimals : ∀ byte ∈ nameBytes (decimalDigits number), isDigit byte = true := by
        intro byte mem
        rcases List.mem_map.mp mem with ⟨c, memC, rfl⟩
        exact isDigit_of_isDecimal (isDecimal_of_mem c memC)
      have length : (nameBytes (decimalDigits number)).length ≤ 7 ↔ number < 10 ^ 7 := by
        rw [nameBytes, List.length_map, decimalDigits, List.length_map,
          Nat.length_toDigits_le_iff (by decide) (by decide)]
      rw [digits, length, Int.ofNat_eq_natCast]
      constructor
      · rintro ⟨short, -⟩
        omega
      · rintro ⟨-, short⟩
        exact ⟨by omega, decimals⟩
  | negSucc number =>
      constructor
      · rintro ⟨-, decimals⟩
        have minus : (45 : UInt8) ∈ nameBytes (Panel.decimal (.negSucc number)) := by
          rw [Panel.decimal, text_toString_negSucc]
          exact List.mem_cons_self
        exact absurd (decimals 45 minus) (by decide)
      · rintro ⟨positive, -⟩
        exact absurd positive (by simp)

theorem toInt_atoi_decimal {pid : ℤ} (passes : PidPasses pid) :
    (atoi (nameBytes (Panel.decimal pid))).toInt = pid := by
  rw [toInt_atoi ((validatePid_decimal_iff pid).mpr passes)]
  obtain ⟨number, rfl⟩ := Int.eq_ofNat_of_zero_le passes.1
  rw [Panel.decimal, text_toString_natCast, decimalValue_nameBytes]

/-! ## The jobs of requests -/

/-- A folder and a name that the engine takes. -/
structure PathPasses (directory n : Text) : Prop where
  folder : ∀ raw, argumentBytes directory = some raw → validateDir raw = .ok ()
  name : ∀ raw, argumentBytes n = some raw → Ksnap.validateName raw = .ok ()

/-- A request that the engine takes. -/
def Taken : EngineRequest → Prop
  | .check none => True
  | .check (some pid) => PidPasses pid
  | .dump pid directory n _ => PidPasses pid ∧ PathPasses directory n
  | .restore directory n => PathPasses directory n

/-- The job that a request is about. -/
def Means : EngineRequest → Job → Prop
  | .check none, job => job = .checks (-1)
  | .check (some pid), job => ∃ number : Int32, number.toInt = pid ∧ job = .checks number
  | .dump pid directory n kill, job => ∃ (number : Int32) (raw rawName : Bytes),
      number.toInt = pid ∧ argumentBytes directory = some raw ∧ argumentBytes n = some rawName ∧
      job = .dumps number ⟨some rawName, some raw, kill⟩
  | .restore directory n, job => ∃ raw rawName, argumentBytes directory = some raw ∧
      argumentBytes n = some rawName ∧ job = .restores (some rawName) (some raw)

/-- The engine exits, with its message on a pid, a folder or a name that it does not take. -/
def Refuses (job : Job) : Prop :=
  ∃ failure ∈ [ParseEnd.invalidPid, .invalidArgs, .invalidName],
    job = .exits exitFailure failure.message

theorem refuses_of_parseArg {argv : List Bytes} {failure : ParseEnd}
    (parsed : parseArg argv = .error failure)
    (isSingle : failure ∈ [ParseEnd.invalidPid, .invalidArgs, .invalidName]) :
    Refuses (main argv) := by
  refine ⟨failure, isSingle, ?_⟩
  rw [main, parsed]
  cases failure with
  | usageShown => simp at isSingle
  | _ => rfl

section Options

variable {rawPid raw rawName : Bytes} {kill : Bool}

theorem parseArg_check : parseArg [ascii "-m", ascii "Check", ascii "-p", rawPid] =
    (do
      validatePid rawPid
      validateMandatoryArgs ⟨some .check, atoi rawPid, none, none, false⟩) := by
  have options : getopt [ascii "-m", ascii "Check", ascii "-p", rawPid] =
      [.argument 109 (ascii "Check"), .argument 112 rawPid] := rfl
  rw [parseArg, options]
  rcases validatePid_cases rawPid with pid | pid
  all_goals
    simp only [List.foldlM_cons, List.foldlM_nil, applyOption, pid]
    rfl

theorem parseArg_dump_eq :
    parseArg ([ascii "-m", ascii "Dump", ascii "-p", rawPid, ascii "-d", raw, ascii "-n",
        rawName] ++ if kill then [ascii "-k"] else []) = (do
      validatePid rawPid
      validateDir raw
      Ksnap.validateName rawName
      validateMandatoryArgs ⟨some .dump, atoi rawPid, some rawName, some raw, kill⟩) := by
  have options : getopt ([ascii "-m", ascii "Dump", ascii "-p", rawPid, ascii "-d", raw, ascii "-n",
      rawName] ++ if kill then [ascii "-k"] else []) =
        [.argument 109 (ascii "Dump"), .argument 112 rawPid, .argument 100 raw,
          .argument 110 rawName] ++ if kill then [.flag 107] else [] := by
    cases kill <;> rfl
  rw [parseArg, options]
  rcases validatePid_cases rawPid with pid | pid
  · rcases validateDir_cases raw with dir | dir
    · rcases validateName_cases rawName with name | name
      all_goals
        cases kill
        all_goals
          simp only [if_true, Bool.false_eq_true, if_false, List.append_nil, List.cons_append,
            List.nil_append, List.foldlM_cons, List.foldlM_nil, applyOption, pid, dir, name]
          rfl
    · simp only [List.cons_append, List.nil_append, List.foldlM_cons, applyOption, pid, dir]
      rfl
  · simp only [List.cons_append, List.nil_append, List.foldlM_cons, applyOption, pid]
    rfl

theorem parseArg_restore_eq :
    parseArg [ascii "-m", ascii "Restore", ascii "-d", raw, ascii "-n", rawName] = (do
      validateDir raw
      Ksnap.validateName rawName
      validateMandatoryArgs ⟨some .restore, -1, some rawName, some raw, false⟩) := by
  have options : getopt [ascii "-m", ascii "Restore", ascii "-d", raw, ascii "-n", rawName] =
      [.argument 109 (ascii "Restore"), .argument 100 raw, .argument 110 rawName] := rfl
  rw [parseArg, options]
  rcases validateDir_cases raw with dir | dir
  · rcases validateName_cases rawName with name | name
    all_goals
      simp only [List.foldlM_cons, List.foldlM_nil, applyOption, dir, name]
      rfl
  · simp only [List.foldlM_cons, applyOption, dir]
    rfl

end Options

/-! ## Requests as arguments -/

section Arguments

variable {argv : List Bytes} {pid : ℤ} {directory n : Text} {kill : Bool}

theorem argv_check_pid : (EngineRequest.check (some pid)).argv =
    some [ascii "-m", ascii "Check", ascii "-p", nameBytes (Panel.decimal pid)] := by
  have mode : argumentBytes (text "-m") = some (ascii "-m") := rfl
  have check : argumentBytes (text "Check") = some (ascii "Check") := rfl
  have option : argumentBytes (text "-p") = some (ascii "-p") := rfl
  simp [EngineRequest.argv, EngineRequest.arguments, mode, check, option,
    argumentBytes_decimal pid]

/-- What cannot be an argument is the argument of no command. -/
theorem passed_of_mapM {arguments : List Text} {raw : List Bytes}
    (passed : arguments.mapM argumentBytes = some raw) (argument : Text)
    (mem : argument ∈ arguments) : ∃ bytes, argumentBytes argument = some bytes := by
  induction arguments generalizing raw with
  | nil => cases mem
  | cons first others ih =>
      rw [List.mapM_cons] at passed
      rcases Option.bind_eq_some_iff.mp passed with ⟨bytes, isFirst, rest⟩
      rcases Option.bind_eq_some_iff.mp rest with ⟨later, isLater, -⟩
      rcases List.mem_cons.mp mem with rfl | memLater
      · exact ⟨bytes, isFirst⟩
      · exact ih isLater memLater

theorem argv_dump_cases (passed : (EngineRequest.dump pid directory n kill).argv = some argv) :
    ∃ raw rawName, argumentBytes directory = some raw ∧ argumentBytes n = some rawName ∧
      argv = [ascii "-m", ascii "Dump", ascii "-p", nameBytes (Panel.decimal pid), ascii "-d", raw,
        ascii "-n", rawName] ++ if kill then [ascii "-k"] else [] := by
  rcases passed_of_mapM passed directory (by simp [EngineRequest.arguments])
    with ⟨raw, isRaw⟩
  rcases passed_of_mapM passed n (by simp [EngineRequest.arguments])
    with ⟨rawName, isName⟩
  have whole :=
    @argv_dump directory n raw rawName pid kill _ isRaw isName (argumentBytes_decimal pid)
  exact ⟨raw, rawName, isRaw, isName, Option.some.inj (passed.symm.trans whole)⟩

theorem argv_restore_cases (passed : (EngineRequest.restore directory n).argv = some argv) :
    ∃ raw rawName, argumentBytes directory = some raw ∧ argumentBytes n = some rawName ∧
      argv = [ascii "-m", ascii "Restore", ascii "-d", raw, ascii "-n", rawName] := by
  rcases passed_of_mapM passed directory (by simp [EngineRequest.arguments])
    with ⟨raw, isRaw⟩
  rcases passed_of_mapM passed n (by simp [EngineRequest.arguments])
    with ⟨rawName, isName⟩
  exact ⟨raw, rawName, isRaw, isName,
    Option.some.inj (passed.symm.trans (argv_restore isRaw isName))⟩

end Arguments

/-! ## Requests as jobs -/

/-- The engine takes the request and does what it means, or it refuses one that it does not
take. -/
def Settles (request : EngineRequest) (job : Job) : Prop :=
  Taken request ∧ Means request job ∨ ¬Taken request ∧ Refuses job

theorem not_pidPasses {pid : ℤ}
    (refused : validatePid (nameBytes (Panel.decimal pid)) = .error .invalidPid) :
    ¬PidPasses pid := by
  rw [← validatePid_decimal_iff, refused]
  exact fun impossible => by cases impossible

theorem settles_check_pid {pid : ℤ} {argv : List Bytes}
    (passed : (EngineRequest.check (some pid)).argv = some argv) :
    Settles (.check (some pid)) (main argv) := by
  cases argv_check_pid.symm.trans passed
  rcases validatePid_cases (nameBytes (Panel.decimal pid)) with accepted | refused
  · have passes := (validatePid_decimal_iff pid).mp accepted
    have parsed : parseArg [ascii "-m", ascii "Check", ascii "-p",
        nameBytes (Panel.decimal pid)] =
          .ok ⟨some .check, atoi (nameBytes (Panel.decimal pid)), none, none, false⟩ := by
      rw [parseArg_check, accepted]
      rfl
    exact .inl ⟨passes, _, toInt_atoi_decimal passes, main_of_parseArg parsed rfl⟩
  · refine .inr ⟨not_pidPasses refused, @refuses_of_parseArg _ .invalidPid ?_ (by simp)⟩
    rw [parseArg_check, refused]
    rfl

theorem settles_dump {pid : ℤ} {directory n : Text} {kill : Bool} {argv : List Bytes}
    (passed : (EngineRequest.dump pid directory n kill).argv = some argv) :
    Settles (.dump pid directory n kill) (main argv) := by
  rcases argv_dump_cases passed with ⟨raw, rawName, isRaw, isName, rfl⟩
  rcases validatePid_cases (nameBytes (Panel.decimal pid)) with isPid | notPid
  · have passes := (validatePid_decimal_iff pid).mp isPid
    have notMinusOne := atoi_of_validatePid isPid
    rcases validateDir_cases raw with dir | notDir
    · rcases validateName_cases rawName with name | notName
      · have taken : PathPasses directory n := by
          refine ⟨fun other isOther => ?_, fun other isOther => ?_⟩
          · cases isRaw.symm.trans isOther
            exact dir
          · cases isName.symm.trans isOther
            exact name
        have parsed := @parseArg_dump raw rawName kill _ dir name isPid
        exact .inl ⟨⟨passes, taken⟩, _, raw, rawName, toInt_atoi_decimal passes, isRaw, isName,
          main_of_parseArg parsed rfl⟩
      · refine .inr ⟨fun taken => ?_, @refuses_of_parseArg _ .invalidName ?_ (by simp)⟩
        · cases notName.symm.trans (taken.2.name rawName isName)
        · rw [parseArg_dump_eq, isPid, dir, notName]
          rfl
    · refine .inr ⟨fun taken => ?_, @refuses_of_parseArg _ .invalidArgs ?_ (by simp)⟩
      · cases notDir.symm.trans (taken.2.folder raw isRaw)
      · rw [parseArg_dump_eq, isPid, notDir]
        rfl
  · refine .inr ⟨fun taken => not_pidPasses notPid taken.1,
      @refuses_of_parseArg _ .invalidPid ?_ (by simp)⟩
    rw [parseArg_dump_eq, notPid]
    rfl

theorem settles_restore {directory n : Text} {argv : List Bytes}
    (passed : (EngineRequest.restore directory n).argv = some argv) :
    Settles (.restore directory n) (main argv) := by
  rcases argv_restore_cases passed with ⟨raw, rawName, isRaw, isName, rfl⟩
  rcases validateDir_cases raw with dir | notDir
  · rcases validateName_cases rawName with name | notName
    · have taken : PathPasses directory n := by
        refine ⟨fun other isOther => ?_, fun other isOther => ?_⟩
        · cases isRaw.symm.trans isOther
          exact dir
        · cases isName.symm.trans isOther
          exact name
      exact .inl ⟨taken, raw, rawName, isRaw, isName,
        main_of_parseArg (parseArg_restore dir name) rfl⟩
    · refine .inr ⟨fun taken => ?_, @refuses_of_parseArg _ .invalidName ?_ (by simp)⟩
      · cases notName.symm.trans (taken.name rawName isName)
      · rw [parseArg_restore_eq, dir, notName]
        rfl
  · refine .inr ⟨fun taken => ?_, @refuses_of_parseArg _ .invalidArgs ?_ (by simp)⟩
    · cases notDir.symm.trans (taken.folder raw isRaw)
    · rw [parseArg_restore_eq, notDir]
      rfl

theorem settles_request {request : EngineRequest} {argv : List Bytes}
    (passed : request.argv = some argv) : Settles request (main argv) := by
  cases request with
  | check pid =>
      cases pid with
      | none =>
          cases passed
          exact .inl ⟨trivial, rfl⟩
      | some pid => exact settles_check_pid passed
  | dump pid directory n kill => exact settles_dump passed
  | restore directory n => exact settles_restore passed

/-- The engine does what the panel asks of it, on the pid, the folder and the name that were
asked for, or it says that it does not take one of them and does nothing. -/
theorem main_settles {request : EngineRequest} {argv : List Bytes}
    (passed : request.argv = some argv) :
    (Taken request → Means request (main argv)) ∧ (¬Taken request → Refuses (main argv)) := by
  rcases settles_request passed with ⟨taken, means⟩ | ⟨refused, refuses⟩
  · exact ⟨fun _ => means, fun fails => absurd taken fails⟩
  · exact ⟨fun taken => absurd taken refused, fun _ => refuses⟩

theorem main_settles_dump :
    (Taken (.dump 7 (text "/save") (text "a.ksnap") true) →
        Means (.dump 7 (text "/save") (text "a.ksnap") true) (main [ascii "-m", ascii "Dump",
          ascii "-p", ascii "7", ascii "-d", ascii "/save", ascii "-n", ascii "a.ksnap",
          ascii "-k"])) ∧
      (¬Taken (.dump 7 (text "/save") (text "a.ksnap") true) →
        Refuses (main [ascii "-m", ascii "Dump", ascii "-p", ascii "7", ascii "-d",
          ascii "/save", ascii "-n", ascii "a.ksnap", ascii "-k"])) :=
  main_settles rfl

end Ksnap
