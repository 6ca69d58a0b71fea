import Ksnap.Engine.Parser
import Mathlib.Data.Nat.Digits.Lemmas

/-!
# The process that a command line names

The last `-p` decides. Its argument passes a loop over its characters, which an empty
argument passes as well, and `atoi`, so that the pid can be 0 but never negative.
-/

namespace Ksnap

open Foundation

/-- The argument of `-p`, from one answer of `getopt`. -/
def OptionResult.pidArgument : OptionResult → Option Bytes
  | .argument 112 value => some value
  | _ => none

/-- The argument of the last `-p`. -/
def lastPid (argv : List Bytes) : Option Bytes :=
  ((getopt argv).filterMap OptionResult.pidArgument).getLast?

/-- The number that decimal digits denote, the first one counting most. -/
def decimalValue (digits : Bytes) : ℕ :=
  Nat.ofDigits 10 (digits.reverse.map fun digit => digit.toNat - 48)

/-- The configuration names one process, the one of the argument. -/
structure KsnapConfig.Names (config : KsnapConfig) (arg : Bytes) : Prop where
  positive : 1 ≤ config.pid
  value : config.pid.toInt = decimalValue arg

/-! ## The value of digits -/

theorem decimalValue_concat (digits : Bytes) (digit : UInt8) :
    decimalValue (digits ++ [digit]) = decimalValue digits * 10 + (digit.toNat - 48) := by
  simp [decimalValue, Nat.ofDigits_cons]
  omega

theorem digitValue_of_isDigit {byte : UInt8} (digit : isDigit byte = true) :
    (digitValue byte).getD 0 = byte.toNat - 48 := by
  have bounds := isDigit_bounds digit
  have decimal : (48 ≤ byte && byte ≤ 57) = true := by
    simpa [UInt8.le_iff_toNat_le] using bounds
  rw [digitValue, if_pos decimal, Option.getD_some]

theorem ofDigits_eq_decimalValue {digits : Bytes}
    (decimals : ∀ byte ∈ digits, isDigit byte = true) :
    ofDigits 10 digits = decimalValue digits := by
  induction digits using List.reverseRecOn with
  | nil => rfl
  | append_singleton digits digit ih =>
      have front := ih fun byte mem => decimals byte (List.mem_append_left _ mem)
      have last := digitValue_of_isDigit (decimals digit (by simp))
      rw [decimalValue_concat, ← front, ← last, ofDigits, List.foldl_append]
      rfl

theorem decimalValue_lt {digits : Bytes} (decimals : ∀ byte ∈ digits, isDigit byte = true)
    (short : digits.length ≤ 7) : decimalValue digits < 10 ^ 7 := by
  rw [← ofDigits_eq_decimalValue decimals]
  exact (ofDigits_lt decimals).trans_le (Nat.pow_le_pow_right (by decide) short)

/-- Only zeros have the value zero. -/
theorem decimalValue_pos_iff {digits : Bytes} (decimals : ∀ byte ∈ digits, isDigit byte = true) :
    0 < decimalValue digits ↔ ∃ digit ∈ digits, digit ≠ 48 := by
  induction digits using List.reverseRecOn with
  | nil => simp [decimalValue]
  | append_singleton digits digit ih =>
      have front := ih fun byte mem => decimals byte (List.mem_append_left _ mem)
      have bounds := isDigit_bounds (decimals digit (by simp))
      have zero : digit ≠ 48 ↔ 0 < digit.toNat - 48 := by
        have number : (48 : UInt8).toNat = 48 := rfl
        rw [ne_eq, ← UInt8.toNat_inj]
        omega
      simp only [decimalValue_concat, List.mem_append, List.mem_singleton, or_and_right,
        exists_or, exists_eq_left]
      rw [← front, zero]
      omega

/-! ## What validate_pid lets through -/

theorem validatePid_ok_iff {arg : Bytes} :
    validatePid arg = .ok () ↔ arg.length ≤ 7 ∧ ∀ byte ∈ arg, isDigit byte = true := by
  rw [validatePid, ← List.all_eq_true]
  by_cases long : 7 < arg.length
  · simp [long]
  · by_cases digits : arg.all isDigit = true
    · simp [long, digits]
      omega
    · simp [long, digits]

/-- `atoi` gives the number that the digits denote, and 0 for no digits. -/
theorem toInt_atoi {arg : Bytes} (accepted : validatePid arg = .ok ()) :
    (atoi arg).toInt = decimalValue arg := by
  rcases validatePid_ok_iff.mp accepted with ⟨short, decimals⟩
  have noNul : 0 ∉ arg := fun mem => absurd (decimals 0 mem) (by decide)
  rw [atoi, cString_of_notMem noNul]
  by_cases nonempty : arg = []
  · subst nonempty
    rfl
  · have bound := decimalValue_lt decimals short
    have same : toLong true false (ofDigits 10 arg) % 2 ^ 32 = decimalValue arg := by
      rw [ofDigits_eq_decimalValue decimals]
      simp only [toLong, if_true, Bool.false_eq_true, if_false]
      omega
    rw [scanInteger_digits nonempty decimals, same]
    exact Int32.toInt_ofNat_of_lt (bound.trans (by decide))

/-! ## The loop -/

/-- One round sets the pid from its own argument or leaves it. -/
theorem applyOption_pid {config result : KsnapConfig} {option : OptionResult}
    (round : applyOption config option = .ok result) :
    match option.pidArgument with
    | some arg => validatePid arg = .ok () ∧ result.pid = atoi arg
    | none => result.pid = config.pid := by
  rw [applyOption.eq_def] at round
  split at round
  · rcases ok_of_bind round with ⟨mode, -, set⟩
    cases set
    rfl
  · rcases ok_of_bind round with ⟨accepted, validated, set⟩
    cases set
    exact ⟨validated, rfl⟩
  · rcases ok_of_bind round with ⟨accepted, -, set⟩
    cases set
    rfl
  · rcases ok_of_bind round with ⟨accepted, -, set⟩
    cases set
    rfl
  · cases round
    rfl
  · cases round
  · cases round

/-- The pid comes from the last argument of `-p`, by induction on the options. -/
theorem pid_of_foldlM {options : List OptionResult} {start config : KsnapConfig} {arg : Bytes}
    (run : options.foldlM applyOption start = .ok config)
    (last : (options.filterMap OptionResult.pidArgument).getLast? = some arg) :
    validatePid arg = .ok () ∧ config.pid = atoi arg := by
  induction options using List.reverseRecOn generalizing config with
  | nil => cases last
  | append_singleton options option ih =>
      rw [List.foldlM_append] at run
      rcases ok_of_bind run with ⟨between, front, step⟩
      have round : applyOption between option = .ok config := by
        rcases ok_of_bind step with ⟨result, round, same⟩
        cases same
        exact round
      have set := applyOption_pid round
      rw [List.filterMap_append] at last
      cases own : option.pidArgument with
      | some value =>
          rw [own] at set
          simp only [List.filterMap_cons, own, List.filterMap_nil, List.getLast?_concat,
            Option.some.injEq] at last
          subst last
          exact set
      | none =>
          rw [own] at set
          simp only [List.filterMap_cons, own, List.filterMap_nil, List.append_nil] at last
          rcases ih front last with ⟨accepted, pid⟩
          exact ⟨accepted, set.trans pid⟩

theorem validateMandatoryArgs_ok {config result : KsnapConfig}
    (accepted : validateMandatoryArgs config = .ok result) : result = config := by
  rw [validateMandatoryArgs] at accepted
  split at accepted
  · cases accepted
  · split at accepted
    · cases accepted
    · split at accepted
      · cases accepted
      · cases accepted
        rfl

theorem pid_of_parseArg {argv : List Bytes} {config : KsnapConfig} {arg : Bytes}
    (accepted : parseArg argv = .ok config) (last : lastPid argv = some arg) :
    validatePid arg = .ok () ∧ config.pid = atoi arg := by
  rcases ok_of_bind accepted with ⟨parsed, run, mandatory⟩
  rw [validateMandatoryArgs_ok mandatory]
  exact pid_of_foldlM run last

/-- An accepted command line names one process exactly when the last argument of `-p` has a
digit other than zero. -/
theorem names_iff {argv : List Bytes} {config : KsnapConfig} {arg : Bytes}
    (accepted : parseArg argv = .ok config) (last : lastPid argv = some arg) :
    config.Names arg ↔ ∃ digit ∈ arg, digit ≠ 48 := by
  rcases pid_of_parseArg accepted last with ⟨validated, pid⟩
  have value : config.pid.toInt = decimalValue arg := by
    rw [pid]
    exact toInt_atoi validated
  rw [← decimalValue_pos_iff (validatePid_ok_iff.mp validated).2]
  have one : (1 : Int32).toInt = 1 := rfl
  constructor
  · intro names
    have positive := Int32.le_iff_toInt_le.mp names.positive
    omega
  · intro positive
    refine ⟨Int32.le_iff_toInt_le.mpr ?_, value⟩
    omega

/-- `-m Dump -p 0 -p 12`, of which the last pid counts. -/
theorem names_iff_repeated :
    (KsnapConfig.mk (some .dump) 12 none none false).Names (ascii "12") ↔
      ∃ digit ∈ ascii "12", digit ≠ 48 :=
  @names_iff [ascii "-m", ascii "Dump", ascii "-p", ascii "0", ascii "-p", ascii "12"] _ _
    (by decide) (by decide)

/-- `-m Dump -p 0` is accepted, without the usage being asked for, and leaves pid 0. -/
theorem not_names :
    ¬ ∀ argv config arg, .flag 104 ∉ getopt argv → parseArg argv = .ok config →
      lastPid argv = some arg → config.Names arg := by
  intro always
  have names := always [ascii "-m", ascii "Dump", ascii "-p", ascii "0"]
    ⟨some .dump, 0, none, none, false⟩ (ascii "0") (by decide) (by decide) (by decide)
  exact absurd names.positive (by decide)

end Ksnap
