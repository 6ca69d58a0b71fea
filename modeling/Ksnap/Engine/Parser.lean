import Ksnap.Engine.Dump

/-!
# The command line of the engine

`include/parser.h`: `getopt` over the arguments, a check for each option, and the checks
on all of them together.
-/

namespace Ksnap

open Foundation

/-! ## getopt -/

/-- What a call of `getopt` answers: an option alone, one with its argument, or `?`. -/
inductive OptionResult : Type where
  | flag (letter : UInt8)
  | argument (letter : UInt8) (value : Bytes)
  | unknown
  deriving DecidableEq

/-- The options of `"m:p:n:d:kh"` that take an argument, and those that do not. -/
def takesArgument (letter : UInt8) : Bool :=
  (ascii "mpnd").contains letter

def isFlag (letter : UInt8) : Bool :=
  (ascii "kh").contains letter

/-- The letters behind one dash, and the option at their end that still wants its argument. -/
def scanLetters : Bytes → List OptionResult × Option UInt8
  | [] => ([], none)
  | letter :: letters =>
      if takesArgument letter then
        if letters = [] then ([], some letter) else ([.argument letter letters], none)
      else
        let (results, wanting) := scanLetters letters
        ((if isFlag letter then .flag letter else .unknown) :: results, wanting)

/-- The answers of `getopt` until it returns -1. Arguments that are no options are moved
behind them, and `--` ends the options. -/
def getopt : List Bytes → List OptionResult
  | [] => []
  | [45, 45] :: _ => []
  | (45 :: letter :: letters) :: rest =>
      let (results, wanting) := scanLetters (letter :: letters)
      match wanting, rest with
      | none, rest => results ++ getopt rest
      | some letter, value :: rest => results ++ .argument letter value :: getopt rest
      | some _, [] => results ++ [.unknown]
  | _ :: rest => getopt rest

/-! ## The checks of the options -/

/-- `modes_t` -/
inductive Mode : Type where
  | dump
  | restore
  | check
  deriving DecidableEq

/-- `ksnap_config_t` -/
structure KsnapConfig where
  mode : Option Mode
  pid : Int32
  fileName : Option Bytes
  outputDir : Option Bytes
  killAfterDump : Bool
  deriving DecidableEq

/-- How `parse_arg` ends without a configuration: a status other than `KSNAP_OK`, or the
exit after the usage was printed. -/
inductive ParseEnd : Type where
  | invalidPid
  | invalidMode
  | noModeSpecified
  | noPidSpecified
  | invalidName
  | invalidArgs
  | killWithoutDump
  | usageShown
  deriving DecidableEq

def validateMode (arg : Bytes) : Except ParseEnd Mode :=
  if arg = ascii "Dump" then .ok .dump
  else if arg = ascii "Restore" then .ok .restore
  else if arg = ascii "Check" then .ok .check
  else .error .invalidMode

def validatePid (arg : Bytes) : Except ParseEnd Unit :=
  if 7 < arg.length then .error .invalidPid
  else if arg.all isDigit then .ok ()
  else .error .invalidPid

theorem atoi_of_validatePid {arg : Bytes} (accepted : validatePid arg = .ok ()) :
    atoi arg ≠ -1 := by
  rw [validatePid] at accepted
  split at accepted
  · cases accepted
  · next short =>
    split at accepted
    · next digits => exact atoi_ne_neg_one (by omega) (List.all_eq_true.mp digits)
    · cases accepted

/-- The name is that of one file, without a directory. -/
def validateName (arg : Bytes) : Except ParseEnd Unit :=
  if arg.length = 0 || nameMax < arg.length then .error .invalidName
  else if 47 ∈ arg then .error .invalidName
  else if arg = ascii "." || arg = ascii ".." then .error .invalidName
  else .ok ()

/-- `MIN_LEN_PATH` -/
def minLenPath : ℕ := 0

/-- Room is left for a separator and a file name. -/
def validateDir (arg : Bytes) : Except ParseEnd Unit :=
  if arg.length ≤ minLenPath || pathMax - nameMax - 2 < arg.length then .error .invalidArgs
  else .ok ()

/-! ## parse_arg -/

/-- One round of the loop. -/
def applyOption (config : KsnapConfig) : OptionResult → Except ParseEnd KsnapConfig
  | .argument 109 value => do
      let mode ← validateMode value
      return { config with mode := some mode }
  | .argument 112 value => do
      validatePid value
      return { config with pid := atoi value }
  | .argument 110 value => do
      validateName value
      return { config with fileName := some value }
  | .argument 100 value => do
      validateDir value
      return { config with outputDir := some value }
  | .flag 107 => return { config with killAfterDump := true }
  | .flag 104 => throw .usageShown
  | _ => throw .invalidArgs

def validateMandatoryArgs (config : KsnapConfig) : Except ParseEnd KsnapConfig :=
  if config.mode = none then .error .noModeSpecified
  else if config.mode = some .dump ∧ config.pid = -1 then .error .noPidSpecified
  else if config.killAfterDump = true ∧ config.mode ≠ some .dump then .error .killWithoutDump
  else .ok config

theorem validateMandatoryArgs_dump (config : KsnapConfig) (mode : config.mode = some .dump)
    (pid : config.pid ≠ -1) : validateMandatoryArgs config = .ok config := by
  rw [validateMandatoryArgs, if_neg (by simp [mode]), if_neg (by simp [pid]),
    if_neg (by simp [mode])]

/-- `parse_arg` of the arguments behind the program's name. -/
def parseArg (argv : List Bytes) : Except ParseEnd KsnapConfig := do
  let config ← (getopt argv).foldlM applyOption
    { mode := none, pid := -1, fileName := none, outputDir := none, killAfterDump := false }
  validateMandatoryArgs config

end Ksnap
