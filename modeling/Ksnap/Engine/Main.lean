import Ksnap.Engine.CheckMode
import Ksnap.Engine.Parser

/-!
# The engine's main

`main` of `src/main.c`: the arguments are parsed, and the mode they ask for decides what the
engine does and what its exit code means.
-/

namespace Ksnap

open Foundation

/-- `EXIT_SUCCESS` and `EXIT_FAILURE` -/
def exitSuccess : ℤ := 0

def exitFailure : ℤ := 1

/-- What `check_status` prints for a status other than `KSNAP_OK`. The usage is printed
elsewhere. -/
def ParseEnd.message : ParseEnd → Bytes
  | .invalidPid => ascii "Pid is incorrect\n"
  | .invalidMode => ascii "Mode not recognized\n"
  | .noModeSpecified => ascii "Mode not specified\n"
  | .noPidSpecified => ascii "Pid no specified\n"
  | .invalidName => ascii "File name is incorrect\n"
  | .invalidArgs => ascii "Invalid args \n"
  | .killWithoutDump => ascii "-k can only be used with Dump\n"
  | .usageShown => []

/-- What the engine does with its arguments. -/
inductive Job : Type where
  | exits (code : ℤ) (stderr : Bytes)
  | dumps (pid : Int32) (config : DumpConfig)
  | restores (fileName outputDir : Option Bytes)
  | checks (pid : Int32)

/-- What `dump` looks at. -/
def KsnapConfig.dumpConfig (config : KsnapConfig) : DumpConfig where
  fileName := config.fileName
  outputDir := config.outputDir
  killAfterDump := config.killAfterDump

/-- The branches of `main` over the modes. -/
def KsnapConfig.job (config : KsnapConfig) : Mode → Job
  | .dump => .dumps config.pid config.dumpConfig
  | .restore => .restores config.fileName config.outputDir
  | .check => .checks config.pid

/-- `main`, up to what a mode does. A configuration that was accepted has a mode. -/
def main (argv : List Bytes) : Job :=
  match parseArg argv with
  | .error .usageShown => .exits exitSuccess []
  | .error failure => .exits exitFailure failure.message
  | .ok config =>
      match config.mode with
      | some mode => config.job mode
      | none => .exits exitSuccess []

/-- The exit code of a dump or a restore. -/
def exitCode (success : Bool) : ℤ :=
  if success then exitSuccess else exitFailure

theorem exitCode_eq_zero {success : Bool} (code : exitCode success = 0) : success = true := by
  cases success with
  | true => rfl
  | false => cases code

theorem main_of_parseArg {argv : List Bytes} {config : KsnapConfig} {mode : Mode}
    (parsed : parseArg argv = .ok config) (isMode : config.mode = some mode) :
    main argv = config.job mode := by
  rw [main, parsed]
  dsimp only
  rw [isMode]

end Ksnap
