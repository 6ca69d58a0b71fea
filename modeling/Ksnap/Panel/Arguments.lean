import Ksnap.Engine.Parser
import Ksnap.Panel.Names

/-!
# What the panel passes and the engine takes

Both sides bound the folder of a snapshot by one number. The panel counts the characters
of a string, the engine the bytes it arrives as, so a folder with other characters than
ASCII can be within the one bound and beyond the other. Names have no such characters.
-/

namespace Ksnap.Panel

open Foundation

/-- A command line argument as the bytes of a C string, which cannot hold a NUL. -/
def argumentBytes (value : Text) : Option Bytes :=
  (fsEncode value).filter fun raw => 0 ∉ raw

/-- The arguments of a request, as the engine gets them. -/
def EngineRequest.argv (request : EngineRequest) : Option (List Bytes) :=
  request.arguments.mapM argumentBytes

/-- The engine takes the folder and the name with these bytes, each by its own check, as
parts of a command, and as a path. -/
structure EngineTakes (directory n : Text) (raw rawName : Bytes) : Prop where
  dir : validateDir raw = .ok ()
  name : Ksnap.validateName rawName = .ok ()
  restores : ∃ argv, (EngineRequest.restore directory n).argv = some argv ∧
    parseArg argv = .ok {
      mode := some .restore, pid := -1, fileName := some rawName, outputDir := some raw,
      killAfterDump := false }
  dumps : ∀ pid kill rawPid, argumentBytes (decimal pid) = some rawPid →
    Ksnap.validatePid rawPid = .ok () → ∃ argv,
      (EngineRequest.dump pid directory n kill).argv = some argv ∧
      parseArg argv = .ok {
        mode := some .dump, pid := atoi rawPid, fileName := some rawName, outputDir := some raw,
        killAfterDump := kill }
  path : buildSnapshotPath (some rawName) (some raw) = some (raw ++ [47] ++ rawName)

/-! ## Names -/

theorem fsEncodeChar_ascii {c : CodePoint} (small : c.val < 128) :
    fsEncodeChar c = some [.ofNat c.val] := by
  have scalar : isSurrogate c = false := by
    rw [isSurrogate, decide_eq_false (by omega), Bool.false_and]
  rw [fsEncodeChar, if_neg (by omega), scalar, if_neg Bool.false_ne_true, utf8Char,
    if_pos small]

theorem fsEncode_cons (c : CodePoint) (value : Text) :
    fsEncode (c :: value) = (fsEncodeChar c).bind fun first =>
      (fsEncode value).map fun rest => first ++ rest := by
  rw [fsEncode, fsEncode, List.mapM_cons]
  cases fsEncodeChar c with
  | none => rfl
  | some first =>
      cases value.mapM fsEncodeChar with
      | none => rfl
      | some rest => rfl

/-- ASCII is one byte a character. -/
theorem fsEncode_ascii {value : Text} (ascii : ∀ c ∈ value, c.val < 128) :
    fsEncode value = some (value.map fun c => .ofNat c.val) := by
  induction value with
  | nil => rfl
  | cons c value ih =>
      have others : ∀ c ∈ value, c.val < 128 := fun c mem => ascii c (List.mem_cons_of_mem _ mem)
      rw [fsEncode_cons, fsEncodeChar_ascii (ascii c List.mem_cons_self), ih others]
      rfl

/-- The bytes of a file name. -/
def nameBytes (n : Text) : Bytes :=
  n.map fun c => .ofNat c.val

theorem nameChar_lt {c : CodePoint} (nameChar : isNameChar c = true) :
    c.val < 128 ∧ c.val ≠ 0 ∧ c.val ≠ 47 := by
  simp only [isNameChar, Bool.or_eq_true, Bool.and_eq_true, decide_eq_true_eq, beq_iff_eq]
    at nameChar
  omega

theorem not_mem_nameBytes {n : Text} (chars : ∀ c ∈ n, isNameChar c = true) {byte : UInt8}
    (different : ∀ c, isNameChar c = true → c.val ≠ byte.toNat) : byte ∉ nameBytes n := by
  intro mem
  rcases List.mem_map.mp mem with ⟨c, memC, rfl⟩
  apply different c (chars c memC)
  have small := (nameChar_lt (chars c memC)).1
  rw [UInt8.toNat_ofNat', Nat.mod_eq_of_lt (by omega)]

theorem argumentBytes_name {n : Text} (chars : ∀ c ∈ n, isNameChar c = true) :
    argumentBytes n = some (nameBytes n) := by
  have noNul : 0 ∉ nameBytes n :=
    not_mem_nameBytes chars fun c nameChar => (nameChar_lt nameChar).2.1
  rw [argumentBytes, fsEncode_ascii fun c mem => (nameChar_lt (chars c mem)).1]
  exact Option.filter_some_pos (decide_eq_true noNul)

/-- The engine takes every file name of the panel. -/
theorem validateName_nameBytes {n : Text} (chars : ∀ c ∈ n, isNameChar c = true)
    (long : 3 ≤ n.length) (short : n.length ≤ nameMax) :
    Ksnap.validateName (nameBytes n) = .ok () := by
  have length : (nameBytes n).length = n.length := List.length_map ..
  have noSlash : 47 ∉ nameBytes n :=
    not_mem_nameBytes chars fun c nameChar => (nameChar_lt nameChar).2.2
  have noDots : ¬(nameBytes n = ascii "." ∨ nameBytes n = ascii "..") := by
    intro dots
    rcases dots with dot | dots
    · have one : (nameBytes n).length = 1 := congrArg List.length dot
      omega
    · have two : (nameBytes n).length = 2 := congrArg List.length dots
      omega
  have fits : ¬((nameBytes n).length = 0 ∨ nameMax < (nameBytes n).length) := by
    omega
  rw [Ksnap.validateName, if_neg (by simpa using fits), if_neg noSlash,
    if_neg (by simpa using noDots)]

/-- What `validate_name` returns has between 7 and 70 characters. -/
theorem length_fileName {name : Text} (given : NameGiven name) :
    6 ≤ (fileName name).length ∧ (fileName name).length ≤ 70 := by
  have six : suffix.length = 6 := rfl
  have ends := (List.isSuffixOf_iff_suffix.mp (endsWith_fileName name)).length_le
  have short := given.short
  refine ⟨six ▸ ends, ?_⟩
  rw [fileName]
  split
  · omega
  · rw [List.length_append]
    omega

/-! ## Folders -/

theorem validateDir_iff {raw : Bytes} (nonempty : raw ≠ []) :
    validateDir raw = .ok () ↔ raw.length ≤ maxLength := by
  have positive := List.length_pos_iff.mpr nonempty
  rw [validateDir, maxLength, minLenPath]
  constructor
  · intro accepted
    split at accepted
    · cases accepted
    · next fits =>
      simp only [Bool.or_eq_true, decide_eq_true_eq] at fits
      omega
  · intro short
    rw [if_neg]
    simp only [Bool.or_eq_true, decide_eq_true_eq]
    omega

/-- A path that starts with a slash is not empty when it arrives. -/
theorem argumentBytes_ne_nil {directory : Text} {raw : Bytes}
    (absolute : isAbsolute directory = true) (passed : argumentBytes directory = some raw) :
    raw ≠ [] := by
  rintro rfl
  cases directory with
  | nil => exact absurd absolute (by decide)
  | cons first others =>
      have slash : first = 47 := by simpa [isAbsolute] using absolute
      subst slash
      have encoded := Option.eq_some_of_filter_eq_some passed
      rw [fsEncode_cons, fsEncodeChar_ascii (by decide)] at encoded
      cases rest : fsEncode others with
      | none =>
          rw [rest] at encoded
          cases encoded
      | some bytes =>
          rw [rest] at encoded
          cases encoded

section Commands

variable {directory n : Text} {raw rawName : Bytes}

theorem argv_restore (passed : argumentBytes directory = some raw)
    (passedName : argumentBytes n = some rawName) :
    (EngineRequest.restore directory n).argv =
      some [ascii "-m", ascii "Restore", ascii "-d", raw, ascii "-n", rawName] := by
  have mode : argumentBytes (text "-m") = some (ascii "-m") := rfl
  have restore : argumentBytes (text "Restore") = some (ascii "Restore") := rfl
  have dir : argumentBytes (text "-d") = some (ascii "-d") := rfl
  have name : argumentBytes (text "-n") = some (ascii "-n") := rfl
  simp [EngineRequest.argv, EngineRequest.arguments, mode, restore, dir, name, passed, passedName]

theorem parseArg_restore (dir : validateDir raw = .ok ())
    (name : Ksnap.validateName rawName = .ok ()) :
    parseArg [ascii "-m", ascii "Restore", ascii "-d", raw, ascii "-n", rawName] = .ok {
      mode := some .restore, pid := -1, fileName := some rawName, outputDir := some raw,
      killAfterDump := false } := by
  have options : getopt [ascii "-m", ascii "Restore", ascii "-d", raw, ascii "-n", rawName] =
      [.argument 109 (ascii "Restore"), .argument 100 raw, .argument 110 rawName] := rfl
  rw [parseArg, options]
  simp only [List.foldlM_cons, List.foldlM_nil, applyOption, dir, name]
  rfl

theorem argv_dump {pid : ℤ} {kill : Bool} {rawPid : Bytes}
    (passed : argumentBytes directory = some raw) (passedName : argumentBytes n = some rawName)
    (passedPid : argumentBytes (decimal pid) = some rawPid) :
    (EngineRequest.dump pid directory n kill).argv =
      some ([ascii "-m", ascii "Dump", ascii "-p", rawPid, ascii "-d", raw, ascii "-n", rawName] ++
        if kill then [ascii "-k"] else []) := by
  have mode : argumentBytes (text "-m") = some (ascii "-m") := rfl
  have dump : argumentBytes (text "Dump") = some (ascii "Dump") := rfl
  have pid : argumentBytes (text "-p") = some (ascii "-p") := rfl
  have dir : argumentBytes (text "-d") = some (ascii "-d") := rfl
  have name : argumentBytes (text "-n") = some (ascii "-n") := rfl
  have killing : argumentBytes (text "-k") = some (ascii "-k") := rfl
  cases kill <;>
    simp [EngineRequest.argv, EngineRequest.arguments, mode, dump, pid, dir, name, killing, passed,
      passedName, passedPid]

theorem parseArg_dump {kill : Bool} {rawPid : Bytes} (dir : validateDir raw = .ok ())
    (name : Ksnap.validateName rawName = .ok ()) (pid : Ksnap.validatePid rawPid = .ok ()) :
    parseArg ([ascii "-m", ascii "Dump", ascii "-p", rawPid, ascii "-d", raw, ascii "-n",
        rawName] ++ if kill then [ascii "-k"] else []) = .ok {
      mode := some .dump, pid := atoi rawPid, fileName := some rawName, outputDir := some raw,
      killAfterDump := kill } := by
  have options : getopt ([ascii "-m", ascii "Dump", ascii "-p", rawPid, ascii "-d", raw, ascii "-n",
      rawName] ++ if kill then [ascii "-k"] else []) =
        [.argument 109 (ascii "Dump"), .argument 112 rawPid, .argument 100 raw,
          .argument 110 rawName] ++ if kill then [.flag 107] else [] := by
    cases kill <;> rfl
  have isPid := atoi_of_validatePid pid
  rw [parseArg, options]
  cases kill with
  | false =>
      simp only [Bool.false_eq_true, if_false, List.append_nil, List.foldlM_cons, List.foldlM_nil,
        applyOption, dir, name, pid]
      exact validateMandatoryArgs_dump ⟨some .dump, atoi rawPid, some rawName, some raw, false⟩
        rfl isPid
  | true =>
      simp only [if_true, List.cons_append, List.nil_append, List.foldlM_cons, List.foldlM_nil,
        applyOption, dir, name, pid]
      exact validateMandatoryArgs_dump ⟨some .dump, atoi rawPid, some rawName, some raw, true⟩
        rfl isPid

end Commands

/-! ## The engine takes what the panel passes -/

theorem engineTakes_of_short {directory n : Text} {raw : Bytes}
    (passed : argumentBytes directory = some raw) (nonempty : raw ≠ [])
    (short : raw.length ≤ maxLength) (chars : ∀ c ∈ n, isNameChar c = true)
    (length : 6 ≤ n.length ∧ n.length ≤ 70) : EngineTakes directory n raw (nameBytes n) := by
  have dir := (validateDir_iff nonempty).mpr short
  have maximum : nameMax = 255 := rfl
  have name := validateName_nameBytes chars (by omega) (by omega)
  have passedName := argumentBytes_name chars
  refine {
    dir := dir
    name := name
    restores := ⟨_, argv_restore passed passedName, parseArg_restore dir name⟩
    dumps := fun pid kill rawPid passedPid isPid =>
      ⟨_, argv_dump passed passedName passedPid, parseArg_dump dir name isPid⟩
    path := if_pos ?_ }
  have nameLength : (nameBytes n).length = n.length := List.length_map ..
  have most : maxLength = 3839 := rfl
  have whole : pathMax = 4096 := rfl
  simp only [Option.getD_some, List.length_append, List.length_singleton, nameLength]
  omega

/-- What holds wherever a path is resolved: the result is absolute. -/
def ResolvesAbsolute (answers : (request : PanelCall) → request.Reply → Prop) : Prop :=
  ∀ path directory, answers (.resolve path) (.ok directory) → isAbsolute directory = true

theorem absolute_of_validate {answers : (request : PanelCall) → request.Reply → Prop}
    (absolute : ResolvesAbsolute answers) (folder : Json) :
    EndsIn (answering answers) (validate folder) (fun directory => isAbsolute directory = true)
      fun _ => True := by
  have passes : ∀ {condition : Bool} {raised : PythonError}, EndsIn (answering answers)
      (Raising.require condition raised : Request Unit) (fun _ => condition = true)
      fun _ => True := fun {_ _} => endsIn_require fun _ => trivial
  have calls : ∀ {α : Type} {request : PanelCall} {value : request.Reply → Except PythonError α},
      EndsIn (answering answers) (request.attempt value)
        (fun result => ∃ reply, answers request reply ∧ value reply = .ok result)
        fun _ => True := fun {_ _ _} => endsIn_attempt fun _ _ _ _ => trivial
  cases folder with
  | string given =>
      refine EndsIn.bind passes fun _ _ => ?_
      refine EndsIn.bind passes fun _ _ => ?_
      refine EndsIn.bind calls fun expanded _ => ?_
      refine EndsIn.bind passes fun _ _ => ?_
      have normalizes : EndsIn (answering answers) (normalize (strip given))
          (fun directory => isAbsolute directory = true) fun _ => True := by
        refine EndsIn.bind calls fun expanded _ => ?_
        intro state
        refine (calls state).mono ?_
        intro outcome final ends
        cases outcome with
        | error raised => trivial
        | ok directory =>
            rcases ends with ⟨reply, answered, returned⟩
            cases returned
            exact absolute expanded directory answered
      refine EndsIn.bind normalizes fun directory isAbsolute => ?_
      refine EndsIn.bind passes fun _ _ => ?_
      refine EndsIn.bind (EndsIn.catching calls fun _ _ => endsIn_throw trivial) fun _ _ => ?_
      refine EndsIn.bind calls fun present _ => ?_
      refine EndsIn.bind passes fun _ _ => ?_
      exact endsIn_pure isAbsolute
  | _ => exact endsIn_throw trivial

/-- A folder that `validate` returns, and a name that `validate_name` returns, are taken by
the engine exactly if the folder has few enough bytes. -/
theorem engineTakes_iff {answers : (request : PanelCall) → request.Reply → Prop}
    (absolute : ResolvesAbsolute answers) {folder : Json} {directory : Text}
    {trace : List (Event PanelInterface)}
    (validated : (validate folder).run.Exec (answering answers) [] (.ok directory) trace)
    {given : Json} {n : Text} (named : validateName given = .ok n) {raw : Bytes}
    (passed : argumentBytes directory = some raw) :
    ∃ rawName, argumentBytes n = some rawName ∧
      (EngineTakes directory n raw rawName ↔ raw.length ≤ maxLength) := by
  have isAbsolutePath : isAbsolute directory = true :=
    (absolute_of_validate absolute folder _).exec validated
  have nonempty := argumentBytes_ne_nil isAbsolutePath passed
  cases given with
  | string name =>
      rcases validateName_eq_ok_iff.mp named with ⟨given, rfl⟩
      have chars := nameChar_fileName given.chars
      refine ⟨nameBytes _, argumentBytes_name chars, ?_⟩
      constructor
      · exact fun takes => (validateDir_iff nonempty).mp takes.dir
      · exact fun short =>
          engineTakes_of_short passed nonempty short chars (length_fileName given)
  | _ => cases named

/-! ## Runs -/

theorem resolvesAbsolute_untroubled : ResolvesAbsolute Untroubled := by
  intro path directory answered
  have same : directory = rooted path := answered.2
  rw [same, rooted]
  split
  · next absolute => exact absolute
  · rfl

theorem exec_validate (folder directory : Text)
    (returned : ((plainRun (validate (.string folder))).map fun ended => ended.1.toOption) =
      some (some directory)) :
    ∃ trace, (validate (.string folder)).run.Exec (answering Untroubled) [] (.ok directory)
      trace := by
  rcases Option.map_eq_some_iff.mp returned with ⟨⟨outcome, trace⟩, evaluated, isOk⟩
  cases outcome with
  | error raised => cases isOk
  | ok value =>
      cases isOk
      exact ⟨trace, exec_of_plainRun evaluated⟩

theorem engineTakes_iff_short : ∃ raw rawName,
    argumentBytes (text "/a") = some raw ∧ argumentBytes (text "run.ksnap") = some rawName ∧
      (EngineTakes (text "/a") (text "run.ksnap") raw rawName ↔ raw.length ≤ maxLength) := by
  have named : validateName (.string (text "run")) = .ok (text "run.ksnap") := by decide
  have passed : argumentBytes (text "/a") = some [47, 97] := rfl
  rcases exec_validate (text "/a") (text "/a") (by decide) with ⟨trace, run⟩
  rcases engineTakes_iff resolvesAbsolute_untroubled run named passed with ⟨rawName, both⟩
  exact ⟨_, rawName, passed, both⟩

/-- Sixteen folders, one in the other, each with a name of 120 characters of two bytes. -/
def accentedFolder : Text :=
  (List.replicate 16 (47 :: List.replicate 120 (codePoint 0xE9))).flatten

/-- The panel creates the folder, and the engine refuses it. -/
theorem not_engineTakes :
    (∃ trace, (validate (.string accentedFolder)).run.Exec (answering Untroubled) []
      (.ok accentedFolder) trace) ∧
      ∃ raw, argumentBytes accentedFolder = some raw ∧ validateDir raw = .error .invalidArgs := by
  have length : (argumentBytes accentedFolder).map List.length = some 3856 := by decide +kernel
  refine ⟨exec_validate accentedFolder accentedFolder (by decide +kernel), ?_⟩
  rcases Option.map_eq_some_iff.mp length with ⟨raw, passed, long⟩
  refine ⟨raw, passed, ?_⟩
  rw [validateDir, long]
  rfl

end Ksnap.Panel
