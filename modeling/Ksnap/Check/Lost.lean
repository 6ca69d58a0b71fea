import Ksnap.Check.MapsText
import Ksnap.Check.Promise

/-!
# Memory that is lost

What becomes of the private memory of a process that the kernel shows in its maps. A
mapping whose name looks like one of the kernel's own is passed over by the dump, and
Check passes over it as well. All bracketed names look like that but those of the heap
and the stack, and so do the names a program gives to its anonymous mappings.
-/

namespace Ksnap

open Foundation

/-! ## What Check finds in the mappings -/

/-- The mappings of a device that would be dumped. -/
def deviceLines (lines : List Bytes) : List MapsLine :=
  (linesOf .dump lines).filter fun parsed => startsWith parsed.path (ascii "/dev/")

/-- Check has nothing against the lines. Its counters are 32 bits wide. -/
structure MapsPass (lines : List Bytes) : Prop where
  noShared : UInt32.ofNat (linesOf .skipShared lines).length = 0
  noDevice : UInt32.ofNat (deviceLines lines).length = 0
  fewKernelMaps : (UInt32.ofNat (linesOf .kernel lines).length).toNat ≤ maxKernelMaps
  someVma : UInt32.ofNat (linesOf .dump lines).length ≠ 0

/-- The mappings that Check counts against a process. -/
def CheckReport.refused (report : CheckReport) : UInt32 × UInt32 :=
  (report.sharedVmas, report.deviceVmas)

theorem onlyScanned_refused : OnlyScanned CheckReport.refused :=
  onlyScanned_of_kept fun _ _ _ _ _ _ _ _ _ _ => rfl

@[simp]
theorem sharedVmas_reasonIf (report : CheckReport) (code : ReasonCode) (detail : Bytes)
    (condition : Bool) :
    (reasonIf condition code detail report).sharedVmas = report.sharedVmas :=
  congrArg Prod.fst (onlyScanned_refused.reasonIf report condition code detail)

@[simp]
theorem deviceVmas_reasonIf (report : CheckReport) (code : ReasonCode) (detail : Bytes)
    (condition : Bool) :
    (reasonIf condition code detail report).deviceVmas = report.deviceVmas :=
  congrArg Prod.snd (onlyScanned_refused.reasonIf report condition code detail)

/-- The numbers that lines count against a process. -/
def refusedOf (lines : List Bytes) : UInt32 × UInt32 :=
  (UInt32.ofNat (linesOf .skipShared lines).length, UInt32.ofNat (deviceLines lines).length)

theorem deviceLines_append (lines more : List Bytes) :
    deviceLines (lines ++ more) = deviceLines lines ++ deviceLines more := by
  simp [deviceLines, linesOf_append]

theorem refused_scanMapsLine {scan : MapsScan} {seen : List Bytes}
    (counted : scan.report.refused = refusedOf seen) (mapsLine : Bytes) :
    (scanMapsLine scan mapsLine).report.refused = refusedOf (seen ++ [mapsLine]) := by
  simp only [CheckReport.refused, refusedOf, Prod.mk.injEq] at counted
  rcases counted with ⟨shared, device⟩
  unfold scanMapsLine
  split
  · rename_i fails
    simp only [CheckReport.refused, refusedOf, deviceLines_append, linesOf_append, shared, device]
    simp [deviceLines, linesOf_unparsable fails]
  · rename_i parsed parses
    split
    all_goals
      rename_i class_
      simp only [CheckReport.refused, refusedOf, deviceLines_append, linesOf_append, shared,
        device]
      simp [deviceLines, linesOf_singleton parses, class_]
    cases isDevice : startsWith parsed.path (ascii "/dev/") <;> simp [isDevice]

theorem refused_scanMapsLines {report : CheckReport} (counted : report.refused = refusedOf [])
    (lines : List Bytes) :
    (lines.foldl scanMapsLine ⟨report, [], []⟩).report.refused = refusedOf lines := by
  induction lines using List.reverseRecOn with
  | nil => exact counted
  | append_singleton seen mapsLine ih =>
      rw [List.foldl_append]
      exact refused_scanMapsLine ih mapsLine

theorem reasons_scanMapsLines (scan : MapsScan) (lines : List Bytes) :
    (lines.foldl scanMapsLine scan).report.reasons = scan.report.reasons := by
  induction lines generalizing scan with
  | nil => rfl
  | cons mapsLine lines ih =>
      rw [List.foldl_cons, ih]
      unfold scanMapsLine
      split
      · rfl
      · split <;> rfl

/-- The verdicts on lines that were read to their end. -/
theorem reasons_scanMaps_iff {process : CheckedProcess} {report : CheckReport} {maps : MapsFile}
    (before : beforeScans process = .ok report) (opened : process.maps = .ok maps)
    (reads : maps.readFails = false) :
    (scanMaps process (probeExe process report)).reasons = [] ↔
      MapsPass (fgetsLines mapsLineMax maps.text) ∧ (probeExe process report).reasons = [] := by
  have initially : (probeExe process report).refused = refusedOf [] := by
    rw [onlyScanned_refused.probeExe, onlyScanned_refused.beforeScans before]
    rfl
  have refused := refused_scanMapsLines initially (fgetsLines mapsLineMax maps.text)
  have counts := counts_scanMapsLines (counts_probeExe before) (fgetsLines mapsLineMax maps.text)
  simp only [CheckReport.refused, refusedOf, Prod.mk.injEq] at refused
  simp only [CheckReport.counts, countsOf, CheckCounts.mk.injEq] at counts
  simp only [scanMaps, opened, mapsVerdicts, reasons_reasonIf_eq_nil_iff, kernelMaps_reasonIf,
    dumpableVmas_reasonIf, sharedVmas_reasonIf, deviceVmas_reasonIf, decide_eq_false_iff_not,
    not_lt, reads, true_and, reasons_scanMapsLines, refused.1, refused.2, counts.1, counts.2.1]
  constructor
  · rintro ⟨someVma, fewKernelMaps, noDevice, noShared, noReasons⟩
    exact ⟨⟨by simpa using noShared, by simpa using noDevice, fewKernelMaps, someVma⟩, noReasons⟩
  · rintro ⟨pass, noReasons⟩
    exact ⟨pass.someVma, pass.fewKernelMaps, by simp [pass.noDevice], by simp [pass.noShared],
      noReasons⟩

/-- Without a reason Check had nothing against the mappings. -/
theorem mapsPass_of_noReasons {process : CheckedProcess} {maps : MapsFile} {probe : Bool}
    (opened : process.maps = .ok maps) (reads : maps.readFails = false)
    (noReasons : (checkOne process probe).reasons = []) :
    MapsPass (fgetsLines mapsLineMax maps.text) := by
  rcases reasons_checkOne noReasons with ⟨report, before, scanned⟩
  exact ((reasons_scanMaps_iff before opened reads).mp scanned).1

/-! ## Memory of the process -/

/-- `[vdso]`, `[vvar...]`, `[vsyscall]` and `[uprobes]` -/
def kernelOwned (name : Bytes) : Bool :=
  name == ascii "[vdso]" || startsWith name (ascii "[vvar") || name == ascii "[vsyscall]" ||
    name == ascii "[uprobes]"

/-- The mapping is memory of the process that can be read and that it shares with nobody. -/
structure ShownMapping.OfProcess (mapping : ShownMapping) : Prop where
  readable : mapping.readable = true
  isPrivate : mapping.isPrivate = true
  notKernels : kernelOwned mapping.name = false

/-- Whatever else the process is, its memory is in the table of a dump, or Check has a
reason against it. -/
def NothingLost (text : Bytes) : Prop :=
  ∀ (process : CheckedProcess) (maps : MapsFile) (probe : Bool) (memory : Allocations)
    (table : VmaTable), process.maps = .ok maps → maps.text = text →
    collectVmas (some maps) memory .empty = some table →
      ∀ mapping, Shows text mapping → mapping.OfProcess →
        (∃ vma ∈ table.vmas, VmaDescribed table.pool.data mapping.line vma) ∨
          (checkOne process probe).reasons ≠ []

theorem not_kernelMap_of_dumpable {path : Bytes} (dumpable : isDumpablePath path = true) :
    isKernelMap path = false := by
  cases path with
  | nil => rfl
  | cons first rest =>
      by_cases bracket : first = 91
      · subst bracket
        simp only [isDumpablePath, List.head?_cons, ne_eq, not_true_eq_false, if_false,
          Bool.or_eq_true, beq_iff_eq] at dumpable
        rcases dumpable with heap | stack
        · rw [heap]
          rfl
        · rw [stack]
          rfl
      · have vdso : ascii "[vdso]" = 91 :: ascii "vdso]" := rfl
        have vvar : ascii "[vvar" = 91 :: ascii "vvar" := rfl
        simp [isKernelMap, startsWith, vdso, vvar, bracket, List.isPrefixOf, Ne.symm bracket]

section

variable {mapping : ShownMapping}

/-- Whether memory of the process is dumped is decided by the first word of its name. -/
theorem class_dump_iff (ofProcess : mapping.OfProcess) :
    classifyMapsLine mapping.line = .dump ↔ isDumpablePath mapping.visibleName = true := by
  have readable : mapping.line.privileges[0]? = some 114 := by
    simp [ShownMapping.line, ShownMapping.privileges, ofProcess.readable]
  have isPrivate : mapping.line.privileges[3]? = some 112 := by
    simp [ShownMapping.line, ShownMapping.privileges, ofProcess.isPrivate]
  have path : mapping.line.path = mapping.visibleName := rfl
  simp only [classifyMapsLine, readable, isPrivate, path, ne_eq, not_true_eq_false, if_false]
  constructor
  · intro dumped
    split at dumped
    · cases dumped
    · split at dumped
      · cases dumped
      · rename_i dumpable
        simpa using dumpable
  · intro dumpable
    simp [dumpable, not_kernelMap_of_dumpable dumpable]

theorem length_visibleName : mapping.visibleName.length < pathMax :=
  (List.length_take_le _ _).trans_lt (by decide)

theorem zero_notMem_visibleName : 0 ∉ mapping.visibleName := by
  intro mem
  exact mapping.name_printed.1
    ((List.takeWhile_sublist _).subset (List.mem_of_mem_take mem))

/-- An entry has one path only. -/
theorem path_of_described {pool : Bytes} {first second : MapsLine} {vma : VmaDescriptor}
    (firstDescribed : VmaDescribed pool first vma) (secondDescribed : VmaDescribed pool second vma)
    (firstShort : first.path.length < pathMax) (secondShort : second.path.length < pathMax)
    (firstNulFree : 0 ∉ first.path) (secondNulFree : 0 ∉ second.path) :
    first.path = second.path := by
  have maximum : pathMax = 4096 := rfl
  have length : first.path.length = second.path.length := by
    have firstLength : vma.pathLen = .ofNat first.path.length :=
      congrArg (·.pathLen) firstDescribed.1
    have secondLength : vma.pathLen = .ofNat second.path.length :=
      congrArg (·.pathLen) secondDescribed.1
    have same := congrArg UInt32.toNat (firstLength.symm.trans secondLength)
    rw [UInt32.toNat_ofNat', UInt32.toNat_ofNat', Nat.mod_eq_of_lt (by omega),
      Nat.mod_eq_of_lt (by omega)] at same
    exact same
  by_cases none_ : first.path = []
  · rw [none_] at length ⊢
    exact (List.length_eq_zero_iff.mp length.symm).symm
  · have alsoSome : second.path ≠ [] := by
      intro secondNone
      rw [secondNone] at length
      exact none_ (List.length_eq_zero_iff.mp length)
    rw [← (firstDescribed.2 none_).poolString_eq firstNulFree,
      (secondDescribed.2 alsoSome).poolString_eq secondNulFree]

/-- Memory of the process is in the table exactly when the first word of its name allows it. -/
theorem described_iff {text : Bytes} {start : PathPool} {table : VmaTable}
    (collected : VmasCollected start (fgetsLines mapsLineMax text) table)
    (shows : Shows text mapping) (ofProcess : mapping.OfProcess) :
    (∃ vma ∈ table.vmas, VmaDescribed table.pool.data mapping.line vma) ↔
      isDumpablePath mapping.visibleName = true := by
  constructor
  · rintro ⟨vma, mem, described⟩
    rcases collected.exists_line mem with ⟨parsed, parsedMem, parsedDescribed⟩
    have wellFormed := wellFormed_of_mem_linesOf parsedMem
    have class_ : classifyMapsLine parsed = .dump := by
      simpa using (List.mem_filter.mp parsedMem).2
    have path : mapping.visibleName = parsed.path := path_of_described described parsedDescribed
      length_visibleName wellFormed.path_length zero_notMem_visibleName wellFormed.path_nulFree
    rw [path]
    unfold classifyMapsLine at class_
    split at class_
    · cases class_
    · split at class_
      · cases class_
      · split at class_
        · cases class_
        · split at class_
          · cases class_
          · rename_i dumpable
            simpa using dumpable
  · intro dumpable
    apply collected.exists_vma
    exact List.mem_filter.mpr ⟨line_mem_parsedLines shows,
      decide_eq_true ((class_dump_iff ofProcess).mpr dumpable)⟩

end

/-! ## Exactly when nothing is lost -/

/-- A process that Check has nothing against but what it finds in these mappings. -/
def processOf (text : Bytes) : CheckedProcess :=
  { smallestProcess with maps := .ok ⟨text, false⟩ }

theorem checkOne_processOf {text : Bytes} (pass : MapsPass (fgetsLines mapsLineMax text)) :
    (checkOne (processOf text) false).reasons = [] := by
  have before : ∃ report, beforeScans (processOf text) = .ok report ∧
      (probeExe (processOf text) report).reasons = [] := ⟨_, rfl, rfl⟩
  rcases before with ⟨report, before, noReasons⟩
  have scanned : (scanMaps (processOf text) (probeExe (processOf text) report)).reasons = [] :=
    (reasons_scanMaps_iff before rfl rfl).mpr ⟨pass, noReasons⟩
  simp only [checkOne, before, Bool.false_and, Bool.false_eq_true, if_false]
  rw [reasons_countChildren, reasons_scanFds]
  exact scanned

/-- A dump of mappings that fit and are found completes. -/
theorem exists_collectVmas {text : Bytes} (pass : MapsPass (fgetsLines mapsLineMax text))
    (fit : VmasFit (fgetsLines mapsLineMax text)) :
    ∃ table, collectVmas (some ⟨text, false⟩) .plenty .empty = some table := by
  rcases collectVmaLines_iff.mpr fit with ⟨table, loop⟩
  refine ⟨table, collectVmas_eq_some_iff.mpr ⟨_, rfl, rfl, ?_, loop⟩⟩
  have collected := foldlM_invariant VmasPooled
    (fun _ _ _ _ before taken => before.step taken) .initial loop
  intro none_
  have length := collected.vmas.length_eq
  have some_ := pass.someVma
  rw [none_, List.length_nil] at length
  rw [length] at some_
  exact some_ rfl

theorem vmasFit_of_collectVmas {maps : MapsFile} {memory : Allocations} {table : VmaTable}
    (collects : collectVmas (some maps) memory .empty = some table) :
    VmasFit (fgetsLines mapsLineMax maps.text) := by
  rcases collectVmas_eq_some_iff.mp collects with ⟨_, same, _, _, loop⟩
  cases same
  have collected := foldlM_invariant VmasPooled
    (fun _ _ _ _ before taken => before.step taken) .initial loop
  exact collected.fit

/-- Memory with a bracketed name is lost, where nothing else stops Check and the dump. -/
theorem not_nothingLost_of_bracketed {text : Bytes} {mapping : ShownMapping}
    (shows : Shows text mapping) (ofProcess : mapping.OfProcess)
    (bracketed : isDumpablePath mapping.visibleName = false)
    (pass : MapsPass (fgetsLines mapsLineMax text)) (fit : VmasFit (fgetsLines mapsLineMax text)) :
    ¬NothingLost text := by
  intro nothingLost
  rcases exists_collectVmas pass fit with ⟨table, collects⟩
  rcases vmasCollected_of_collectVmas collects with ⟨_, same, _, _, collected⟩
  cases same
  rcases nothingLost (processOf text) _ false .plenty table rfl rfl collects mapping shows
    ofProcess with described | reason
  · have dumpable := (described_iff collected shows ofProcess).mp described
    rw [bracketed] at dumpable
    cases dumpable
  · exact reason (checkOne_processOf pass)

/-- Nothing is lost exactly when all memory of the process has names that can be dumped, or
Check has something against other mappings, or these are too many for a dump. -/
theorem nothingLost_iff (text : Bytes) :
    NothingLost text ↔
      (∀ mapping, Shows text mapping → mapping.OfProcess →
        isDumpablePath mapping.visibleName = true) ∨
      ¬MapsPass (fgetsLines mapsLineMax text) ∨ ¬VmasFit (fgetsLines mapsLineMax text) := by
  constructor
  · intro nothingLost
    by_contra lost
    rw [not_or, not_or, not_not, not_not] at lost
    rcases lost with ⟨notAll, pass, fit⟩
    apply notAll
    intro mapping shows ofProcess
    by_contra bracketed
    exact not_nothingLost_of_bracketed shows ofProcess (by simpa using bracketed) pass fit
      nothingLost
  · intro condition process maps probe memory table opened same collects mapping shows ofProcess
    subst same
    rcases vmasCollected_of_collectVmas collects with ⟨_, same, reads, _, collected⟩
    cases same
    rcases condition with dumpable | notPass | notFit
    · exact .inl ((described_iff collected shows ofProcess).mpr (dumpable mapping shows ofProcess))
    · right
      intro noReasons
      exact notPass (mapsPass_of_noReasons opened reads noReasons)
    · exact absurd (vmasFit_of_collectVmas collects) notFit

/-! ## A named anonymous mapping -/

/-- One readable page, private to the process and without a file. -/
def anonymousPage (start stop : UInt64) (nonempty : start < stop) (name : Bytes)
    (printed : 0 ∉ name ∧ 10 ∉ name) (visible : Starts (isSpace · = false) name) :
    ShownMapping where
  start := start
  stop := stop
  readable := true
  writable := true
  executable := false
  isPrivate := true
  fileOffset := 0
  major := 0
  minor := 0
  inode := 0
  name := name
  nonempty := nonempty
  name_printed := printed
  name_visible := visible

/-- A page without a name. -/
def plainPage : ShownMapping :=
  anonymousPage 0x1000 0x2000 (by decide) [] (by decide) (fun _ first => by cases first)

/-- A page that the program gave a name. -/
def namedPage : ShownMapping :=
  anonymousPage 0x3000 0x4000 (by decide) (ascii "[anon:arena]") (by decide) (by
    intro byte first
    cases first
    rfl)

/-- The maps of a process with both pages. -/
def namedPageText : Bytes :=
  plainPage.body ++ 10 :: (namedPage.body ++ [10])

/-- The named page is neither in a dump nor a reason for Check. -/
theorem not_nothingLost : ¬∀ text, NothingLost text := by
  intro always
  have shows : Shows namedPageText namedPage := by
    refine ⟨plainPage.body ++ [10], [], ?_, by simp [namedPageText]⟩
    intro byte last
    simpa using last.symm
  refine not_nothingLost_of_bracketed shows ⟨rfl, rfl, by decide +kernel⟩ (by decide +kernel)
    ⟨?_, ?_, ?_, ?_⟩ ⟨?_, ?_, ?_, ?_⟩ (always namedPageText)
  all_goals decide +kernel

end Ksnap
