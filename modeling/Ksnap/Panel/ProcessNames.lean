import Ksnap.Panel.Known
import Ksnap.Panel.ProcessFiles
import Mathlib.Data.List.Nodup

/-!
# Names of processes

What `read_process` takes out of the files of a process whose name is any that the kernel
allows. The name is the first line of `status`, where the kernel escapes newlines and
backslashes in it and nothing else, while `str.splitlines` breaks a line in many more
places. So the name can hold lines of its own that look like those of the kernel.
-/

namespace Ksnap.Panel

open Foundation Raising

/-! ## The processes -/

/-- The folder `/proc`, and the users of the system. -/
structure ProcessTable where
  entries : List Text
  processes : List KernelProcess
  distinct : (processes.map KernelProcess.pid).Nodup
  listed : ∀ process ∈ processes, process.folder ∈ entries
  users : ℤ → Option Text

namespace ProcessTable

variable (table : ProcessTable)

def find (name : Text) : Option KernelProcess :=
  table.processes.find? fun process => process.folder = name

/-- A folder that is not there. -/
def missing : PythonError :=
  .osError .fileNotFound []

def read (name : Text) (file : ProcessFile) : Except PythonError Bytes :=
  match table.find name with
  | none => .error missing
  | some process => process.read file

def owner (name : Text) : Except PythonError ℤ :=
  match table.find name with
  | none => .error missing
  | some process => process.readOwner

def user (uid : ℤ) : Except PythonError Text :=
  match table.users uid with
  | some name => .ok name
  | none => .error .keyError

def Answers : (request : PanelCall) → request.Reply → Prop
  | .processEntries, entries => entries = table.entries
  | .readProcessFile name file, reply => reply = table.read name file
  | .processOwner name, reply => reply = table.owner name
  | .userName uid, reply => reply = table.user uid
  | _, _ => True

/-- The name of a user, or the number of one without a name. -/
def userOf (uid : ℤ) : Text :=
  (table.users uid).getD (decimal uid)

end ProcessTable

/-- The row has the user and the size that the kernel's own lines say. -/
def TellsKernel (table : ProcessTable) (process : KernelProcess) (row : ProcessRow) : Prop :=
  row.user = table.userOf process.uid.toNat ∧
    row.rssKb = process.rssKb.elim 0 fun rssKb => (rssKb.toNat : ℤ)

/-- `list_processes` raises nothing, and every row whose `status` could be read tells what the
kernel says. -/
def ReadsKernel (lower : Text → Text) (table : ProcessTable) : Prop :=
  (∀ query state outcome final,
    (listProcesses lower query).run.Exec (answering table.Answers) state outcome final →
      ∃ list, outcome = .ok list) ∧
  ∀ process ∈ table.processes, process.unreadable .status = none → ∀ state row final,
    (readProcess process.folder).run.Exec (answering table.Answers) state (.ok (some row)) final →
      TellsKernel table process row

/-! ## What the functions come to -/

namespace KernelProcess

variable (process : KernelProcess)

/-- The text of a file that can be read. -/
def readable (file : ProcessFile) : Option Text :=
  match process.unreadable file with
  | some _ => none
  | none => some (fileText (process.content file))

def arguments : List Text :=
  argumentsOf ((process.readable .cmdline).getD [])

/-- What the panel finds in `status`. -/
def statusFields : Except PythonError StatusFields :=
  readStatus ((process.readable .status).getD [])

def uidOf : Option ℤ → ℤ
  | some uid => uid
  | none =>
      match process.owner with
      | .ok uid => uid.toNat
      | .error _ => 0

end KernelProcess

namespace ProcessTable

variable (table : ProcessTable)

def row (process : KernelProcess) (fields : StatusFields) : ProcessRow :=
  let state := process.statWords.getD 0 []
  { pid := process.pid.toNat
    name := fileText process.comm
    cmdline := List.intercalate [32] process.arguments
    user := table.userOf (process.uidOf fields.uid)
    state := (stateNames.lookup state).getD state
    threads := process.threads.toNat
    rssKb := fields.rssKb }

/-- `readProcess` of a folder. -/
def readOutcome (process : KernelProcess) : Except PythonError (Option ProcessRow) :=
  if process.readable .stat = none ∨ process.arguments = [] then .ok none
  else process.statusFields >>= fun fields => .ok (some (table.row process fields))

end ProcessTable

section Outcomes

variable {table : ProcessTable} {process : KernelProcess}

theorem find_folder (mem : process ∈ table.processes) :
    table.find process.folder = some process := by
  cases found : table.find process.folder with
  | none =>
      have absent := List.find?_eq_none.mp found process mem
      exact absurd (decide_eq_true rfl) absent
  | some other =>
      have sameFolder : other.folder = process.folder := by
        simpa using List.find?_some found
      have samePid : other.pid = process.pid := by
        have numbers := congrArg Foundation.decimalValue sameFolder
        rw [KernelProcess.folder, KernelProcess.folder, decimalValue_decimalDigits,
          decimalValue_decimalDigits] at numbers
        exact UInt32.toNat_inj.mp numbers
      exact congrArg some
        (List.inj_on_of_nodup_map table.distinct (List.mem_of_find?_eq_some found) mem samePid)

theorem yields_readText (name : Text) (file : ProcessFile) :
    Yields (answering table.Answers) (readText name file)
      (.ok ((table.find name).bind fun process => process.readable file)) := by
  have reads : Yields (answering table.Answers)
      ((PanelCall.readProcessFile name file).attempt (Except.map fun raw => some (fileText raw)))
      ((table.read name file).map fun raw => some (fileText raw)) :=
    yields_answer _ fun _ => Iff.rfl
  have caught : rescue PythonError.isOsError (fun _ => .ok none)
      ((table.read name file).map fun raw => some (fileText raw)) =
        .ok ((table.find name).bind fun process => process.readable file) := by
    rw [ProcessTable.read]
    cases table.find name with
    | none => rfl
    | some process =>
        dsimp only [Option.bind_some]
        rw [KernelProcess.read, KernelProcess.readable]
        cases process.unreadable file with
        | none => rfl
        | some failure => rfl
  rw [← caught]
  exact reads.catching fun _ => Yields.of_pure

theorem yields_readable (mem : process ∈ table.processes) (file : ProcessFile) :
    Yields (answering table.Answers) (readText process.folder file)
      (.ok (process.readable file)) := by
  have reads : Yields (answering table.Answers) (readText process.folder file) _ :=
    yields_readText process.folder file
  rw [find_folder mem] at reads
  exact reads

theorem yields_ownerOf (mem : process ∈ table.processes) (uid : Option ℤ) :
    Yields (answering table.Answers) (ownerOf process.folder uid) (.ok (process.uidOf uid)) := by
  cases uid with
  | some uid => exact Yields.of_pure
  | none =>
      have asks : Yields (answering table.Answers)
          ((PanelCall.processOwner process.folder).attempt id : Request ℤ)
          (table.owner process.folder) :=
        yields_answer _ fun _ => Iff.rfl
      have caught : rescue PythonError.isOsError (fun _ => .ok 0) (table.owner process.folder) =
          .ok (process.uidOf none) := by
        rw [ProcessTable.owner, find_folder mem]
        dsimp only
        rw [KernelProcess.readOwner, KernelProcess.uidOf]
        cases process.owner with
        | ok uid => rfl
        | error failure => rfl
      rw [← caught]
      exact asks.catching fun _ => Yields.of_pure

theorem yields_username (uid : ℤ) :
    Yields (answering table.Answers) (username uid) (.ok (table.userOf uid)) := by
  have asks : Yields (answering table.Answers) ((PanelCall.userName uid).attempt id : Request Text)
      (table.user uid) :=
    yields_answer _ fun _ => Iff.rfl
  have caught : rescue (fun error => decide (error = .keyError)) (fun _ => .ok (decimal uid))
      (table.user uid) = .ok (table.userOf uid) := by
    rw [ProcessTable.user, ProcessTable.userOf]
    cases table.users uid with
    | some name => rfl
    | none => rfl
  rw [← caught]
  exact asks.catching fun _ => Yields.of_pure

theorem toInt_uint32 (number : UInt32) :
    toInt (.string (decimalDigits number.toNat)) = .ok (number.toNat : ℤ) :=
  toInt_decimalDigits (number.toNat_lt.trans (by decide))

theorem yields_describeProcess (mem : process ∈ table.processes) :
    Yields (answering table.Answers)
      (describeProcess process.folder (fileText process.comm) (process.statWords.getD 0 [])
        process.threads.toNat process.arguments)
      (process.statusFields >>= fun fields => .ok (table.row process fields)) := by
  apply (yields_readable mem .status).bind_ok
  apply Yields.of_liftExcept.bind
  intro fields
  apply (yields_ownerOf mem fields.uid).bind_ok
  have pid : Yields (answering table.Answers)
      (liftExcept (toInt (.string process.folder)) : Request ℤ) (.ok (process.pid.toNat : ℤ)) := by
    rw [KernelProcess.folder, toInt_uint32]
    exact Yields.of_liftExcept
  exact pid.bind_ok ((yields_username _).bind_ok Yields.of_pure)

theorem yields_readTarget (mem : process ∈ table.processes) :
    Yields (answering table.Answers)
      (readTarget process.folder (fileText process.comm) process.statWords)
      (if process.arguments = [] then .ok none
        else process.statusFields >>= fun fields => .ok (some (table.row process fields))) := by
  have word : process.statWords.getD 17 [] = decimalDigits process.threads.toNat := by
    simp [KernelProcess.statWords, process.seventeen]
  have threads : Yields (answering table.Answers)
      (liftExcept (toInt (.string (process.statWords.getD 17 []))) : Request ℤ)
      (.ok (process.threads.toNat : ℤ)) := by
    rw [word, toInt_uint32]
    exact Yields.of_liftExcept
  apply threads.bind_ok
  apply (yields_readable mem .cmdline).bind_ok
  by_cases none : process.arguments = []
  · rw [if_pos none]
    dsimp only
    rw [← KernelProcess.arguments, if_pos none]
    exact Yields.of_pure
  · rw [if_neg none]
    dsimp only
    rw [← KernelProcess.arguments, if_neg none]
    have row := (yields_describeProcess mem).map (f := some)
    rw [bind_assoc] at row
    exact row

theorem yields_readProcess (mem : process ∈ table.processes) :
    Yields (answering table.Answers) (readProcess process.folder) (table.readOutcome process) := by
  apply (yields_readable mem .stat).bind_ok
  rw [ProcessTable.readOutcome]
  have readable : process.readable .stat = none ∨
      process.readable .stat = some (fileText (process.content .stat)) := by
    rw [KernelProcess.readable]
    cases process.unreadable .stat with
    | none => exact .inr rfl
    | some failure => exact .inl rfl
  rcases readable with gone | there
  · rw [if_pos (.inl gone), gone]
    exact Yields.of_pure
  · have enough : ¬ process.statWords.length < 18 := by
      simp [KernelProcess.statWords, process.seventeen]
      omega
    have target := yields_readTarget mem
    rw [there, Option.bind_some, parseStat_content]
    dsimp only
    rw [if_neg enough]
    by_cases none : process.arguments = []
    · rw [if_pos (.inr none)]
      rw [if_pos none] at target
      exact target
    · rw [if_neg (by simp [none])]
      rw [if_neg none] at target
      exact target

/-- A folder that belongs to no process. -/
theorem yields_readProcess_missing {name : Text} (missing : table.find name = none) :
    Yields (answering table.Answers) (readProcess name) (.ok none) := by
  have stat : Yields (answering table.Answers) (readText name .stat) _ := yields_readText name .stat
  rw [missing] at stat
  exact stat.bind_ok Yields.of_pure

/-- `readProcess` of any name. -/
def ProcessTable.entryOutcome (table : ProcessTable) (name : Text) :
    Except PythonError (Option ProcessRow) :=
  (table.find name).elim (.ok none) table.readOutcome

theorem find_cases (name : Text) : table.find name = none ∨
    ∃ process ∈ table.processes, process.folder = name ∧ table.find name = some process := by
  cases found : table.find name with
  | none => exact .inl rfl
  | some process =>
      have same : process.folder = name := by simpa using List.find?_some found
      exact .inr ⟨process, List.mem_of_find?_eq_some found, same, rfl⟩

theorem yields_entry (name : Text) :
    Yields (answering table.Answers) (readProcess name) (table.entryOutcome name) := by
  rw [ProcessTable.entryOutcome]
  rcases find_cases name with missing | ⟨process, mem, rfl, found⟩
  · rw [missing]
    exact yields_readProcess_missing missing
  · rw [found]
    exact yields_readProcess mem

/-- A round of the loop in `listProcesses`. -/
def ProcessTable.listOutcome (table : ProcessTable) (lower : Text → Text) (query : Text)
    (list : ProcessList) (entry : Text) : Except PythonError ProcessList :=
  if isDigits entry then
    table.entryOutcome entry >>= fun row => .ok (list.add lower query row)
  else .ok list

theorem yields_listEntry (lower : Text → Text) (query : Text) (list : ProcessList)
    (entry : Text) :
    Yields (answering table.Answers) (listEntry lower query list entry)
      (table.listOutcome lower query list entry) := by
  rw [listEntry, ProcessTable.listOutcome]
  by_cases digits : isDigits entry = true
  · rw [if_pos digits, if_pos digits]
    exact (yields_entry entry).map
  · rw [if_neg digits, if_neg digits]
    exact Yields.of_pure

theorem yields_listProcesses (lower : Text → Text) (query : Option Text) :
    Yields (answering table.Answers) (listProcesses lower query)
      (table.entries.foldlM (table.listOutcome lower (lower (strip (query.getD []))))
          { found := [], kernelThreads := 0 } >>= fun list =>
        .ok { list with
          found := list.found.insertionSort fun one other => one.pid ≤ other.pid }) := by
  have entries : Yields (answering table.Answers)
      (PanelCall.processEntries.ask id : Request (List Text)) (.ok table.entries) :=
    yields_answer _ fun _ => Iff.rfl
  exact entries.bind_ok
    ((yields_foldlM (yields_listEntry lower _)).bind fun _ => Yields.of_pure)

theorem isDigits_folder : isDigits process.folder = true := by
  have digits : ∀ c ∈ process.folder, isDigit c = true := by
    intro c mem
    rw [isDigit, digitOf_of_isDecimal (isDecimal_of_mem c mem)]
    rfl
  rw [isDigits, List.all_eq_true.mpr digits, Bool.and_true, Bool.not_eq_true',
    List.isEmpty_eq_false_iff]
  exact decimalDigits_ne_nil _

/-- `listProcesses` ends well exactly if the reading of every process does. -/
theorem listProcesses_ok_iff (lower : Text → Text) (query : Option Text) :
    (∀ state outcome final,
      (listProcesses lower query).run.Exec (answering table.Answers) state outcome final →
        ∃ list, outcome = .ok list) ↔
      ∀ process ∈ table.processes, ∃ row, table.readOutcome process = .ok row := by
  have yields : Yields (answering table.Answers) (listProcesses lower query) _ :=
    yields_listProcesses lower query
  constructor
  · intro never process mem
    rcases yields.completes [] with ⟨final, ran⟩
    rcases never [] _ final ran with ⟨list, listed⟩
    rcases ok_of_bind listed with ⟨gathered, loop, -⟩
    rcases ok_of_foldlM loop process.folder (table.listed process mem) with ⟨before, after, round⟩
    rw [ProcessTable.listOutcome, if_pos isDigits_folder, ProcessTable.entryOutcome,
      find_folder mem] at round
    rcases ok_of_bind round with ⟨row, read, -⟩
    exact ⟨row, read⟩
  · intro each state outcome final ran
    rw [yields.only state outcome final ran]
    have round : ∀ entry ∈ table.entries, ∀ list, ∃ after,
        table.listOutcome lower (lower (strip (query.getD []))) list entry = .ok after := by
      intro entry _ list
      rw [ProcessTable.listOutcome, ProcessTable.entryOutcome]
      split
      · rcases find_cases entry with missing | ⟨process, mem, -, found⟩
        · rw [missing]
          exact ⟨_, rfl⟩
        · rcases each process mem with ⟨row, read⟩
          rw [found, Option.elim_some, read]
          exact ⟨_, rfl⟩
      · exact ⟨list, rfl⟩
    rcases foldlM_ok round { found := [], kernelThreads := 0 } with ⟨list, loop⟩
    rw [loop]
    exact ⟨_, rfl⟩

end Outcomes

/-! ## Exactly when -/

/-- The last line that the panel takes for the size of the memory. -/
def lastRssLine (lines : List Text) : Option Text :=
  (lines.filter isRssLine).getLast?

namespace KernelProcess

/-- A process of which the panel reads every file, and which is no kernel thread. -/
structure Shown (process : KernelProcess) : Prop where
  stat : process.unreadable .stat = none
  arguments : process.arguments ≠ []
  status : process.unreadable .status = none

/-- Where a line in the name begins like one that the panel reads, its second word is a number.
Without a line of the kernel's own, the last size in the name is 0. -/
structure Harmless (process : KernelProcess) : Prop where
  numbers : ∀ line ∈ nameLines process.comm, isUidLine line = true ∨ isRssLine line = true →
    ∃ number, secondNumber line = .ok number
  size : process.rssKb = none → ∀ line ∈ lastRssLine (nameLines process.comm),
    secondNumber line = .ok 0

end KernelProcess

section Lines

theorem not_uidLine_of_rssLine {line : Text} (isRss : isRssLine line = true) :
    isUidLine line = false := by
  cases line with
  | nil => cases isRss
  | cons c line =>
      have both : ((86 : CodePoint) == c && (text "mRSS:").isPrefixOf line) = true := isRss
      rw [Bool.and_eq_true, beq_iff_eq] at both
      rw [← both.1]
      rfl

theorem readStatusLine_ok_iff {fields : StatusFields} {line : Text} :
    (∃ after, readStatusLine fields line = .ok after) ↔
      (isUidLine line = true ∨ isRssLine line = true →
        ∃ number, secondNumber line = .ok number) := by
  rw [readStatusLine]
  by_cases isUid : isUidLine line = true
  · rw [if_pos isUid]
    cases secondNumber line with
    | ok number => simp [bind, Except.bind, pure, Except.pure]
    | error raised => simp [bind, Except.bind, isUid]
  · rw [if_neg isUid]
    by_cases isRss : isRssLine line = true
    · rw [if_pos isRss]
      cases secondNumber line with
      | ok number => simp [bind, Except.bind, pure, Except.pure]
      | error raised => simp [bind, Except.bind, isRss]
    · rw [if_neg isRss]
      simp [isUid, isRss, pure, Except.pure]

/-- The last size of all is the one that stays. -/
theorem rssKb_of_foldlM {lines : List Text} {fields after : StatusFields}
    (loop : lines.foldlM readStatusLine fields = .ok after) :
    (lastRssLine lines).elim (after.rssKb = fields.rssKb) fun line =>
      secondNumber line = .ok after.rssKb := by
  induction lines using List.reverseRecOn generalizing after with
  | nil =>
      cases loop
      rfl
  | append_singleton lines line ih =>
      rw [List.foldlM_append] at loop
      rcases ok_of_bind loop with ⟨middle, earlier, last⟩
      rw [List.foldlM_cons] at last
      rcases ok_of_bind last with ⟨next, last, same⟩
      cases same
      rw [readStatusLine] at last
      have before := ih earlier
      by_cases isRss : isRssLine line = true
      · rw [not_uidLine_of_rssLine isRss, if_neg Bool.false_ne_true, if_pos isRss] at last
        rcases ok_of_bind last with ⟨number, read, same⟩
        cases same
        rw [lastRssLine, List.filter_append, List.filter_singleton, isRss]
        simpa using read
      · have sameSize : after.rssKb = middle.rssKb := by
          rw [if_neg isRss] at last
          split at last
          · rcases ok_of_bind last with ⟨number, -, same⟩
            cases same
            rfl
          · cases last
            rfl
        rw [lastRssLine, List.filter_append, List.filter_singleton, Bool.eq_false_iff.mpr isRss,
          sameSize]
        simpa [lastRssLine] using before

end Lines

section Exactly

variable {table : ProcessTable} {process : KernelProcess}

/-- What the loop over the lines of the name leaves. -/
def nameFields (process : KernelProcess) : Except PythonError StatusFields :=
  (nameLines process.comm).foldlM readStatusLine { uid := none, rssKb := 0 }

theorem readOutcome_of_shown (shown : process.Shown) :
    table.readOutcome process = nameFields process >>= fun fields =>
      .ok (some (table.row process {
        uid := some (process.uid.toNat : ℤ)
        rssKb := process.rssKb.elim fields.rssKb fun rssKb => (rssKb.toNat : ℤ) })) := by
  have readable : ∀ file, process.unreadable file = none →
      process.readable file = some (fileText (process.content file)) := by
    intro file there
    rw [KernelProcess.readable, there]
  have fields : process.statusFields = readStatus (fileText (process.content .status)) := by
    rw [KernelProcess.statusFields, readable .status shown.status, Option.getD_some]
  rw [ProcessTable.readOutcome, readable .stat shown.stat, if_neg (by simp [shown.arguments]),
    fields, readStatus_content, bind_assoc]
  rfl

/-- A process that is not shown in full has no line of its name read. -/
theorem readOutcome_of_not_shown (hidden : ¬ process.Shown) :
    table.readOutcome process = .ok none ∨
      process.unreadable .status ≠ none ∧ ∃ row, table.readOutcome process = .ok row := by
  rw [ProcessTable.readOutcome]
  split
  · exact .inl rfl
  · next present =>
      rw [not_or] at present
      have gone : process.unreadable .status ≠ none := by
        intro status
        refine hidden ⟨?_, present.2, status⟩
        by_contra unreadable
        rcases Option.ne_none_iff_exists'.mp unreadable with ⟨failure, failed⟩
        exact present.1 (by rw [KernelProcess.readable, failed])
      rcases Option.ne_none_iff_exists'.mp gone with ⟨failure, failed⟩
      refine .inr ⟨gone, ?_⟩
      rw [KernelProcess.statusFields, KernelProcess.readable, failed]
      exact ⟨_, rfl⟩

theorem harmless_iff (shown : process.Shown) :
    process.Harmless ↔
      ∃ row, table.readOutcome process = .ok (some row) ∧ TellsKernel table process row := by
  rw [readOutcome_of_shown shown]
  constructor
  · intro harmless
    have round : ∀ line ∈ nameLines process.comm, ∀ fields, ∃ after,
        readStatusLine fields line = .ok after :=
      fun line mem fields => readStatusLine_ok_iff.mpr (harmless.numbers line mem)
    rcases foldlM_ok round { uid := none, rssKb := 0 } with ⟨fields, loop⟩
    rw [nameFields, loop]
    refine ⟨_, rfl, rfl, ?_⟩
    cases size : process.rssKb with
    | some rssKb => rfl
    | none =>
        have last := rssKb_of_foldlM loop
        cases found : lastRssLine (nameLines process.comm) with
        | none =>
            rw [found] at last
            exact last
        | some line =>
            rw [found, Option.elim_some, harmless.size size line found] at last
            exact (Except.ok.inj last).symm
  · rintro ⟨row, read, tells⟩
    rcases ok_of_bind read with ⟨fields, loop, same⟩
    cases same
    constructor
    · intro line mem
      rcases ok_of_foldlM loop line mem with ⟨before, after, round⟩
      exact readStatusLine_ok_iff.mp ⟨after, round⟩
    · intro size line found
      have last := rssKb_of_foldlM loop
      have zero : fields.rssKb = 0 := by
        have told := tells.2
        rw [size] at told
        exact told
      rw [Option.mem_def.mp found, Option.elim_some, zero] at last
      exact last

theorem harmless_of_readsKernel {lower : Text → Text} (reads : ReadsKernel lower table)
    (mem : process ∈ table.processes) (shown : process.Shown) : process.Harmless := by
  rcases (listProcesses_ok_iff lower none).mp (reads.1 none) process mem with ⟨row, read⟩
  have described := read
  rw [readOutcome_of_shown shown] at described
  rcases ok_of_bind described with ⟨fields, -, same⟩
  cases same
  rcases (yields_readProcess mem).completes [] with ⟨final, ran⟩
  rw [read] at ran
  exact (harmless_iff shown).mpr
    ⟨_, read, reads.2 process mem shown.status [] _ final ran⟩

/-- `listProcesses` raises nothing and every row tells what the kernel says exactly if the names
of all processes that are shown are harmless. -/
theorem readsKernel_iff (lower : Text → Text) (table : ProcessTable) :
    ReadsKernel lower table ↔ ∀ process ∈ table.processes, process.Shown → process.Harmless := by
  constructor
  · exact fun reads process mem => harmless_of_readsKernel reads mem
  · intro harmless
    constructor
    · intro query
      rw [listProcesses_ok_iff]
      intro process mem
      by_cases shown : process.Shown
      · rcases (harmless_iff shown).mp (harmless process mem shown) with ⟨row, read, -⟩
        exact ⟨_, read⟩
      · rcases readOutcome_of_not_shown shown with read | ⟨-, row, read⟩
        · exact ⟨_, read⟩
        · exact ⟨_, read⟩
    · intro process mem status state row final ran
      have same := (yields_readProcess mem).only state _ final ran
      by_cases shown : process.Shown
      · rcases (harmless_iff shown).mp (harmless process mem shown) with ⟨other, read, tells⟩
        rw [read] at same
        cases same
        exact tells
      · rcases readOutcome_of_not_shown shown with read | ⟨gone, -⟩
        · rw [read] at same
          cases same
        · exact absurd status gone

/-- A process whose name holds a line of its own. -/
def forging : KernelProcess where
  pid := 77
  comm := utf8 (text "x\rUid:")
  short := by decide
  noNul := by decide
  statFront := List.replicate 17
    ⟨text "S", List.cons_ne_nil _ _, List.all_eq_true.mp rfl, solid_of_all rfl, by decide +kernel⟩
  seventeen := rfl
  threads := 1
  statBack := []
  cmdline := utf8 (text "./x")
  statusFront := []
  uid := 1000
  otherUids := [1000, 1000, 1000]
  statusMiddle := []
  rssKb := some 4096
  statusBack := []
  unreadable := fun _ => none
  owner := .ok 1000

def forgingTable : ProcessTable where
  entries := [text "self", text "77"]
  processes := [forging]
  distinct := List.nodup_singleton _
  listed := by
    intro process mem
    rw [List.mem_singleton.mp mem]
    decide
  users := fun _ => none

/-- `Uid:` in a name has no second word, and no process is listed. -/
theorem not_readsKernel : ¬ ∀ lower table, ReadsKernel lower table := by
  intro claimed
  have reads := claimed id forgingTable
  have shown : forging.Shown := ⟨rfl, by decide +kernel, rfl⟩
  have harmless := harmless_of_readsKernel reads (List.mem_singleton_self forging) shown
  have line : text "Uid:" ∈ nameLines forging.comm := by decide +kernel
  rcases harmless.numbers (text "Uid:") line (.inl rfl) with ⟨number, read⟩
  have failed : secondNumber (text "Uid:") = .error .indexError := rfl
  rw [failed] at read
  cases read

end Exactly

end Ksnap.Panel
