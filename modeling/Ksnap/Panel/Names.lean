import Ksnap.Panel.Engine

/-!
# Names that pass twice

A name is checked before the engine runs, and the file name made of it again by whatever
looks for the file: `dump` itself, `restore` and `delete`. The bound on the length is
checked before the suffix is put on, so a name of 59 to 64 characters without the suffix
passes once and its file name does not.
-/

namespace Ksnap.Panel

open Foundation

/-! ## The file name of a name -/

/-- What `validate_name` asks of a name without its surrounding whitespace. -/
structure NameGiven (name : Text) : Prop where
  chars : ∀ c ∈ name, isNameChar c = true
  nonempty : 1 ≤ name.length
  short : name.length ≤ 64
  noDots : ¬(name = text "." ∨ name = text "..")

/-- The file name of a snapshot. -/
def fileName (name : Text) : Text :=
  if endsWith name suffix then name else name ++ suffix

theorem not_whitespace_of_nameChar {c : CodePoint} (nameChar : isNameChar c = true) :
    isWhitespace c = false := by
  simp only [isNameChar, Bool.or_eq_true, Bool.and_eq_true, decide_eq_true_eq, beq_iff_eq]
    at nameChar
  simp only [isWhitespace, Bool.or_eq_false_iff, Bool.and_eq_false_iff, decide_eq_false_iff_not,
    beq_eq_false_iff_ne]
  omega

theorem strip_eq_self {value : Text} (solid : ∀ c ∈ value, isWhitespace c = false) :
    strip value = value := by
  have front : value.dropWhile isWhitespace = value := by
    rw [List.dropWhile_eq_self_iff]
    intro nonempty
    rw [solid _ (List.getElem_mem nonempty)]
    exact Bool.false_ne_true
  rw [strip, front, List.rdropWhile_eq_self_iff]
  intro nonempty
  rw [solid _ (List.getLast_mem nonempty)]
  exact Bool.false_ne_true

/-- What is left of a text does not end in a newline. -/
theorem strip_ne_newline (value front : Text) : strip value ≠ front ++ [10] := by
  intro ends
  have nonempty : strip value ≠ [] := by
    rw [ends]
    exact List.append_ne_nil_of_right_ne_nil _ (List.cons_ne_nil _ _)
  have last : ¬isWhitespace ((strip value).getLast nonempty) = true :=
    List.rdropWhile_last_not isWhitespace (value.dropWhile isWhitespace) nonempty
  have same : (strip value).getLast nonempty = 10 := by
    simp only [ends, List.getLast_append_singleton]
  rw [same] at last
  exact last rfl

/-- The end of the pattern is the end of a stripped name. -/
theorem matchesNamePattern_strip {given : Text} :
    matchesNamePattern (strip given) = true ↔
      (∀ c ∈ strip given, isNameChar c = true) ∧ 1 ≤ (strip given).length ∧
        (strip given).length ≤ 64 := by
  have whole := List.takeWhile_append_dropWhile (p := isNameChar) (l := strip given)
  simp only [matchesNamePattern, Bool.and_eq_true, Bool.or_eq_true, decide_eq_true_eq]
  constructor
  · intro matched
    rcases matched with ⟨⟨nonempty, short⟩, nothing | newline⟩
    · rw [nothing, List.append_nil] at whole
      rw [whole] at nonempty short
      exact ⟨List.takeWhile_eq_self_iff.mp whole, nonempty, short⟩
    · rw [newline] at whole
      exact absurd whole.symm (strip_ne_newline given _)
  · intro plain
    rcases plain with ⟨chars, nonempty, short⟩
    have front := List.takeWhile_eq_self_iff.mpr chars
    rw [front] at whole ⊢
    exact ⟨⟨nonempty, short⟩, .inl (List.append_right_eq_self.mp whole)⟩

theorem validateName_eq_ok_iff {given n : Text} :
    validateName (.string given) = .ok n ↔
      NameGiven (strip given) ∧ fileName (strip given) = n := by
  have named : ∀ name : Text,
      (if !endsWith name suffix then (.ok (name ++ suffix) : Except PythonError Text)
        else .ok name) = .ok (fileName name) := by
    intro name
    rw [fileName]
    cases endsWith name suffix <;> rfl
  rw [validateName, named]
  constructor
  · intro accepted
    split at accepted
    · cases accepted
    · next matched =>
      split at accepted
      · cases accepted
      · next noDots =>
        have pattern : matchesNamePattern (strip given) = true := by simpa using matched
        rcases matchesNamePattern_strip.mp pattern with ⟨chars, nonempty, short⟩
        refine ⟨⟨chars, nonempty, short, ?_⟩, Except.ok.inj accepted⟩
        simpa using noDots
  · intro both
    rcases both with ⟨name, rfl⟩
    have pattern := matchesNamePattern_strip.mpr ⟨name.chars, name.nonempty, name.short⟩
    have noDots := name.noDots
    rw [if_neg (by simp [pattern]), if_neg (by simpa using noDots)]

theorem endsWith_fileName (name : Text) : endsWith (fileName name) suffix = true := by
  rw [fileName]
  split
  · next ends => exact ends
  · exact List.isSuffixOf_iff_suffix.mpr (List.suffix_append name suffix)

theorem nameChar_fileName {name : Text} (chars : ∀ c ∈ name, isNameChar c = true) :
    ∀ c ∈ fileName name, isNameChar c = true := by
  rw [fileName]
  split
  · exact chars
  · intro c mem
    rcases List.mem_append.mp mem with front | back
    · exact chars c front
    · have each : suffix.all isNameChar = true := rfl
      exact List.all_eq_true.mp each c back

/-- Names whose file name is no longer than the pattern allows. -/
def FitsWithSuffix (given : Text) : Prop :=
  endsWith (strip given) suffix = true ∨ (strip given).length ≤ 58

theorem length_fileName_le_iff {given : Text} (name : NameGiven (strip given)) :
    (fileName (strip given)).length ≤ 64 ↔ FitsWithSuffix given := by
  have six : suffix.length = 6 := rfl
  rw [fileName, FitsWithSuffix]
  split
  · next ends => simp [ends, name.short]
  · next ends =>
    rw [List.length_append, six]
    constructor
    · intro short
      exact .inr (by omega)
    · intro fits
      have short := fits.resolve_left ends
      omega

/-- A file name is a name again, if it is not too long for one. -/
theorem validateName_fileName_iff {given : Text} (name : NameGiven (strip given)) :
    validateName (.string (fileName (strip given))) = .ok (fileName (strip given)) ↔
      FitsWithSuffix given := by
  have chars := nameChar_fileName name.chars
  have solid : strip (fileName (strip given)) = fileName (strip given) :=
    strip_eq_self fun c mem => not_whitespace_of_nameChar (chars c mem)
  have ends := endsWith_fileName (strip given)
  rw [validateName_eq_ok_iff, solid, ← length_fileName_le_iff name]
  constructor
  · exact fun both => both.1.short
  · intro short
    refine ⟨⟨chars, ?_, short, ?_⟩, if_pos ends⟩
    · have atLeast := (List.isSuffixOf_iff_suffix.mp ends).length_le
      have six : suffix.length = 6 := rfl
      omega
    · intro dots
      rcases dots with dot | dots
      · rw [dot] at ends
        exact absurd ends (by decide)
      · rw [dots] at ends
        exact absurd ends (by decide)

/-! ## What is raised over a name -/

/-- The exceptions of `validate_name` and `resolve`. -/
def isNameError (raised : PythonError) : Bool :=
  raised = nameNotString || raised = nameNotMatching || raised = nameInvalid ||
    raised = nameEscapes

/-- The engine was run, and left its exit code. -/
def EngineRan (trace : List (Event PanelInterface)) : Prop :=
  ∃ command completed, (⟨.run command, .ok completed⟩ : Event PanelInterface) ∈ trace

/-- The snapshot's path leads into its folder, and not elsewhere through a link. -/
def StaysInside (answers : (request : PanelCall) → request.Reply → Prop) (directory n : Text) :
    Prop :=
  ∀ resolved path, answers (.resolve directory) (.ok resolved) →
    answers (.resolve (joinPath resolved n)) (.ok path) → parentOf path = resolved

/-- No run of the program raises over a name. -/
def NoNameError {α : Type} (answers : (request : PanelCall) → request.Reply → Prop)
    (body : Request α) : Prop :=
  ∀ raised trace, body.run.Exec (answering answers) [] (.error raised) trace →
    isNameError raised = false

/-- The file name that a dump of the given name makes is accepted by all who look for it. -/
structure NameKept (answers : (request : PanelCall) → request.Reply → Prop) (config : Config)
    (folder : Option Text) (given n : Text) : Prop where
  again : validateName (.string n) = .ok n
  resolves : NoNameError answers (resolve (folder.getD config.snapshotDir) (.string n))
  restores : NoNameError answers (restore config (.string n) folder)
  deletes : NoNameError answers (delete (folder.getD config.snapshotDir) (.string n))
  dumps : ∀ timeout pid kill raised trace,
    (dump config timeout pid (.string given) kill folder).run.Exec (answering answers) []
      (.error raised) trace → EngineRan trace → isNameError raised = false

/-! ## No exception over a name -/

/-- The calls raise nothing over a name themselves. -/
def Foreign (answers : (request : PanelCall) → request.Reply → Prop) : Prop :=
  ∀ request reply raised, answers request reply → request.raised reply = some raised →
    isNameError raised = false

section Quiet

variable {answers : (request : PanelCall) → request.Reply → Prop}

/-- The program raises nothing over a name, from any state. -/
abbrev Nameless {α : Type} (answers : (request : PanelCall) → request.Reply → Prop)
    (body : Request α) (returns : α → Prop) : Prop :=
  EndsIn (answering answers) body returns fun raised => isNameError raised = false

theorem nameless_attempt {α : Type} (foreign : Foreign answers) {request : PanelCall}
    {value : request.Reply → Except PythonError α}
    (passes : ∀ reply raised, value reply = .error raised → request.raised reply = some raised) :
    Nameless answers (request.attempt value)
      fun result => ∃ reply, answers request reply ∧ value reply = .ok result :=
  endsIn_attempt fun reply raised answered failed =>
    foreign request reply raised answered (passes reply raised failed)

/-- A call that is made for its effect. -/
theorem nameless_call {α : Type} (foreign : Foreign answers) {request : PanelCall}
    {value : request.Reply → Except PythonError α}
    (passes : ∀ reply raised, value reply = .error raised → request.raised reply = some raised) :
    Nameless answers (request.attempt value) fun _ => True := by
  intro state
  refine (nameless_attempt foreign passes state).mono ?_
  intro outcome final ends
  cases outcome with
  | ok result => trivial
  | error raised => exact ends

theorem nameless_ask {α : Type} (foreign : Foreign answers) {request : PanelCall}
    {value : request.Reply → α} : Nameless answers (request.ask value) fun _ => True :=
  nameless_call foreign fun _ _ failed => nomatch failed

theorem nameless_normalize (foreign : Foreign answers) {path : Text} :
    Nameless answers (normalize path) fun _ => True := by
  refine EndsIn.bind (nameless_call foreign ?_) fun expanded _ => ?_
  · exact fun _ _ failed => congrArg errorOf failed
  apply nameless_call foreign
  exact fun _ _ failed => congrArg errorOf failed

theorem nameless_load (foreign : Foreign answers) : Nameless answers load fun _ => True := by
  apply EndsIn.catching
  · refine EndsIn.bind (nameless_call foreign ?_) fun stored _ => ?_
    · exact fun _ _ failed => congrArg errorOf failed
    exact endsIn_pure trivial
  · exact fun _ _ => endsIn_pure trivial

theorem nameless_known (foreign : Foreign answers) (config : Config) :
    Nameless answers (known config) fun _ => True := by
  apply (nameless_normalize foreign).bind
  intro default _
  apply (nameless_load foreign).bind
  intro items _
  apply endsIn_foldlM
  intro folders item
  apply (nameless_normalize foreign).bind
  intro folder _
  split
  · exact endsIn_pure trivial
  · refine EndsIn.bind (nameless_call foreign ?_) fun present _ => endsIn_pure trivial
    exact fun _ _ failed => congrArg errorOf failed

theorem nameless_saveRegistry (foreign : Foreign answers) (stored : List Text) :
    Nameless answers (saveRegistry stored) fun _ => True := by
  apply EndsIn.catching
  · refine EndsIn.bind (nameless_call foreign ?_) fun made _ => ?_
    · exact fun _ _ failed => congrArg errorOf failed
    refine EndsIn.bind (nameless_call foreign ?_) fun temporary _ => ?_
    · exact fun _ _ failed => congrArg errorOf failed
    refine EndsIn.bind (nameless_call foreign ?_) fun written _ => ?_
    · exact fun _ _ failed => congrArg errorOf failed
    refine EndsIn.bind (nameless_call foreign ?_) fun moved _ => ?_
    · exact fun _ _ failed => congrArg errorOf failed
    exact endsIn_pure trivial
  · exact fun _ _ => endsIn_pure trivial

theorem nameless_remember (foreign : Foreign answers) (config : Config) (directory : Text) :
    Nameless answers (remember config directory) fun _ => True := by
  apply (nameless_normalize foreign).bind
  intro resolved _
  apply (nameless_known foreign config).bind
  intro folders _
  split
  · exact endsIn_pure trivial
  · apply (nameless_load foreign).bind
    intro stored _
    exact nameless_saveRegistry foreign _

theorem nameless_binary (foreign : Foreign answers) (config : Config) :
    Nameless answers (binary config) fun _ => True := by
  have uses : Nameless answers (usable config.engineBinary) fun _ => True := by
    refine EndsIn.bind (nameless_call foreign ?_) fun present _ => ?_
    · exact fun _ _ failed => congrArg errorOf failed
    split
    · exact nameless_ask foreign
    · exact endsIn_pure trivial
  apply uses.bind
  intro executable _
  refine EndsIn.bind (endsIn_require fun _ => ?_) fun _ _ => endsIn_pure trivial
  rfl

theorem nameless_folder (foreign : Foreign answers) (config : Config) (folder : Option Text) :
    Nameless answers (folder.elim (snapshotDir config) pure)
      fun directory => directory = folder.getD config.snapshotDir := by
  cases folder with
  | none =>
      refine EndsIn.bind (nameless_call foreign ?_) fun made _ => ?_
      · exact fun _ _ failed => congrArg errorOf failed
      exact endsIn_pure rfl
  | some directory => exact endsIn_pure rfl

theorem nameless_log (foreign : Foreign answers) {message : Text} {level : Level}
    {source : Text} : Nameless answers (log message level source) fun _ => True :=
  nameless_ask foreign

theorem nameless_runEngine (foreign : Foreign answers) (command : EngineCommand)
    (timedOut : Text) : Nameless answers (runEngine command timedOut) fun _ => True := by
  have decodes : ∀ raw, Nameless answers (liftExcept (decodeOutput raw) : Request Text)
      fun _ => True := by
    intro raw
    apply endsIn_liftExcept
    rw [decodeOutput]
    cases decodeStrict raw with
    | none => rfl
    | some decoded => trivial
  apply EndsIn.catching
  · refine EndsIn.bind (nameless_call foreign ?_) fun completed _ => ?_
    · exact fun _ _ failed => congrArg errorOf failed
    apply (decodes completed.stdout).bind
    intro stdout _
    apply (decodes completed.stderr).bind
    intro stderr _
    exact endsIn_pure trivial
  · intro raised _
    split
    · exact endsIn_throw rfl
    · exact endsIn_throw rfl

theorem nameless_parseHeader {raw : Bytes} {raised : PythonError}
    (failed : parseHeader raw = .error raised) : isNameError raised = false := by
  rw [parseHeader] at failed
  split at failed
  · cases failed
    rfl
  · split at failed
    · cases failed
      rfl
    · split at failed
      · cases failed
        rfl
      · split at failed
        · cases failed
          rfl
        · cases failed

theorem nameless_createdAt {mtime : ℤ} {raised : PythonError}
    (failed : createdAt mtime = .error raised) : isNameError raised = false := by
  rw [createdAt] at failed
  split at failed
  · cases failed
    rfl
  · split at failed
    · cases failed
      rfl
    · split at failed
      · cases failed
        rfl
      · cases failed

theorem nameless_liftExcept {α : Type} {outcome : Except PythonError α}
    (nameless : ∀ raised, outcome = .error raised → isNameError raised = false) :
    Nameless answers (liftExcept outcome : Request α) fun _ => True := by
  apply endsIn_liftExcept
  cases outcome with
  | ok value => trivial
  | error raised => exact nameless raised rfl

theorem nameless_readHeader (foreign : Foreign answers) (path : Text) :
    Nameless answers (readHeader path) fun _ => True := by
  refine EndsIn.bind (nameless_call foreign ?_) fun raw _ => ?_
  · exact fun _ _ failed => congrArg errorOf failed
  apply (nameless_liftExcept fun _ => nameless_parseHeader).bind
  intro header _
  refine EndsIn.bind (nameless_call foreign ?_) fun stat _ => ?_
  · exact fun _ _ failed => congrArg errorOf failed
  apply (nameless_liftExcept fun _ => nameless_createdAt).bind
  intro createdAt _
  exact endsIn_pure trivial

theorem nameless_validateName {n : Text} (again : validateName (.string n) = .ok n) :
    Nameless answers (liftExcept (validateName (.string n)) : Request Text) fun name =>
      name = n := by
  apply endsIn_liftExcept
  rw [again]

/-- A name that is its own file name leads into its folder. -/
theorem nameless_resolve (foreign : Foreign answers) {directory n : Text}
    (again : validateName (.string n) = .ok n) (inside : StaysInside answers directory n) :
    Nameless answers (resolve directory (.string n)) fun _ => True := by
  refine EndsIn.bind (nameless_attempt foreign ?_) fun resolved answered => ?_
  · exact fun _ _ failed => congrArg errorOf failed
  rcases answered with ⟨reply, answered, returned⟩
  cases returned
  apply (nameless_validateName again).bind
  rintro _ rfl
  refine EndsIn.bind (nameless_attempt foreign ?_) fun path answeredPath => ?_
  · exact fun _ _ failed => congrArg errorOf failed
  rcases answeredPath with ⟨reply, answeredPath, returned⟩
  cases returned
  have isInside := inside resolved path answered answeredPath
  apply (endsIn_require fun outside => ?_).bind
  · exact fun _ _ => endsIn_pure trivial
  · exact absurd isInside (of_decide_eq_false outside)

theorem nameless_delete (foreign : Foreign answers) {directory n : Text}
    (again : validateName (.string n) = .ok n) (inside : StaysInside answers directory n) :
    Nameless answers (delete directory (.string n)) fun _ => True := by
  apply (nameless_resolve foreign again inside).bind
  intro path _
  apply nameless_call foreign
  exact fun _ _ failed => congrArg errorOf failed

theorem nameless_running (foreign : Foreign answers) (session : RestoreSession) :
    Nameless answers (running session) fun _ => True := by
  apply (nameless_ask foreign).bind
  intro returncode _
  exact endsIn_pure trivial

theorem nameless_describe (foreign : Foreign answers) (session : RestoreSession) :
    Nameless answers (describe session) fun _ => True := by
  apply (nameless_ask foreign).bind
  intro finished _
  apply (nameless_running foreign session).bind
  intro running _
  apply (nameless_ask foreign).bind
  intro returncode _
  exact endsIn_pure trivial

theorem nameless_startSession (foreign : Foreign answers) (config : Config)
    (name directory : Text) :
    Nameless answers (startSession config name directory) fun _ => True := by
  apply (nameless_ask foreign).bind
  intro current _
  have refuses : Nameless answers (refuseRunning current) fun _ => True := by
    cases current with
    | none => exact endsIn_pure trivial
    | some session =>
        apply (nameless_running foreign session).bind
        intro running _ state
        cases running with
        | true => exact rfl
        | false => exact trivial
  apply refuses.bind
  intro _ _
  apply (nameless_binary foreign config).bind
  intro engine _
  apply (nameless_log foreign).bind
  intro _ _
  have spawns : Nameless answers (spawnEngine config engine name directory) fun _ => True := by
    apply EndsIn.catching
    · apply nameless_call foreign
      exact fun _ _ failed => congrArg errorOf failed
    · exact fun _ _ => endsIn_throw rfl
  apply spawns.bind
  intro process _
  apply (nameless_ask foreign).bind
  intro startedAt _
  apply (nameless_ask foreign).bind
  intro _ _
  refine EndsIn.bind (nameless_call foreign ?_) fun started _ => ?_
  · exact fun _ _ failed => congrArg errorOf failed
  exact nameless_describe foreign _

theorem nameless_restore (foreign : Foreign answers) {config : Config} {folder : Option Text}
    {n : Text} (again : validateName (.string n) = .ok n)
    (inside : StaysInside answers (folder.getD config.snapshotDir) n) :
    Nameless answers (restore config (.string n) folder) fun _ => True := by
  apply (nameless_validateName again).bind
  rintro _ rfl
  apply (nameless_folder foreign config folder).bind
  rintro _ rfl
  apply (nameless_resolve foreign again inside).bind
  intro path _
  refine EndsIn.bind (nameless_call foreign ?_) fun present _ => ?_
  · exact fun _ _ failed => congrArg errorOf failed
  refine EndsIn.bind (endsIn_require fun _ => ?_) fun _ _ => ?_
  · rfl
  apply EndsIn.bracket
  · exact nameless_ask foreign
  · exact nameless_startSession foreign config _ _
  · exact nameless_ask foreign

theorem nameless_finishDump (foreign : Foreign answers) (config : Config) {n directory : Text}
    (completed : Completed Text) (again : validateName (.string n) = .ok n)
    (inside : StaysInside answers directory n) :
    Nameless answers (finishDump config n directory completed) fun _ => True := by
  apply (endsIn_onlyIf (nameless_log foreign)).bind
  intro _ _
  have refuses : Nameless answers
      (refuseFailure config completed (strip (completed.stdout ++ completed.stderr)))
      fun _ => True := by
    rw [refuseFailure]
    split
    · exact endsIn_pure trivial
    · apply (nameless_log foreign).bind
      intro _ _
      exact endsIn_throw rfl
  apply refuses.bind
  intro _ _
  apply (nameless_log foreign).bind
  intro _ _
  apply (nameless_remember foreign config directory).bind
  intro remembered _
  apply (endsIn_onlyIf (nameless_log foreign)).bind
  intro _ _
  apply (nameless_resolve foreign again inside).bind
  intro path _
  apply (nameless_readHeader foreign path).bind
  intro header _
  exact endsIn_pure trivial

theorem nameless_dump (foreign : Foreign answers) {config : Config} {folder : Option Text}
    {given n timeout : Text} {pid : ℤ} {kill : Bool}
    (accepted : validateName (.string given) = .ok n) (again : validateName (.string n) = .ok n)
    (inside : StaysInside answers (folder.getD config.snapshotDir) n) :
    Nameless answers (dump config timeout pid (.string given) kill folder) fun _ => True := by
  have named : Nameless answers (liftExcept (validateName (.string given)) : Request Text)
      fun name => name = n := by
    apply endsIn_liftExcept
    rw [accepted]
  apply named.bind
  rintro _ rfl
  apply (nameless_folder foreign config folder).bind
  rintro _ rfl
  apply (nameless_binary foreign config).bind
  intro engine _
  apply (nameless_log foreign).bind
  intro _ _
  apply (nameless_runEngine foreign _ _).bind
  intro completed _
  exact nameless_finishDump foreign config completed again inside

end Quiet

/-- A folder that the file name leads out of makes `resolve` raise. -/
theorem raises_outside {answers : (request : PanelCall) → request.Reply → Prop}
    {directory n resolved path : Text} (again : validateName (.string n) = .ok n)
    (folder : answers (.resolve directory) (.ok resolved))
    (file : answers (.resolve (joinPath resolved n)) (.ok path))
    (outside : parentOf path ≠ resolved) :
    ∃ trace, (resolve directory (.string n)).run.Exec (answering answers) [] (.error nameEscapes)
      trace := by
  have refused : (Raising.require (parentOf path = resolved) nameEscapes : Request Unit) =
      throw nameEscapes := if_neg (by simpa using outside)
  rw [resolve, again]
  refine ⟨[⟨.resolve directory, .ok resolved⟩, ⟨.resolve (joinPath resolved n), .ok path⟩],
    .ok resolved, _, ⟨folder, rfl⟩, .ok path, _, ⟨file, rfl⟩, ?_⟩
  change Program.Exec _ ((Raising.require (parentOf path = resolved) nameEscapes >>= fun _ =>
    pure path : Request Text).run) _ _ _
  rw [refused]
  exact ⟨rfl, rfl⟩

/-- The file name made of an accepted name is accepted by everything that looks for it, and a
dump raises nothing over it after the engine ran, exactly if it is not too long for a name
and the path leads into the folder. -/
theorem nameKept_iff {answers : (request : PanelCall) → request.Reply → Prop}
    (foreign : Foreign answers) (config : Config) (folder : Option Text) {given n : Text}
    (accepted : validateName (.string given) = .ok n) :
    NameKept answers config folder given n ↔
      FitsWithSuffix given ∧ StaysInside answers (folder.getD config.snapshotDir) n := by
  rcases validateName_eq_ok_iff.mp accepted with ⟨name, isFileName⟩
  have againIff : validateName (.string n) = .ok n ↔ FitsWithSuffix given := by
    rw [← isFileName]
    exact validateName_fileName_iff name
  constructor
  · intro kept
    refine ⟨againIff.mp kept.again, ?_⟩
    intro resolved path leads leadsPath
    by_contra outside
    rcases raises_outside kept.again leads leadsPath outside with ⟨trace, run⟩
    exact absurd (kept.resolves nameEscapes trace run) (by decide)
  · intro both
    rcases both with ⟨fits, inside⟩
    have again := againIff.mpr fits
    exact {
      again := again
      resolves := fun _ _ run => (nameless_resolve foreign again inside).exec run
      restores := fun _ _ run => (nameless_restore foreign again inside).exec run
      deletes := fun _ _ run => (nameless_delete foreign again inside).exec run
      dumps := fun _ _ _ _ _ run _ => (nameless_dump foreign accepted again inside).exec run }

/-! ## Runs -/

/-- The path from the root, which the server is started in. -/
def rooted (path : Text) : Text :=
  if isAbsolute path then path else 47 :: path

/-- No call raises, and no path is a link. -/
def Untroubled (request : PanelCall) (reply : request.Reply) : Prop :=
  request.raised reply = none ∧
    match request, reply with
    | .resolve path, .ok directory => directory = rooted path
    | _, _ => True

theorem foreign_untroubled : Foreign Untroubled := by
  intro request reply raised answered failed
  rw [answered.1] at failed
  cases failed

theorem nameKept_iff_short :
    validateName (.string (text "run")) = .ok (text "run.ksnap") ∧
      NameKept Untroubled exampleConfig none (text "run") (text "run.ksnap") := by
  refine ⟨by decide, (nameKept_iff foreign_untroubled exampleConfig none (by decide)).mpr ⟨?_, ?_⟩⟩
  · right
    decide
  · intro resolved path leads leadsPath
    have folder : resolved = text "/save" := leads.2
    have file : path = rooted (joinPath resolved (text "run.ksnap")) := leadsPath.2
    rw [file, folder]
    decide

/-- A reply to every call, none of them an exception. -/
def plainReply : (request : PanelCall) → request.Reply
  | .expandUser path => .ok path
  | .resolve path => .ok (rooted path)
  | .makeDirs _ => .ok ()
  | .isDir _ => .ok true
  | .isFile _ => .ok true
  | .isExecutable _ => true
  | .unlink _ => .ok ()
  | .readHead _ _ => .ok []
  | .stat _ => .ok ⟨0, 0⟩
  | .pathExists _ => .ok true
  | .snapshotPaths _ => []
  | .processEntries => []
  | .processIsDir _ => .ok true
  | .readProcessFile _ _ => .ok []
  | .processOwner _ => .ok 0
  | .userName _ => .ok []
  | .loadRegistry => .ok (.list [])
  | .makeRegistryFolder => .ok ()
  | .createTemporary => .ok 0
  | .writeTemporary _ _ => .ok ()
  | .replaceRegistry _ => .ok ()
  | .run _ => .ok ⟨0, [], []⟩
  | .popen _ => .ok ⟨0, 0⟩
  | .poll _ => none
  | .waitFor _ => .ok 0
  | .signalGroup _ _ => .ok ()
  | .startStream _ => .ok ()
  | .readEnd _ => ⟨none, none⟩
  | .acquireSession => ()
  | .releaseSession => ()
  | .readSession => none
  | .writeSession _ => ()
  | .now => []
  | .log _ _ _ => ()

theorem untroubled_plainReply (request : PanelCall) : Untroubled request (plainReply request) := by
  cases request <;> exact ⟨rfl, by trivial⟩

/-- Run a function with these replies. -/
def plainRun {α : Type} (body : Request α) :
    Option (Except PythonError α × List (Event PanelInterface)) :=
  body.run.evaluate
    (fun trace request => (plainReply request, trace ++ [⟨request, plainReply request⟩])) []

theorem exec_of_plainRun {α : Type} {body : Request α} {outcome : Except PythonError α}
    {trace : List (Event PanelInterface)} (evaluated : plainRun body = some (outcome, trace)) :
    body.run.Exec (answering Untroubled) [] outcome trace := by
  rw [plainRun] at evaluated
  refine Program.exec_of_evaluate ?_ evaluated
  exact fun trace request => ⟨untroubled_plainReply request, rfl⟩

/-- A name of 59 characters without the suffix. -/
def longName : Text := List.replicate 59 (codePoint 97)

/-- The engine dumps, and ends, the process. Then the panel refuses the name of the file. -/
theorem not_nameKept :
    validateName (.string longName) = .ok (longName ++ suffix) ∧
      validateName (.string (longName ++ suffix)) = .error nameNotMatching ∧
      ∃ trace, (dump exampleConfig (text "60") 7 (.string longName) true none).run.Exec
        (answering Untroubled) [] (.error nameNotMatching) trace ∧ EngineRan trace := by
  have evaluated : plainRun (dump exampleConfig (text "60") 7 (.string longName) true none) =
      some (.error nameNotMatching, _) := rfl
  exact ⟨rfl, rfl, _, exec_of_plainRun evaluated, _, _, List.mem_of_getElem? (i := 4) rfl⟩

end Ksnap.Panel
