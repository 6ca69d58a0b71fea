import Ksnap.Panel.Engine
import Ksnap.Panel.Registry

/-!
# The folders restore and delete may reach

A folder is accepted when it is the default store or in the registry, and only a dump
that went through puts its folder there. The registry keeps a path, though, and every
lookup resolves it again: where a remembered folder was replaced by a link, what is
accepted is the folder behind the link. As long as folders that were dumped into resolve
to themselves, every accepted folder is the default store or one of them.
-/

namespace Ksnap.Panel

open Foundation

variable {ι : Type}

/-! ## What a history shows -/

/-- The folder that a request dumps into. -/
def dumpsTo : EngineRequest → Option Text
  | .dump _ directory _ _ => some directory
  | _ => none

/-- The event is a dump of the engine into the folder that went through. -/
def dumpsInto (directory : Text) : Event PanelInterface → Bool
  | ⟨.run command, .ok completed⟩ =>
      completed.returncode = 0 && dumpsTo command.request = some directory
  | _ => false

/-- A dump into the folder went through. -/
def Dumped (history : List (ι × Event PanelInterface)) (directory : Text) : Prop :=
  ∃ entry ∈ history, dumpsInto directory entry.2 = true

/-- The event resolves the path to the folder. -/
def leadsTo (path directory : Text) : Event PanelInterface → Bool
  | ⟨.resolve asked, .ok answer⟩ => asked = path && answer = directory
  | _ => false

/-- The path was resolved to the folder. -/
def Led (history : List (ι × Event PanelInterface)) (path directory : Text) : Prop :=
  ∃ entry ∈ history, leadsTo path directory entry.2 = true

theorem Dumped.later {before now : List (ι × Event PanelInterface)} {directory : Text}
    (dumped : Dumped before directory) (grows : before <:+ now) : Dumped now directory := by
  rcases dumped with ⟨entry, mem, into⟩
  exact ⟨entry, grows.subset mem, into⟩

theorem Led.later {before now : List (ι × Event PanelInterface)} {path directory : Text}
    (led : Led before path directory) (grows : before <:+ now) : Led now path directory := by
  rcases led with ⟨entry, mem, leads⟩
  exact ⟨entry, grows.subset mem, leads⟩

/-! ## The file system -/

/-- What holds of every file system, however it changes: an absolute path has no home
directory to expand, and resolving gives an absolute path. -/
def AnyFileSystem : (request : PanelCall) → request.Reply → Prop
  | .expandUser path, reply => isAbsolute path = true → reply = .ok path
  | .resolve _, .ok directory => isAbsolute directory = true
  | _, _ => True

/-- A folder that was dumped into resolves to itself. -/
def Unmoved (_ : ι) (state : RegistryState ι) : (request : PanelCall) → request.Reply → Prop
  | .resolve path, .ok directory => Dumped state.history path → directory = path
  | _, _ => True

abbrev unmoved : (registrySystem ι AnyFileSystem).Condition := Unmoved

/-! ## Requests -/

/-- The requests that write to folders of the panel, or look them up. -/
inductive FolderRequest : Type where
  | dump (pid : ℤ) (name : Json) (kill : Bool) (folder : Option Json)
  | lookup (path : Json)

/-- The folder of a dump request, the default store when none is given. -/
def dumpFolder : Option Json → Request (Option Text)
  | some folder => do return some (← validate folder)
  | none => return none

/-- The answer to a request: the folder that a lookup accepts. -/
def FolderRequest.serve (config : Config) (timeout : Text) :
    FolderRequest → Request (Option Text)
  | .dump pid name kill folder => do
      let directory ← dumpFolder folder
      let _ ← Panel.dump config timeout pid name kill directory
      return none
  | .lookup path => do return some (← requireKnown config path)

/-- Requests that share a registry, after some history. -/
def folderStart (config : Config) (timeout : Text) (requests : ι → FolderRequest)
    (state : RegistryState ι) :
    Pool (registrySystem ι AnyFileSystem) (Except PythonError (Option Text)) where
  shared := state
  thread := fun i => ((requests i).serve config timeout).run

/-! ## The discipline -/

/-- Everything in the registry was dumped into. -/
structure Contained (state : RegistryState ι) : Prop where
  items : ∀ item ∈ state.files.items, Dumped state.history item
  absolute : ∀ directory, Dumped state.history directory → isAbsolute directory = true

/-- Histories only grow, and temporary files are left to those who made them. -/
structure ContainedRely (i : ι) (before now : RegistryState ι) : Prop where
  grows : before.history <:+ now.history
  temporaries : ∀ temporary content,
    before.files.temporaries temporary = some (i, content) →
      now.files.temporaries temporary = some (i, content)

def containedDiscipline (ι : Type) : Discipline (registrySystem ι AnyFileSystem) where
  always := Contained
  rely := ContainedRely
  refl := fun _ _ => ⟨List.suffix_rfl, fun _ _ same => same⟩
  trans := by
    intro i first second third one two
    refine ⟨one.grows.trans two.grows, ?_⟩
    intro temporary content same
    exact two.temporaries temporary content (one.temporaries temporary content same)

section Steps

variable {i : ι} {now after : RegistryState ι} {request : PanelCall} {reply : request.Reply}

theorem grows_of_record (history : after.history = (i, ⟨request, reply⟩) :: now.history) :
    now.history <:+ after.history := by
  rw [history]
  exact List.suffix_cons _ _

/-- A call that is no dump adds no folder. -/
theorem dumped_of_record {directory : Text}
    (history : after.history = (i, ⟨request, reply⟩) :: now.history)
    (noDump : dumpsInto directory ⟨request, reply⟩ = false)
    (dumped : Dumped after.history directory) :
    Dumped now.history directory := by
  rw [history] at dumped
  rcases dumped with ⟨entry, mem, into⟩
  rcases List.mem_cons.mp mem with rfl | older
  · exact absurd into (Bool.eq_false_iff.mp noDump)
  · exact ⟨entry, older, into⟩

/-- A call that leaves the registry and the files of the others alone, and is a dump into
an absolute folder if it is one. -/
theorem contained_beside (contained : Contained now)
    (registry : after.files.registry = now.files.registry)
    (temporaries : ∀ j, j ≠ i → ∀ temporary content,
      now.files.temporaries temporary = some (j, content) →
        after.files.temporaries temporary = some (j, content))
    (history : after.history = (i, ⟨request, reply⟩) :: now.history)
    (absolute : ∀ directory, dumpsInto directory ⟨request, reply⟩ = true →
      isAbsolute directory = true) :
    (containedDiscipline ι).Guaranteed i now after := by
  have grows := grows_of_record history
  refine ⟨⟨?_, ?_⟩, ?_⟩
  · intro item mem
    rw [RegistryFiles.items, registry] at mem
    exact (contained.items item mem).later grows
  · intro directory dumped
    cases into : dumpsInto directory ⟨request, reply⟩ with
    | true => exact absolute directory into
    | false => exact contained.absolute directory (dumped_of_record history into dumped)
  · intro j other
    exact ⟨grows, temporaries j other⟩

/-- A call that changes no file and is no dump. -/
theorem contained_sameFiles (contained : Contained now) (same : after.files = now.files)
    (history : after.history = (i, ⟨request, reply⟩) :: now.history)
    (noDump : ∀ directory, dumpsInto directory ⟨request, reply⟩ = false) :
    (containedDiscipline ι).Guaranteed i now after := by
  apply contained_beside contained ?_ ?_ history
    (fun directory into => absurd into (Bool.eq_false_iff.mp (noDump directory)))
  · rw [same]
  · intro j _ which content found
    rw [same]
    exact found

end Steps

/-! ## The functions -/

section Functions

variable {i : ι} {config : Config}

theorem stable_always : Stable (containedDiscipline ι) i fun _ => True :=
  fun _ _ _ _ => trivial

theorem stable_dumped {directory : Text} :
    Stable (containedDiscipline ι) i fun state => Dumped state.history directory :=
  fun _ _ dumped relied => dumped.later relied.grows

/-- The calls that neither touch the registry nor run the engine. -/
def IsLookup : PanelCall → Prop
  | .createTemporary => False
  | .writeTemporary _ _ => False
  | .replaceRegistry _ => False
  | .run _ => False
  | _ => True

theorem onlyLooks_of_isLookup {request : PanelCall} (lookup : IsLookup request) :
    OnlyLooks request := by
  cases request with
  | createTemporary => exact lookup
  | writeTemporary temporary stored => exact lookup
  | replaceRegistry temporary => exact lookup
  | _ => exact trivial

theorem dumpsInto_of_isLookup {request : PanelCall} {reply : request.Reply}
    {directory : Text} (lookup : IsLookup request) :
    dumpsInto directory ⟨request, reply⟩ = false := by
  cases request with
  | run command => exact lookup.elim
  | _ => rfl

theorem guaranteed_lookup {now after : RegistryState ι} {request : PanelCall}
    {reply : request.Reply} (lookup : IsLookup request) (contained : Contained now)
    (taken : (registrySystem ι AnyFileSystem).step i now request reply after) :
    (containedDiscipline ι).Guaranteed i now after := by
  rcases taken with ⟨_, files, history⟩
  exact contained_sameFiles contained (files.eq_of_onlyLooks (onlyLooks_of_isLookup lookup))
    history fun _ => dumpsInto_of_isLookup lookup

/-- A call that leaves the files alone, and what its reply shows. -/
theorem contained_call {α : Type} {request : PanelCall}
    {value : request.Reply → Except PythonError α} {known : RegistryState ι → Prop}
    {shows : α → RegistryState ι → Prop} (lookup : IsLookup request)
    (stable : Stable (containedDiscipline ι) i known)
    (stableShows : ∀ result, Stable (containedDiscipline ι) i (shows result))
    (answers : ∀ now after reply result, known now → Contained now →
      AnyFileSystem request reply → Unmoved i now request reply →
      now.files.Step i request reply after.files →
      after.history = (i, ⟨request, reply⟩) :: now.history → value reply = .ok result →
        shows result after) :
    Carries (containedDiscipline ι) unmoved i known (request.attempt value)
      (fun result state => known state ∧ shows result state) (fun _ => True) := by
  apply carries_attempt _ _ stable ?_ stable_always
  · intro now reply after holds always taken condition
    have guaranteed := guaranteed_lookup lookup always taken
    rcases taken with ⟨answered, files, history⟩
    have same := files.eq_of_onlyLooks (onlyLooks_of_isLookup lookup)
    have knows : known after := by
      apply stable now after holds ⟨grows_of_record history, ?_⟩
      intro which content found
      rw [same]
      exact found
    refine ⟨guaranteed, ?_⟩
    split
    · next result returned =>
      exact ⟨knows, answers now after reply result holds always answered condition files
        history returned⟩
    · trivial
  · intro result before now holds relied
    exact ⟨stable before now holds.1 relied, stableShows result before now holds.2 relied⟩

/-- What normalizing a path shows. -/
structure Normalized (path directory : Text) (state : RegistryState ι) : Prop where
  absolute : isAbsolute directory = true
  led : isAbsolute path = true → Led state.history path directory

theorem stable_normalized {path directory : Text} :
    Stable (containedDiscipline ι) i (Normalized path directory) := by
  intro before now normalized relied
  exact ⟨normalized.absolute, fun absolute => (normalized.led absolute).later relied.grows⟩

theorem contained_normalize {path : Text} {known : RegistryState ι → Prop}
    (stable : Stable (containedDiscipline ι) i known) :
    Carries (containedDiscipline ι) unmoved i known (normalize path)
      (fun directory state => known state ∧ Normalized path directory state ∧
        ((∀ now, known now → Dumped now.history path) → directory = path)) (fun _ => True) := by
  have expands : Carries (containedDiscipline ι) unmoved i known
      ((PanelCall.expandUser path).attempt id : Request Text)
      (fun expanded state => known state ∧ (isAbsolute path = true → expanded = path) ∧
        ((∀ now, known now → Dumped now.history path) → isAbsolute path = true))
      (fun _ => True) := by
    apply contained_call (by trivial) stable
      (fun _ _ _ holds _ => holds)
    intro now after reply expanded holds contained answered _ _ _ returned
    refine ⟨?_, fun dumped => contained.absolute path (dumped now holds)⟩
    intro absolute
    have whole := (answered absolute).symm.trans returned
    cases whole
    rfl
  apply expands.bind
  intro expanded
  have stableExpanded : Stable (containedDiscipline ι) i fun state =>
      known state ∧ (isAbsolute path = true → expanded = path) ∧
        ((∀ now, known now → Dumped now.history path) → isAbsolute path = true) :=
    fun before now holds relied => ⟨stable before now holds.1 relied, holds.2⟩
  have resolves : Carries (containedDiscipline ι) unmoved i
      (fun state => known state ∧ (isAbsolute path = true → expanded = path) ∧
        ((∀ now, known now → Dumped now.history path) → isAbsolute path = true))
      ((PanelCall.resolve expanded).attempt id : Request Text)
      (fun directory state => (known state ∧ (isAbsolute path = true → expanded = path) ∧
          ((∀ now, known now → Dumped now.history path) → isAbsolute path = true)) ∧
        Normalized path directory state ∧
        ((∀ now, known now → Dumped now.history path) → directory = path)) (fun _ => True) := by
    apply contained_call (by trivial) stableExpanded
      (fun _ before now holds relied =>
        ⟨stable_normalized before now holds.1 relied, holds.2⟩)
    intro now after reply directory holds contained answered condition _ history returned
    cases reply with
    | error raised => cases returned
    | ok directory' =>
        cases returned
        refine ⟨⟨answered, ?_⟩, ?_⟩
        · intro absolute
          refine ⟨_, history ▸ List.mem_cons_self, ?_⟩
          simp [leadsTo, holds.2.1 absolute]
        · intro dumped
          have same := holds.2.1 (holds.2.2 dumped)
          rw [same] at condition
          exact condition (dumped now holds.1)
  exact resolves.weaken (fun _ holds => holds) (fun _ _ holds => ⟨holds.1.1, holds.2⟩)
    fun _ raised => raised

/-- A folder that the panel may accept. -/
def Accepted (config : Config) (state : RegistryState ι) (folder : Text) : Prop :=
  Dumped state.history folder ∨ Led state.history config.snapshotDir folder

theorem Accepted.later {before now : RegistryState ι} {folder : Text}
    (accepted : Accepted config before folder) (grows : before.history <:+ now.history) :
    Accepted config now folder := by
  rcases accepted with dumped | led
  · left
    exact dumped.later grows
  · right
    exact led.later grows

theorem stable_items {items : List Text} :
    Stable (containedDiscipline ι) i fun state => ∀ item ∈ items, Dumped state.history item :=
  fun _ _ dumped relied item mem => (dumped item mem).later relied.grows

/-- What a longer history shows as well. -/
def Growing (known : RegistryState ι → Prop) : Prop :=
  ∀ before now, known before → before.history <:+ now.history → known now

theorem Growing.stable {known : RegistryState ι → Prop} (growing : Growing known) :
    Stable (containedDiscipline ι) i known :=
  fun before now holds relied => growing before now holds relied.grows

theorem contained_frame {α : Type} {known pre : RegistryState ι → Prop} {body : Request α}
    {returns : α → RegistryState ι → Prop} (growing : Growing known)
    (carries : Carries (containedDiscipline ι) unmoved i pre body returns fun _ => True) :
    Carries (containedDiscipline ι) unmoved i (fun state => pre state ∧ known state) body
      (fun value state => returns value state ∧ known state) (fun _ => True) := by
  refine (carries.frame growing.stable ?_).weaken (fun _ holds => holds) (fun _ _ holds => holds)
    fun _ _ => trivial
  intro now request reply after holds taken
  exact growing now after holds (grows_of_record taken.2.2)

/-- Whatever a load gives was dumped into. -/
theorem contained_load :
    Carries (containedDiscipline ι) unmoved i (fun _ => True) load
      (fun items state => ∀ item ∈ items, Dumped state.history item) (fun _ => True) := by
  apply Carries.catching fun _ => True
  · have reads : Carries (containedDiscipline ι) unmoved i (fun _ => True)
        (PanelCall.loadRegistry.attempt id : Request Json)
        (fun stored state => True ∧ ∀ item ∈ registryItems stored, Dumped state.history item)
        (fun _ => True) := by
      apply contained_call (by trivial) stable_always (fun _ => stable_items)
      intro now after reply stored _ contained _ _ files history returned item mem
      cases reply with
      | error raised => cases returned
      | ok stored' =>
          cases returned
          apply (contained.items item ?_).later (grows_of_record history)
          rw [RegistryFiles.items, files.1]
          exact mem
    apply reads.bind
    intro stored
    apply carries_pure
    · exact stable_items
    · exact fun _ loaded => loaded.2
  · intro error _
    apply carries_pure
    · exact stable_items
    · exact fun _ _ item mem => absurd mem List.not_mem_nil
  · exact fun _ _ => trivial

theorem growing_accepted {folders : List Text} :
    Growing fun state : RegistryState ι => ∀ folder ∈ folders, Accepted config state folder := by
  intro before now accepted grows folder mem
  exact (accepted folder mem).later grows

theorem growing_dumped {items : List Text} :
    Growing fun state : RegistryState ι => ∀ item ∈ items, Dumped state.history item :=
  fun _ _ dumped grows item mem => (dumped item mem).later grows

theorem contained_addKnown {items folders : List Text} {item : Text} (mem : item ∈ items) :
    Carries (containedDiscipline ι) unmoved i
      (fun state => (∀ item ∈ items, Dumped state.history item) ∧
        ∀ folder ∈ folders, Accepted config state folder)
      (addKnown folders item)
      (fun folders state => (∀ item ∈ items, Dumped state.history item) ∧
        ∀ folder ∈ folders, Accepted config state folder) (fun _ => True) := by
  have growing : ∀ folders : List Text, Growing fun state : RegistryState ι =>
      (∀ item ∈ items, Dumped state.history item) ∧
        ∀ folder ∈ folders, Accepted config state folder :=
    fun folders before now holds grows =>
      ⟨growing_dumped before now holds.1 grows, growing_accepted before now holds.2 grows⟩
  apply (contained_normalize (growing folders).stable).bind
  intro folder
  split
  · apply carries_pure
    · exact (growing folders).stable
    · exact fun _ holds => holds.1
  · intro state holds
    -- an item of the registry was dumped into, and so it is where it was
    have unmovedItem : folder = item := holds.2.2 fun now known => known.1 item mem
    subst unmovedItem
    have looks : Carries (containedDiscipline ι) unmoved i
        (fun state => (∀ item ∈ items, Dumped state.history item) ∧
          ∀ folder ∈ folders, Accepted config state folder)
        ((PanelCall.isDir folder).attempt id : Request Bool)
        (fun _ state => ((∀ item ∈ items, Dumped state.history item) ∧
          ∀ folder ∈ folders, Accepted config state folder) ∧ True) (fun _ => True) :=
      contained_call (by trivial) (growing folders).stable (fun _ => stable_always)
        fun _ _ _ _ _ _ _ _ _ _ _ => trivial
    refine (looks.bind fun present => ?_) state holds.1
    apply carries_pure
    · exact (growing _).stable
    · intro now known
      refine ⟨known.1.1, ?_⟩
      intro other otherMem
      cases present with
      | false => exact known.1.2 other otherMem
      | true =>
          rcases List.mem_append.mp otherMem with before | last
          · exact known.1.2 other before
          · rw [List.mem_singleton.mp last]
            left
            exact known.1.1 folder mem

theorem contained_known (absolute : isAbsolute config.snapshotDir = true) :
    Carries (containedDiscipline ι) unmoved i (fun _ => True) (known config)
      (fun folders state => ∀ folder ∈ folders, Accepted config state folder)
      (fun _ => True) := by
  have growing : ∀ items folders : List Text, Growing fun state : RegistryState ι =>
      (∀ item ∈ items, Dumped state.history item) ∧
        ∀ folder ∈ folders, Accepted config state folder :=
    fun items folders before now holds grows =>
      ⟨growing_dumped before now holds.1 grows, growing_accepted before now holds.2 grows⟩
  apply (contained_normalize stable_always).bind
  intro default
  have defaultAccepted : Growing fun state : RegistryState ι =>
      ∀ folder ∈ [default], Accepted config state folder := growing_accepted
  have loads : Carries (containedDiscipline ι) unmoved i
      (fun state => True ∧ Normalized config.snapshotDir default state ∧
        ((∀ now : RegistryState ι, True → Dumped now.history config.snapshotDir) →
          default = config.snapshotDir)) load
      (fun items state => (∀ item ∈ items, Dumped state.history item) ∧
        ∀ folder ∈ [default], Accepted config state folder) (fun _ => True) := by
    apply (contained_frame defaultAccepted contained_load).weaken ?_
      (fun _ _ holds => holds) fun _ raised => raised
    intro state normalized
    refine ⟨trivial, ?_⟩
    intro folder mem
    rw [List.mem_singleton.mp mem]
    right
    exact normalized.2.1.led absolute
  apply loads.bind
  intro items
  have gathers : Carries (containedDiscipline ι) unmoved i
      (fun state => (∀ item ∈ items, Dumped state.history item) ∧
        ∀ folder ∈ [default], Accepted config state folder) (items.foldlM addKnown [default])
      (fun folders state => (∀ item ∈ items, Dumped state.history item) ∧
        ∀ folder ∈ folders, Accepted config state folder) (fun _ => True) :=
    carries_foldlM _ (fun folders => (growing items folders).stable) fun folders item mem =>
      contained_addKnown mem
  exact gathers.weaken (fun _ holds => holds) (fun _ _ holds => holds.2) fun _ raised => raised

/-- A lookup gives the default store or a folder that was dumped into. -/
theorem contained_requireKnown (absolute : isAbsolute config.snapshotDir = true) (path : Json) :
    Carries (containedDiscipline ι) unmoved i (fun _ => True) (requireKnown config path)
      (fun folder state => Accepted config state folder) (fun _ => True) := by
  have stable : ∀ folder : Text, Stable (containedDiscipline ι) i fun state =>
      Accepted config state folder := by
    intro folder before now accepted relied
    exact accepted.later relied.grows
  have default : Carries (containedDiscipline ι) unmoved i (fun _ => True)
      (normalize config.snapshotDir) (fun folder state => Accepted config state folder)
      (fun _ => True) := by
    apply (contained_normalize stable_always).weaken (fun _ holds => holds) ?_
      fun _ raised => raised
    intro folder state normalized
    right
    exact normalized.2.1.led absolute
  cases path with
  | null => exact default
  | string given =>
      cases given with
      | nil => exact default
      | cons first others =>
          apply (carries_require stable_always stable_always (fun _ _ _ => trivial)
            fun _ _ _ => trivial).bind
          intro _
          refine Carries.bind ((contained_normalize stable_always).weaken (fun _ holds => holds)
            (fun _ _ _ => trivial) fun _ raised => raised) ?_
          intro directory
          apply (contained_known absolute).bind
          intro folders
          have listed : Carries (containedDiscipline ι) unmoved i
              (fun state : RegistryState ι => ∀ folder ∈ folders, Accepted config state folder)
              (Raising.require (directory ∈ folders) (.valueError (directory ++
                text " is not a snapshot folder of this panel")) : Request Unit)
              (fun _ state => Accepted config state directory) (fun _ => True) := by
            apply carries_require (stable directory) stable_always ?_ fun _ _ _ => trivial
            intro found state accepted
            exact accepted directory (of_decide_eq_true found)
          apply listed.bind
          intro _
          apply carries_pure
          · exact stable directory
          · exact fun _ accepted => accepted
  | _ => exact carries_throw stable_always fun _ _ => trivial

/-! ## What a dump remembers -/

/-- The thread's own temporary file has this content, and it was dumped into. -/
structure Written (i : ι) (temporary : ℕ) (content : List Text) (state : RegistryState ι) :
    Prop where
  own : state.files.temporaries temporary = some (i, content)
  dumped : ∀ item ∈ content, Dumped state.history item

theorem stable_written {temporary : ℕ} {content : List Text} :
    Stable (containedDiscipline ι) i (Written i temporary content) := by
  intro before now written relied
  exact ⟨relied.temporaries temporary content written.own,
    stable_items before now written.dumped relied⟩

theorem contained_createTemporary {content : List Text} :
    Carries (containedDiscipline ι) unmoved i
      (fun state => ∀ item ∈ content, Dumped state.history item)
      (PanelCall.createTemporary.attempt id : Request ℕ)
      (fun temporary state => state.files.temporaries temporary = some (i, []) ∧
        ∀ item ∈ content, Dumped state.history item) (fun _ => True) := by
  apply carries_attempt _ _ stable_items ?_ stable_always
  · intro now reply after dumped always taken _
    rcases taken with ⟨_, files, history⟩
    cases reply with
    | error raised => exact ⟨contained_sameFiles always files history fun _ => rfl, trivial⟩
    | ok temporary =>
        rcases files with ⟨unused, files⟩
        refine ⟨?_, ?_, ?_⟩
        · apply contained_beside always ?_ ?_ history fun _ into => Bool.noConfusion into
          · rw [files]
            rfl
          · intro j _ which others found
            rw [files]
            refine RegistryFiles.temporaries_put ?_ found
            rw [unused]
            exact nofun
        · rw [files]
          exact Function.update_self ..
        · intro item mem
          exact (dumped item mem).later (grows_of_record history)
  · intro temporary before now holds relied
    exact ⟨relied.temporaries temporary [] holds.1, stable_items before now holds.2 relied⟩

/-- A change of the thread's own temporary file. -/
theorem contained_put {now after : RegistryState ι} {request : PanelCall}
    {reply : request.Reply} {temporary : ℕ} {before : List Text}
    {content : Option (ι × List Text)} (contained : Contained now)
    (own : now.files.temporaries temporary = some (i, before))
    (files : after.files = now.files.put temporary content)
    (history : after.history = (i, ⟨request, reply⟩) :: now.history)
    (noDump : ∀ directory, dumpsInto directory ⟨request, reply⟩ = false) :
    (containedDiscipline ι).Guaranteed i now after := by
  apply contained_beside contained ?_ ?_ history fun directory into =>
    absurd into (Bool.eq_false_iff.mp (noDump directory))
  · rw [files]
    rfl
  · intro j other which others found
    rw [files]
    exact RegistryFiles.temporaries_put (RegistryFiles.temporaries_ne own other) found

theorem contained_writeTemporary {temporary : ℕ} {content : List Text} :
    Carries (containedDiscipline ι) unmoved i
      (fun state => state.files.temporaries temporary = some (i, []) ∧
        ∀ item ∈ content, Dumped state.history item)
      ((PanelCall.writeTemporary temporary content).attempt id : Request Unit)
      (fun _ => Written i temporary content) (fun _ => True) := by
  apply carries_attempt _ _ ?_ (fun _ => stable_written) stable_always
  · intro now reply after holds always taken _
    rcases taken with ⟨_, files, history⟩
    cases reply with
    | error raised =>
        rcases files with ⟨creator, others, left, found, files⟩
        exact ⟨contained_put always holds.1 files history fun _ => rfl, trivial⟩
    | ok done =>
        rcases files with ⟨creator, others, found, files⟩
        rw [holds.1] at found
        cases found
        refine ⟨contained_put always holds.1 files history fun _ => rfl, ?_, ?_⟩
        · rw [files]
          exact Function.update_self ..
        · intro item mem
          exact (holds.2 item mem).later (grows_of_record history)
  · intro before now holds relied
    exact ⟨relied.temporaries temporary [] holds.1, stable_items before now holds.2 relied⟩

/-- What is moved over the registry was dumped into. -/
theorem contained_replaceRegistry {temporary : ℕ} {content : List Text} :
    Carries (containedDiscipline ι) unmoved i (Written i temporary content)
      ((PanelCall.replaceRegistry temporary).attempt id : Request Unit)
      (fun _ _ => True) (fun _ => True) := by
  apply carries_attempt _ _ stable_written (fun _ => stable_always) stable_always
  intro now reply after written always taken _
  rcases taken with ⟨_, files, history⟩
  cases reply with
  | error raised => exact ⟨contained_sameFiles always files history fun _ => rfl, trivial⟩
  | ok done =>
      rcases files with ⟨creator, others, found, files⟩
      rw [written.own] at found
      cases found
      have grows := grows_of_record history
      refine ⟨⟨⟨?_, ?_⟩, ?_⟩, trivial⟩
      · intro item mem
        rw [files, RegistryFiles.items_replaced] at mem
        exact (written.dumped item mem).later grows
      · intro directory dumped
        exact always.absolute directory (dumped_of_record history rfl dumped)
      · intro j other
        refine ⟨grows, ?_⟩
        intro which others held
        rw [files]
        exact RegistryFiles.temporaries_put (RegistryFiles.temporaries_ne written.own other) held

theorem contained_saveRegistry {content : List Text} :
    Carries (containedDiscipline ι) unmoved i
      (fun state => ∀ item ∈ content, Dumped state.history item) (saveRegistry content)
      (fun _ _ => True) (fun _ => True) := by
  apply Carries.catching fun _ => True
  · have makes : Carries (containedDiscipline ι) unmoved i
        (fun state => ∀ item ∈ content, Dumped state.history item)
        (PanelCall.makeRegistryFolder.attempt id : Request Unit)
        (fun _ state => (∀ item ∈ content, Dumped state.history item) ∧ True)
        (fun _ => True) :=
      contained_call (by trivial) stable_items (fun _ => stable_always)
        fun _ _ _ _ _ _ _ _ _ _ _ => trivial
    apply makes.bind
    intro _
    apply (contained_createTemporary.weaken (fun _ holds => holds.1) (fun _ _ holds => holds)
      fun _ raised => raised).bind
    intro temporary
    apply contained_writeTemporary.bind
    intro _
    apply contained_replaceRegistry.bind
    intro _
    apply carries_pure stable_always
    exact fun _ _ => trivial
  · intro error _
    apply carries_pure stable_always
    exact fun _ _ => trivial
  · exact fun _ _ => trivial

/-- Remembering a folder that was dumped into adds no other folder. -/
theorem contained_remember (absolute : isAbsolute config.snapshotDir = true) {directory : Text} :
    Carries (containedDiscipline ι) unmoved i (fun state => Dumped state.history directory)
      (remember config directory) (fun _ _ => True) (fun _ => True) := by
  apply (contained_normalize stable_dumped).bind
  intro resolved state holds
  -- the folder was dumped into, and so it is where it was
  have same : resolved = directory := holds.2.2 fun _ known => known
  subst same
  have growing : Growing fun state : RegistryState ι => Dumped state.history resolved :=
    fun _ _ dumped grows => dumped.later grows
  have knows : Carries (containedDiscipline ι) unmoved i
      (fun state => Dumped state.history resolved) (known config)
      (fun _ state => Dumped state.history resolved) (fun _ => True) :=
    (contained_frame growing (contained_known absolute)).weaken (fun _ holds => ⟨trivial, holds⟩)
      (fun _ _ holds => holds.2) fun _ raised => raised
  refine (knows.bind fun folders => ?_) state holds.1
  split
  · apply carries_pure stable_always
    exact fun _ _ => trivial
  · refine Carries.bind ((contained_frame growing contained_load).weaken
      (fun _ holds => ⟨trivial, holds⟩) (fun _ _ holds => holds) fun _ raised => raised) ?_
    intro stored
    apply contained_saveRegistry.weaken ?_ (fun _ _ holds => holds) fun _ raised => raised
    intro now holds item mem
    rcases List.mem_append.mp mem with before | last
    · exact holds.1 item before
    · rw [List.mem_singleton.mp last]
      exact holds.2

/-! ## The requests -/

/-- A body that only looks. -/
theorem contained_looks {α : Type} {body : Request α} {known : RegistryState ι → Prop}
    (looks : body.run.OnlyCalls IsLookup) (growing : Growing known) :
    Carries (containedDiscipline ι) unmoved i known body (fun _ => known) (fun _ => True) := by
  refine (carries_of_onlyCalls looks growing.stable ?_).weaken (fun _ holds => holds)
    (fun _ _ holds => holds) fun _ _ => trivial
  intro now request reply after lookup holds always taken
  exact ⟨guaranteed_lookup lookup always taken,
    growing now after holds (grows_of_record taken.2.2)⟩

/-- Where the engine's run succeeds, the folder was dumped into. -/
theorem contained_runEngine {engine directory name timedOut : Text} {pid : ℤ} {kill : Bool}
    (absolute : isAbsolute directory = true) :
    Carries (containedDiscipline ι) unmoved i (fun _ => True)
      (runEngine (command config engine (.dump pid directory name kill)) timedOut)
      (fun completed state => completed.returncode = 0 → Dumped state.history directory)
      (fun _ => True) := by
  have stable : ∀ returncode : ℤ, Stable (containedDiscipline ι) i fun state =>
      returncode = 0 → Dumped state.history directory :=
    fun _ before now holds relied succeeded => (holds succeeded).later relied.grows
  have runs : Carries (containedDiscipline ι) unmoved i (fun _ => True)
      ((PanelCall.run (command config engine (.dump pid directory name kill))).attempt id :
        Request (Completed Bytes))
      (fun completed state => completed.returncode = 0 → Dumped state.history directory)
      (fun _ => True) := by
    apply carries_attempt _ _ stable_always ?_ stable_always
    rotate_left
    · exact fun completed => stable completed.returncode
    intro now reply after _ always taken _
    rcases taken with ⟨_, files, history⟩
    have same := files.eq_of_onlyLooks (by trivial)
    have guaranteed : (containedDiscipline ι).Guaranteed i now after := by
      apply contained_beside always ?_ ?_ history
      · intro other into
        cases reply with
        | error raised => exact Bool.noConfusion into
        | ok completed =>
            have asked : completed.returncode = 0 ∧ directory = other := by
              simpa [dumpsInto, dumpsTo, command] using into
            rw [← asked.2]
            exact absolute
      · rw [same]
      · intro j _ which content found
        rw [same]
        exact found
    refine ⟨guaranteed, ?_⟩
    cases reply with
    | error raised => trivial
    | ok completed =>
        intro succeeded
        refine ⟨_, history ▸ List.mem_cons_self, ?_⟩
        change completed.returncode = 0 at succeeded
        simp [dumpsInto, dumpsTo, command, succeeded]
  apply Carries.catching fun _ => True
  · apply runs.bind
    intro completed
    have keeps : ∀ raw : Bytes, Carries (containedDiscipline ι) unmoved i
        (fun state => completed.returncode = 0 → Dumped state.history directory)
        (liftExcept (decodeOutput raw) : Request Text)
        (fun _ state => completed.returncode = 0 → Dumped state.history directory)
        (fun _ => True) := by
      intro raw
      apply contained_looks onlyCalls_liftExcept
      exact fun _ _ holds grows succeeded => (holds succeeded).later grows
    apply (keeps completed.stdout).bind
    intro stdout
    apply (keeps completed.stderr).bind
    intro stderr
    apply carries_pure
    · exact stable completed.returncode
    · exact fun _ holds => holds
  · intro error _
    split
    · exact carries_throw stable_always fun _ _ => trivial
    · exact carries_throw stable_always fun _ _ => trivial
  · exact fun _ _ => trivial

theorem contained_finishDump (absolute : isAbsolute config.snapshotDir = true)
    {name directory : Text} {completed : Completed Text} :
    Carries (containedDiscipline ι) unmoved i
      (fun state => completed.returncode = 0 → Dumped state.history directory)
      (finishDump config name directory completed) (fun _ _ => True) (fun _ => True) := by
  have growing : Growing fun state : RegistryState ι =>
      completed.returncode = 0 → Dumped state.history directory :=
    fun _ _ holds grows succeeded => (holds succeeded).later grows
  have always : Growing fun _ : RegistryState ι => True := fun _ _ _ _ => trivial
  refine Carries.bind (contained_looks (OnlyCalls.onlyIf (onlyCalls_log (by trivial))) growing)
    fun _ => ?_
  have succeeds : Carries (containedDiscipline ι) unmoved i
      (fun state => completed.returncode = 0 → Dumped state.history directory)
      (refuseFailure config completed (strip (completed.stdout ++ completed.stderr)))
      (fun _ state => Dumped state.history directory) (fun _ => True) := by
    rw [refuseFailure]
    split
    · next succeeded =>
      apply carries_pure stable_dumped
      exact fun _ holds => holds succeeded
    · refine Carries.bind (contained_looks (onlyCalls_log (by trivial)) growing) fun _ => ?_
      exact carries_throw stable_always fun _ _ => trivial
  apply succeeds.bind
  intro _
  have dumped : Growing fun state : RegistryState ι => Dumped state.history directory :=
    fun _ _ dumped grows => dumped.later grows
  refine Carries.bind (contained_looks (onlyCalls_log (by trivial)) dumped) fun _ => ?_
  apply (contained_remember absolute).bind
  intro remembered
  refine Carries.bind (contained_looks (OnlyCalls.onlyIf (onlyCalls_log (by trivial))) always)
    fun _ => ?_
  refine Carries.bind (contained_looks (onlyCalls_resolve fun _ => trivial) always) fun path => ?_
  refine Carries.bind (contained_looks (onlyCalls_readHeader (by trivial) (by trivial)) always)
    fun header => ?_
  apply carries_pure stable_always
  exact fun _ _ => trivial

/-- The folder of a dump that names one is absolute. -/
theorem contained_validate (folder : Json) :
    Carries (containedDiscipline ι) unmoved i (fun _ => True) (validate folder)
      (fun directory _ => isAbsolute directory = true) (fun _ => True) := by
  have always : Growing fun _ : RegistryState ι => True := fun _ _ _ _ => trivial
  have absolute : ∀ directory : Text, Growing fun _ : RegistryState ι =>
      isAbsolute directory = true := fun _ _ _ absolute _ => absolute
  cases folder with
  | string given =>
      refine Carries.bind (contained_looks onlyCalls_raising_require always) fun _ => ?_
      refine Carries.bind (contained_looks onlyCalls_raising_require always) fun _ => ?_
      refine Carries.bind (contained_looks (PanelCall.onlyCalls_attempt (by trivial)) always)
        fun expanded => ?_
      refine Carries.bind (contained_looks onlyCalls_raising_require always) fun _ => ?_
      refine Carries.bind ((contained_normalize always.stable).weaken (fun _ holds => holds)
        (fun _ _ normalized => normalized.2.1.absolute) fun _ raised => raised) fun directory => ?_
      refine Carries.bind (contained_looks onlyCalls_raising_require (absolute directory))
        fun _ => ?_
      refine Carries.bind (contained_looks ?_ (absolute directory)) fun _ => ?_
      · exact OnlyCalls.catching (PanelCall.onlyCalls_attempt (by trivial)) fun _ => trivial
      refine Carries.bind (contained_looks (PanelCall.onlyCalls_attempt (by trivial))
        (absolute directory)) fun present => ?_
      refine Carries.bind (contained_looks onlyCalls_raising_require (absolute directory))
        fun _ => ?_
      apply carries_pure (absolute directory).stable
      exact fun _ holds => holds
  | _ => exact carries_throw stable_always fun _ _ => trivial

theorem contained_dump (absolute : isAbsolute config.snapshotDir = true) {timeout : Text}
    {pid : ℤ} {name : Json} {kill : Bool} {directory : Option Text}
    (given : ∀ folder ∈ directory, isAbsolute folder = true) :
    Carries (containedDiscipline ι) unmoved i (fun _ => True)
      (dump config timeout pid name kill directory) (fun _ _ => True) (fun _ => True) := by
  have always : Growing fun _ : RegistryState ι => True := fun _ _ _ _ => trivial
  refine Carries.bind (contained_looks onlyCalls_liftExcept always) fun name => ?_
  have chooses : Carries (containedDiscipline ι) unmoved i (fun _ => True)
      (directory.elim (snapshotDir config) pure)
      (fun folder _ => isAbsolute folder = true) (fun _ => True) := by
    cases directory with
    | none =>
        refine Carries.bind (contained_looks (PanelCall.onlyCalls_attempt (by trivial)) always)
          fun _ => ?_
        apply carries_pure
        · exact fun _ _ holds _ => holds
        · exact fun _ _ => absolute
    | some folder =>
        apply carries_pure
        · exact fun _ _ holds _ => holds
        · exact fun _ _ => given folder rfl
  apply chooses.bind
  intro folder state isAbsoluteFolder
  refine ((?_ : Carries (containedDiscipline ι) unmoved i (fun _ => True) _ _ _)) state trivial
  refine Carries.bind (contained_looks (onlyCalls_binary (fun _ => trivial) fun _ => trivial)
    always) fun engine => ?_
  refine Carries.bind (contained_looks (onlyCalls_log (by trivial)) always) fun _ => ?_
  apply (contained_runEngine isAbsoluteFolder).bind
  intro completed
  exact contained_finishDump absolute

/-- A request answers with the default store or a folder that was dumped into. -/
theorem contained_serve (absolute : isAbsolute config.snapshotDir = true) {timeout : Text}
    (request : FolderRequest) :
    Carries (containedDiscipline ι) unmoved i (fun _ => True) (request.serve config timeout)
      (fun answer state => ∀ folder ∈ answer, Accepted config state folder) (fun _ => True) := by
  have stable : ∀ answer : Option Text, Stable (containedDiscipline ι) i fun state =>
      ∀ folder ∈ answer, Accepted config state folder :=
    fun answer before now holds relied folder mem => (holds folder mem).later relied.grows
  cases request with
  | dump pid name kill folder =>
      have chooses : Carries (containedDiscipline ι) unmoved i (fun _ => True)
          (dumpFolder folder)
          (fun directory _ => ∀ folder ∈ directory, isAbsolute folder = true)
          (fun _ => True) := by
        cases folder with
        | none =>
            apply carries_pure
            · exact fun _ _ holds _ => holds
            · exact fun _ _ folder mem => absurd mem (Option.not_mem_none folder)
        | some given =>
            apply (contained_validate given).bind
            intro directory
            apply carries_pure
            · exact fun _ _ holds _ => holds
            · intro state holds folder mem
              cases mem
              exact holds
      apply chooses.bind
      intro directory state given
      refine ((?_ : Carries (containedDiscipline ι) unmoved i (fun _ => True) _ _ _)) state trivial
      apply (contained_dump absolute given).bind
      intro report
      apply carries_pure (stable none)
      exact fun _ _ folder mem => absurd mem (Option.not_mem_none folder)
  | lookup path =>
      apply (contained_requireKnown absolute path).bind
      intro folder
      apply carries_pure (stable (some folder))
      intro state accepted other mem
      cases mem
      exact accepted

end Functions

/-- As long as folders that were dumped into resolve to themselves, every lookup gives the
default store or a folder that an earlier dump went to. -/
theorem lookup_contained [DecidableEq ι] (config : Config) (timeout : Text)
    (absolute : isAbsolute config.snapshotDir = true) (requests : ι → FolderRequest)
    {state : RegistryState ι} (contained : Contained state)
    {pool : Pool (registrySystem ι AnyFileSystem) (Except PythonError (Option Text))}
    (reaches : Pool.Reaches Unmoved (folderStart config timeout requests state) pool)
    (i : ι) (folder : Text) (answered : pool.thread i = .done (.ok (some folder))) :
    Led pool.shared.history config.snapshotDir folder ∨ Dumped pool.shared.history folder := by
  have drifts : ∀ before now, (containedDiscipline ι).always before →
      (registrySystem ι AnyFileSystem).drift before now →
      (containedDiscipline ι).Unnoticed before now := by
    intro before now _ drifted
    exact drifted.elim
  have start : Contained (folderStart config timeout requests state).shared := contained
  have both := Pool.reaches_keeps drifts start
    (fun i => contained_serve absolute (requests i) _ trivial) reaches
  have accepted := (both.2 i).of_done answered folder rfl
  exact accepted.symm

/-! ## Runs -/

/-- One request dumps into a folder, the other one looks a folder up. -/
def dumpAndLookup (path : Text) : Bool → FolderRequest
  | false => .dump 7 (.string (text "run")) false (some (.string (text "/a")))
  | true => .lookup (.string path)

/-- No registry, and no calls so far. -/
def noCalls : RegistryState Bool where
  files := { registry := none, temporaries := fun _ => none }
  history := []

theorem contained_noCalls : Contained noCalls :=
  ⟨fun _ mem => absurd mem List.not_mem_nil,
    fun _ dumped => dumped.elim fun _ both => absurd both.1 List.not_mem_nil⟩

/-- What a request finds behind a path: the second one finds links. -/
def behind (links : Text → Text) (i : Bool) (path : Text) : Text :=
  if i then links path else path

/-- The plain files, and what is behind the paths of the two requests. -/
def linkedAnswer (links : Text → Text) (i : Bool) (state : RegistryState Bool)
    (request : PanelCall) : Option (request.Reply × RegistryState Bool) :=
  match request with
  | .resolve path =>
      if isAbsolute (behind links i path) then
        some (.ok (behind links i path),
          { state with
            history := (i, ⟨.resolve path, .ok (behind links i path)⟩) :: state.history })
      else none
  | request => plainAnswer (fun _ _ _ _ => true) i state request

theorem step_of_linkedAnswer {links : Text → Text} {i : Bool} {state after : RegistryState Bool}
    {request : PanelCall} {reply : request.Reply}
    (answered : linkedAnswer links i state request = some (reply, after)) :
    (registrySystem Bool AnyFileSystem).step i state request reply after := by
  cases request with
  | resolve path =>
      simp only [linkedAnswer] at answered
      split at answered
      · next absolute =>
          cases answered
          exact ⟨absolute, rfl, rfl⟩
      · cases answered
  | expandUser path =>
      cases answered
      exact ⟨fun _ => rfl, rfl, rfl⟩
  | _ =>
      have plain : plainAnswer (fun _ _ _ _ => true) i state _ = some (reply, after) := answered
      rcases plainAnswer_eq_some plain with ⟨found, history, _⟩
      exact ⟨trivial, step_of_plainFiles found, history⟩

theorem unmoved_of_linkedAnswer {i : Bool} {state after : RegistryState Bool}
    {request : PanelCall} {reply : request.Reply}
    (answered : linkedAnswer id i state request = some (reply, after)) :
    Unmoved i state request reply := by
  cases request with
  | resolve path =>
      simp only [linkedAnswer] at answered
      split at answered
      · cases answered
        intro _
        simp [behind]
      · cases answered
  | _ => exact trivial

abbrev folderCalls (path : Text) :
    Pool (registrySystem Bool AnyFileSystem) (Except PythonError (Option Text)) :=
  folderStart exampleConfig (text "60") (dumpAndLookup path) noCalls

/-- The first request dumps into the folder, the second one then looks it up. -/
theorem lookup_contained_sameFolder : ∃ pool : Pool (registrySystem Bool AnyFileSystem)
    (Except PythonError (Option Text)),
      pool.thread true = .done (.ok (some (text "/a"))) ∧
        (Led pool.shared.history exampleConfig.snapshotDir (text "/a") ∨
          Dumped pool.shared.history (text "/a")) := by
  have scheduled : Pool.schedule (linkedAnswer id)
      (List.replicate 20 false ++ List.replicate 8 true) (folderCalls (text "/a")) = some _ := rfl
  have answered : ∀ i state request reply after,
      linkedAnswer id i state request = some (reply, after) →
        (registrySystem Bool AnyFileSystem).step i state request reply after ∧
          Unmoved i state request reply :=
    fun i state request reply after answered =>
      ⟨step_of_linkedAnswer answered, unmoved_of_linkedAnswer answered⟩
  exact ⟨_, rfl, lookup_contained exampleConfig (text "60") (by decide)
    (dumpAndLookup (text "/a")) contained_noCalls (Pool.reaches_of_schedule answered scheduled)
    true (text "/a") rfl⟩

/-- The folder of the dump is replaced by a link to another one before the lookup. -/
def linked (path : Text) : Text :=
  if path = text "/a" then text "/b" else path

/-- What the panel accepts then is the folder behind the link, which no dump went to. -/
theorem not_lookup_contained : ∃ pool,
    Pool.Reaches (fun _ _ _ _ => True) (folderCalls (text "/b")) pool ∧
      pool.thread true = .done (.ok (some (text "/b"))) ∧
      ¬Led pool.shared.history exampleConfig.snapshotDir (text "/b") ∧
      ¬Dumped pool.shared.history (text "/b") := by
  have scheduled : Pool.schedule (linkedAnswer linked)
      (List.replicate 20 false ++ List.replicate 8 true) (folderCalls (text "/b")) = some _ := rfl
  refine ⟨_, Pool.reaches_of_schedule ?_ scheduled, rfl, ?_, ?_⟩
  · exact fun i state request reply after answered => ⟨step_of_linkedAnswer answered, trivial⟩
  · intro led
    exact absurd (List.any_eq_true.mpr led) (Bool.eq_false_iff.mp rfl)
  · intro dumped
    exact absurd (List.any_eq_true.mpr dumped) (Bool.eq_false_iff.mp rfl)

end Ksnap.Panel
