import Ksnap.Panel.Registry

/-!
# Remembering folders at the same time

Several requests remember their folders in one registry. Each reads the file, adds its
folder and moves the new file over the old one, with no lock around it. What a request
read is still what it replaces when no other one moved its file in between, and a second
read that fails would take the registry for an empty one. In every interleaving without
either, no folder is lost; without the condition the later move undoes the earlier one.
-/

namespace Ksnap.Panel

open Foundation

variable {ι : Type} [DecidableEq ι]

/-- Where paths lead in a file tree that does not change. -/
structure Tree where
  expandUser : Text → Except PythonError Text
  resolve : Text → Except PythonError Text

/-- What `_normalize` gives in the tree. -/
def Tree.normalize (tree : Tree) (path : Text) : Except PythonError Text :=
  match tree.expandUser path with
  | .ok expanded => tree.resolve expanded
  | .error raised => .error raised

theorem Tree.normalize_eq_bind (tree : Tree) (path : Text) :
    tree.normalize path = tree.expandUser path >>= tree.resolve := by
  rw [Tree.normalize]
  cases tree.expandUser path <;> rfl

def Tree.Answers (tree : Tree) : (request : PanelCall) → request.Reply → Prop
  | .expandUser path, reply => reply = tree.expandUser path
  | .resolve path, reply => reply = tree.resolve path
  | _, _ => True

/-! ## The condition -/

def isLoad (event : Event PanelInterface) : Bool :=
  match event.request with
  | .loadRegistry => true
  | _ => false

/-- A move that went through. -/
def isMove : Event PanelInterface → Bool
  | ⟨.replaceRegistry _, .ok _⟩ => true
  | _ => false

/-- The registry was replaced by another thread since the thread last read it. -/
def stale (i : ι) : List (ι × Event PanelInterface) → Bool
  | [] => false
  | (j, event) :: older =>
      if j = i then if isLoad event then false else stale i older
      else if isMove event then true else stale i older

/-- The thread has read the registry before. -/
def hasLoaded (i : ι) (history : List (ι × Event PanelInterface)) : Bool :=
  history.any fun entry => entry.1 = i && isLoad entry.2

/-- A thread replaces the registry only if it is still the one it read, and its second
read of a registry that is there does not fail. -/
def undisturbed (i : ι) (state : RegistryState ι) : (request : PanelCall) → request.Reply → Bool
  | .loadRegistry, .error _ => hasLoaded i state.history → state.files.registry.isNone
  | .replaceRegistry _, .ok _ => !stale i state.history
  | _, _ => true

/-- The threads before any of them has begun. -/
def rememberStart (tree : Tree) (config : Config) (folder : ι → Text) (files : RegistryFiles ι) :
    Pool (registrySystem ι tree.Answers) (Except PythonError Bool) where
  shared := { files := files, history := [] }
  thread := fun i => (remember config (folder i)).run

/-- The registry has the folder, or an item that leads to it. -/
def Listed (tree : Tree) (files : RegistryFiles ι) (directory : Text) : Prop :=
  ∃ item ∈ files.items, item = directory ∨ tree.normalize item = .ok directory

/-! ## The discipline -/

/-- What a thread can rely on: folders only come, its own temporary files stay, and while
it is not stale the registry is the same. -/
structure RememberRely (i : ι) (before now : RegistryState ι) : Prop where
  items : ∀ item ∈ before.files.items, item ∈ now.files.items
  temporaries : ∀ temporary content,
    before.files.temporaries temporary = some (i, content) →
      now.files.temporaries temporary = some (i, content)
  fresh : stale i now.history = false →
    stale i before.history = false ∧ now.files.registry = before.files.registry
  loaded : hasLoaded i before.history = true → hasLoaded i now.history = true

def rememberDiscipline (tree : Tree) (initial : List Text) :
    Discipline (registrySystem ι tree.Answers) where
  always := fun state => ∀ item ∈ initial, item ∈ state.files.items
  rely := RememberRely
  refl := fun i state => ⟨fun _ mem => mem, fun _ _ same => same, fun fresh => ⟨fresh, rfl⟩, id⟩
  trans := by
    intro i first second third one two
    refine ⟨?_, ?_, ?_, ?_⟩
    · intro item mem
      exact two.items item (one.items item mem)
    · intro temporary content same
      exact two.temporaries temporary content (one.temporaries temporary content same)
    · intro fresh
      rcases two.fresh fresh with ⟨freshBefore, same⟩
      rcases one.fresh freshBefore with ⟨freshFirst, sameFirst⟩
      exact ⟨freshFirst, same.trans sameFirst⟩
    · intro loaded
      exact two.loaded (one.loaded loaded)

abbrev Undisturbed (tree : Tree) : (registrySystem ι tree.Answers).Condition :=
  fun i state request reply => undisturbed i state request reply = true

section Steps

variable {tree : Tree} {initial : List Text} {i : ι} {now after : RegistryState ι}
  {request : PanelCall} {reply : request.Reply}

omit [DecidableEq ι] in
theorem isMove_of_onlyLooks (looks : OnlyLooks request) : isMove ⟨request, reply⟩ = false := by
  cases request with
  | replaceRegistry temporary => exact looks.elim
  | _ => rfl

/-- A call that neither moves the registry nor touches a file of another thread. -/
theorem guaranteed_beside (always : (rememberDiscipline (ι := ι) tree initial).always now)
    (items : after.files.registry = now.files.registry)
    (temporaries : ∀ j, j ≠ i → ∀ temporary content,
      now.files.temporaries temporary = some (j, content) →
        after.files.temporaries temporary = some (j, content))
    (history : after.history = (i, ⟨request, reply⟩) :: now.history)
    (noMove : isMove ⟨request, reply⟩ = false) :
    (rememberDiscipline (ι := ι) tree initial).Guaranteed i now after := by
  have same : after.files.items = now.files.items := by
    rw [RegistryFiles.items, items]
    rfl
  refine ⟨?_, ?_⟩
  · intro item mem
    rw [same]
    exact always item mem
  · intro j other
    have different : i ≠ j := Ne.symm other
    refine ⟨?_, temporaries j other, ?_, ?_⟩
    · intro item mem
      rw [same]
      exact mem
    · intro fresh
      rw [history, stale, if_neg different, noMove] at fresh
      exact ⟨fresh, items⟩
    · intro loaded
      rw [history, hasLoaded, List.any_cons, ← hasLoaded, loaded, Bool.or_true]

/-- A call that changes no file and is no move. -/
theorem guaranteed_sameFiles (always : (rememberDiscipline (ι := ι) tree initial).always now)
    (same : after.files = now.files)
    (history : after.history = (i, ⟨request, reply⟩) :: now.history)
    (noMove : isMove ⟨request, reply⟩ = false) :
    (rememberDiscipline (ι := ι) tree initial).Guaranteed i now after := by
  apply guaranteed_beside always ?_ ?_ history noMove
  · rw [same]
  · intro j _ temporary content holds
    rw [same]
    exact holds

theorem guaranteed_looks (always : (rememberDiscipline (ι := ι) tree initial).always now)
    (looks : OnlyLooks request) (taken : now.files.Step i request reply after.files)
    (history : after.history = (i, ⟨request, reply⟩) :: now.history) :
    (rememberDiscipline (ι := ι) tree initial).Guaranteed i now after :=
  guaranteed_sameFiles always (taken.eq_of_onlyLooks looks) history (isMove_of_onlyLooks looks)

end Steps

/-! ## What a thread knows -/

section Knowledge

variable {tree : Tree} {initial : List Text} {i : ι}

/-- A folder that the panel accepts, now and from now on. -/
def Accepts (tree : Tree) (config : Config) (state : RegistryState ι) (folder : Text) : Prop :=
  tree.normalize config.snapshotDir = .ok folder ∨ Listed tree state.files folder

/-- What was read is what the registry holds, as long as the thread is not stale. -/
def ReadLast (i : ι) (stored : List Text) (state : RegistryState ι) : Prop :=
  stale i state.history = false → state.files.items = stored

/-- The file written aside, and what was read before. -/
structure Aside (i : ι) (stored content : List Text) (temporary : ℕ) (state : RegistryState ι) :
    Prop where
  readLast : ReadLast i stored state
  written : state.files.temporaries temporary = some (i, content)

omit [DecidableEq ι] in
theorem Listed.mono {before now : RegistryFiles ι} {directory : Text}
    (listed : Listed tree before directory) (more : ∀ item ∈ before.items, item ∈ now.items) :
    Listed tree now directory := by
  rcases listed with ⟨item, mem, leads⟩
  exact ⟨item, more item mem, leads⟩

theorem stable_true : Stable (rememberDiscipline (ι := ι) tree initial) i fun _ => True :=
  fun _ _ _ _ => trivial

theorem stable_accepts {config : Config} {folders : List Text} :
    Stable (rememberDiscipline (ι := ι) tree initial) i fun state =>
      ∀ folder ∈ folders, Accepts tree config state folder := by
  intro before now accepts relied folder mem
  rcases accepts folder mem with default | listed
  · left
    exact default
  · right
    exact listed.mono relied.items

theorem ReadLast.later {stored : List Text} {before now : RegistryState ι}
    (readLast : ReadLast i stored before) (relied : RememberRely i before now) :
    ReadLast i stored now := by
  intro fresh
  rcases relied.fresh fresh with ⟨freshBefore, same⟩
  rw [RegistryFiles.items, same]
  exact readLast freshBefore

theorem stable_readLast {stored : List Text} :
    Stable (rememberDiscipline (ι := ι) tree initial) i (ReadLast i stored) :=
  fun _ _ readLast relied => readLast.later relied

theorem stable_aside {stored content : List Text} {temporary : ℕ} :
    Stable (rememberDiscipline (ι := ι) tree initial) i (Aside i stored content temporary) :=
  fun _ _ aside relied =>
    ⟨aside.readLast.later relied, relied.temporaries temporary content aside.written⟩

end Knowledge

/-! ## The functions -/

section Functions

variable {tree : Tree} {initial : List Text} {i : ι} {config : Config}

/-- What a thread knows and its own calls beside the registry leave true. -/
def Untouched (i : ι) (known : RegistryState ι → Prop) : Prop :=
  ∀ state event, isLoad event = false → known state →
    known { state with history := (i, event) :: state.history }

/-- A call that only looks, and what its answer shows. -/
theorem carries_looking {α : Type} {request : PanelCall}
    {value : request.Reply → Except PythonError α} {known raises : RegistryState ι → Prop}
    {shows : α → Prop} (looks : OnlyLooks request)
    (notLoad : ∀ reply, isLoad ⟨request, reply⟩ = false)
    (stable : Stable (rememberDiscipline tree initial) i known)
    (stableRaises : Stable (rememberDiscipline tree initial) i raises)
    (untouched : Untouched i known) (implied : ∀ state, known state → raises state)
    (answers : ∀ reply, tree.Answers request reply → ∀ result, value reply = .ok result →
      shows result) :
    Carries (rememberDiscipline tree initial) (Undisturbed tree) i known (request.attempt value)
      (fun result state => shows result ∧ known state) raises := by
  apply carries_attempt _ _ stable ?_ stableRaises
  · intro now reply after holds always taken _
    rcases taken with ⟨answered, files, history⟩
    have same := files.eq_of_onlyLooks looks
    have whole : after = { now with history := (i, ⟨request, reply⟩) :: now.history } := by
      rw [← history, ← same]
    have knows : known after := by
      rw [whole]
      exact untouched now _ (notLoad reply) holds
    refine ⟨guaranteed_looks always looks files history, ?_⟩
    split
    · next result returned => exact ⟨answers reply answered result returned, knows⟩
    · exact implied after knows
  · intro result before now holds relied
    exact ⟨holds.1, stable before now holds.2 relied⟩

theorem carries_normalize {path : Text} {known : RegistryState ι → Prop}
    (stable : Stable (rememberDiscipline tree initial) i known) (untouched : Untouched i known) :
    Carries (rememberDiscipline tree initial) (Undisturbed tree) i known (normalize path)
      (fun directory state => tree.normalize path = .ok directory ∧ known state)
      (fun _ => True) := by
  have expands : Carries (rememberDiscipline tree initial) (Undisturbed tree) i known
      ((PanelCall.expandUser path).attempt id : Request Text)
      (fun expanded state => tree.expandUser path = .ok expanded ∧ known state)
      (fun _ => True) := by
    apply carries_looking (by trivial) (fun _ => rfl) stable stable_true untouched
      (fun _ _ => trivial)
    intro reply answered expanded returned
    exact answered.symm.trans returned
  apply expands.bind
  intro expanded
  have resolves : Carries (rememberDiscipline tree initial) (Undisturbed tree) i known
      ((PanelCall.resolve expanded).attempt id : Request Text)
      (fun directory state => tree.resolve expanded = .ok directory ∧ known state)
      (fun _ => True) := by
    apply carries_looking (by trivial) (fun _ => rfl) stable stable_true untouched
      (fun _ _ => trivial)
    intro reply answered directory returned
    exact answered.symm.trans returned
  intro state holds
  refine (resolves state holds.2).mono ?_
  intro outcome now ends
  cases outcome with
  | error raised => trivial
  | ok directory =>
      refine ⟨?_, ends.2⟩
      rw [Tree.normalize, holds.1]
      exact ends.1

/-- What a load gives: folders of the registry, and all of them in a second load. -/
structure Loaded (i : ι) (second : Prop) (items : List Text) (state : RegistryState ι) : Prop where
  held : ∀ item ∈ items, item ∈ state.files.items
  loaded : hasLoaded i state.history = true
  readLast : second → ReadLast i items state

theorem stable_loaded {second : Prop} {items : List Text} :
    Stable (rememberDiscipline tree initial) i (Loaded i second items) := by
  intro before now loaded relied
  refine ⟨?_, relied.loaded loaded.loaded, ?_⟩
  · intro item mem
    exact relied.items item (loaded.held item mem)
  · intro isSecond
    exact (loaded.readLast isSecond).later relied

theorem carries_load (second : Prop) :
    Carries (rememberDiscipline tree initial) (Undisturbed tree) i
      (fun state => second → hasLoaded i state.history = true) load
      (fun items => Loaded i second items) (fun _ => True) := by
  have stableBefore : Stable (rememberDiscipline tree initial) i
      fun state => second → hasLoaded i state.history = true :=
    fun before now holds relied isSecond => relied.loaded (holds isSecond)
  apply Carries.catching (Loaded i second [])
  · have reads : Carries (rememberDiscipline tree initial) (Undisturbed tree) i
        (fun state => second → hasLoaded i state.history = true)
        (PanelCall.loadRegistry.attempt id : Request Json)
        (fun stored => Loaded i second (registryItems stored)) (Loaded i second []) := by
      apply carries_attempt _ _ stableBefore (fun _ => stable_loaded) stable_loaded
      intro now reply after before always taken condition
      rcases taken with ⟨_, files, history⟩
      refine ⟨guaranteed_looks always (by trivial) files history, ?_⟩
      have same := files.eq_of_onlyLooks (by trivial)
      have loaded : hasLoaded i after.history = true := by
        rw [history, hasLoaded, List.any_cons]
        simp [isLoad]
      cases reply with
      | ok stored =>
          have items : after.files.items = registryItems stored := by
            rw [same, RegistryFiles.items, files.1]
          refine ⟨?_, loaded, fun _ _ => items⟩
          intro item mem
          rw [items]
          exact mem
      | error raised =>
          refine ⟨by simp, loaded, ?_⟩
          intro isSecond _
          -- a failed second load means that there is no registry
          have missing : now.files.registry.isNone = true := by
            have implies := of_decide_eq_true condition
            exact implies (before isSecond)
          rw [same, RegistryFiles.items, Option.isNone_iff_eq_none.mp missing]
    apply reads.bind
    intro stored
    apply carries_pure
    · exact stable_loaded
    · exact fun _ loaded => loaded
  · intro error _
    apply carries_pure
    · exact stable_loaded
    · exact fun _ loaded => loaded
  · exact fun _ _ => trivial

/-- The state of the loop in `known`: what it has gathered is accepted. -/
structure Gathered (tree : Tree) (config : Config) (i : ι) (items folders : List Text)
    (state : RegistryState ι) : Prop where
  accepts : ∀ folder ∈ folders, Accepts tree config state folder
  held : ∀ item ∈ items, item ∈ state.files.items
  loaded : hasLoaded i state.history = true

theorem stable_gathered {items folders : List Text} :
    Stable (rememberDiscipline tree initial) i (Gathered tree config i items folders) := by
  intro before now gathered relied
  refine ⟨stable_accepts before now gathered.accepts relied, ?_,
    relied.loaded gathered.loaded⟩
  intro item mem
  exact relied.items item (gathered.held item mem)

theorem hasLoaded_cons {history : List (ι × Event PanelInterface)}
    {entry : ι × Event PanelInterface} (loaded : hasLoaded i history = true) :
    hasLoaded i (entry :: history) = true := by
  rw [hasLoaded, List.any_cons, ← hasLoaded, loaded, Bool.or_true]

theorem untouched_gathered {items folders : List Text} :
    Untouched i (Gathered tree config i items folders) := by
  intro state event _ gathered
  exact ⟨gathered.accepts, gathered.held, hasLoaded_cons gathered.loaded⟩

theorem carries_addKnown {items folders : List Text} {item : Text} (mem : item ∈ items) :
    Carries (rememberDiscipline tree initial) (Undisturbed tree) i
      (Gathered tree config i items folders) (addKnown folders item)
      (fun folders => Gathered tree config i items folders) (fun _ => True) := by
  apply (carries_normalize stable_gathered untouched_gathered).bind
  intro folder
  have stableFound : Stable (rememberDiscipline tree initial) i fun state =>
      tree.normalize item = .ok folder ∧ Gathered tree config i items folders state :=
    fun before now holds relied => ⟨holds.1, stable_gathered before now holds.2 relied⟩
  split
  · apply carries_pure
    · exact stable_gathered
    · exact fun _ holds => holds.2
  · have looks : Carries (rememberDiscipline tree initial) (Undisturbed tree) i
        (fun state => tree.normalize item = .ok folder ∧
          Gathered tree config i items folders state)
        ((PanelCall.isDir folder).attempt id : Request Bool)
        (fun _ state => True ∧ tree.normalize item = .ok folder ∧
          Gathered tree config i items folders state) (fun _ => True) := by
      apply carries_looking (by trivial) (fun _ => rfl) stableFound stable_true ?_
        (fun _ _ => trivial) (fun _ _ _ _ => trivial)
      intro state event notLoad holds
      exact ⟨holds.1, untouched_gathered state event notLoad holds.2⟩
    apply looks.bind
    intro present
    apply carries_pure
    · exact stable_gathered
    · intro state holds
      rcases holds with ⟨_, leads, gathered⟩
      cases present with
      | false => exact gathered
      | true =>
          refine ⟨?_, gathered.held, gathered.loaded⟩
          intro other otherMem
          rcases List.mem_append.mp otherMem with before | last
          · exact gathered.accepts other before
          · rw [List.mem_singleton.mp last]
            right
            exact ⟨item, gathered.held item mem, .inr leads⟩

theorem carries_known :
    Carries (rememberDiscipline tree initial) (Undisturbed tree) i (fun _ => True) (known config)
      (fun folders state => (∀ folder ∈ folders, Accepts tree config state folder) ∧
        hasLoaded i state.history = true) (fun _ => True) := by
  apply (carries_normalize stable_true fun _ _ _ _ => trivial).bind
  intro default
  have loads : Carries (rememberDiscipline tree initial) (Undisturbed tree) i
      (fun _ => tree.normalize config.snapshotDir = .ok default ∧ True) load
      (fun items => Gathered tree config i items [default]) (fun _ => True) := by
    intro state holds
    refine (carries_load False state False.elim).mono ?_
    intro outcome now ends
    cases outcome with
    | error raised => trivial
    | ok items =>
        refine ⟨?_, ends.held, ends.loaded⟩
        intro folder mem
        left
        rw [List.mem_singleton.mp mem]
        exact holds.1
  apply loads.bind
  intro items
  refine (carries_foldlM (Gathered tree config i items) (fun _ => stable_gathered) ?_).weaken
    (fun _ gathered => gathered) (fun _ _ gathered => ⟨gathered.accepts, gathered.loaded⟩)
    (fun _ raised => raised)
  intro folders item mem
  exact carries_addKnown mem

theorem untouched_readLast {stored : List Text} : Untouched i (ReadLast i stored) := by
  intro state event notLoad readLast fresh
  rw [stale, if_pos rfl, notLoad] at fresh
  exact readLast fresh

/-- A change of one temporary file that no other thread has. -/
theorem guaranteed_put {now after : RegistryState ι} {request : PanelCall}
    {reply : request.Reply} {temporary : ℕ} {content : Option (ι × List Text)}
    (always : (rememberDiscipline tree initial).always now)
    (own : ∀ j, j ≠ i → ∀ others, now.files.temporaries temporary ≠ some (j, others))
    (files : after.files = now.files.put temporary content)
    (history : after.history = (i, ⟨request, reply⟩) :: now.history)
    (noMove : isMove ⟨request, reply⟩ = false) :
    (rememberDiscipline tree initial).Guaranteed i now after := by
  apply guaranteed_beside always ?_ ?_ history noMove
  · rw [files]
    rfl
  · intro j other which others holds
    rw [files]
    exact RegistryFiles.temporaries_put (own j other others) holds

theorem carries_createTemporary {stored : List Text} :
    Carries (rememberDiscipline tree initial) (Undisturbed tree) i (ReadLast i stored)
      (PanelCall.createTemporary.attempt id : Request ℕ)
      (fun temporary => Aside i stored [] temporary) (fun _ => True) := by
  apply carries_attempt _ _ stable_readLast (fun _ => stable_aside) stable_true
  intro now reply after readLast always taken _
  rcases taken with ⟨_, files, history⟩
  have readAfter : stale i after.history = false → now.files.items = stored := by
    intro fresh
    rw [history, stale, if_pos rfl] at fresh
    exact readLast fresh
  cases reply with
  | error raised => exact ⟨guaranteed_sameFiles always files history rfl, trivial⟩
  | ok temporary =>
      rcases files with ⟨unused, files⟩
      refine ⟨?_, ?_, ?_⟩
      · apply guaranteed_put always ?_ files history rfl
        intro j _ others
        rw [unused]
        simp
      · intro fresh
        rw [files]
        exact readAfter fresh
      · rw [files]
        exact Function.update_self ..

theorem carries_writeTemporary {stored before content : List Text} {temporary : ℕ} :
    Carries (rememberDiscipline tree initial) (Undisturbed tree) i
      (Aside i stored before temporary)
      ((PanelCall.writeTemporary temporary content).attempt id : Request Unit)
      (fun _ => Aside i stored content temporary) (fun _ => True) := by
  apply carries_attempt _ _ stable_aside (fun _ => stable_aside) stable_true
  intro now reply after aside always taken _
  rcases taken with ⟨_, files, history⟩
  have readAfter : stale i after.history = false → now.files.items = stored := by
    intro fresh
    rw [history, stale, if_pos rfl] at fresh
    exact aside.readLast fresh
  have own : ∀ j, j ≠ i → ∀ others, now.files.temporaries temporary ≠ some (j, others) :=
    fun j other others => RegistryFiles.temporaries_ne aside.written other
  cases reply with
  | error raised =>
      rcases files with ⟨_, _, _, _, files⟩
      exact ⟨guaranteed_put always own files history rfl, trivial⟩
  | ok done =>
      rcases files with ⟨creator, others, found, files⟩
      rw [aside.written] at found
      cases found
      refine ⟨guaranteed_put always own files history rfl, ?_, ?_⟩
      · intro fresh
        rw [files]
        exact readAfter fresh
      · rw [files]
        exact Function.update_self ..

/-- The move keeps every folder, because nobody else has moved since the last read. -/
theorem carries_replaceRegistry {stored content : List Text} {temporary : ℕ}
    (keeps : ∀ item ∈ stored, item ∈ content) :
    Carries (rememberDiscipline tree initial) (Undisturbed tree) i
      (Aside i stored content temporary)
      ((PanelCall.replaceRegistry temporary).attempt id : Request Unit)
      (fun _ state => ∀ item ∈ content, item ∈ state.files.items) (fun _ => True) := by
  have stableMoved : Stable (rememberDiscipline tree initial) i
      fun state => ∀ item ∈ content, item ∈ state.files.items :=
    fun before now moved relied item mem => relied.items item (moved item mem)
  apply carries_attempt _ _ stable_aside (fun _ => stableMoved) stable_true
  intro now reply after aside always taken condition
  rcases taken with ⟨_, files, history⟩
  cases reply with
  | error raised => exact ⟨guaranteed_sameFiles always files history rfl, trivial⟩
  | ok done =>
      rcases files with ⟨creator, others, found, files⟩
      rw [aside.written] at found
      cases found
      have fresh : stale i now.history = false := by
        change (!stale i now.history) = true at condition
        simpa using condition
      have before := aside.readLast fresh
      have items : after.files.items = content := by
        rw [files]
        exact RegistryFiles.items_replaced _ content
      have more : ∀ item ∈ now.files.items, item ∈ after.files.items := by
        intro item mem
        rw [items]
        rw [before] at mem
        exact keeps item mem
      refine ⟨⟨fun item mem => more item (always item mem), ?_⟩, fun item mem => items ▸ mem⟩
      intro j other
      refine ⟨more, ?_, ?_, ?_⟩
      · intro which others holds
        rw [files]
        exact RegistryFiles.temporaries_put (RegistryFiles.temporaries_ne aside.written other)
          holds
      · intro freshLater
        rw [history, stale, if_neg (Ne.symm other)] at freshLater
        simp [isMove] at freshLater
      · intro loaded
        rw [history]
        exact hasLoaded_cons loaded

theorem carries_saveRegistry {stored content : List Text}
    (keeps : ∀ item ∈ stored, item ∈ content) :
    Carries (rememberDiscipline tree initial) (Undisturbed tree) i (ReadLast i stored)
      (saveRegistry content)
      (fun saved state => saved = true → ∀ item ∈ content, item ∈ state.files.items)
      (fun _ => True) := by
  have stableSaved : ∀ saved : Bool, Stable (rememberDiscipline tree initial) i
      fun state => saved = true → ∀ item ∈ content, item ∈ state.files.items := by
    intro saved before now holds relied isSaved item mem
    exact relied.items item (holds isSaved item mem)
  apply Carries.catching fun _ => True
  · have makes : Carries (rememberDiscipline tree initial) (Undisturbed tree) i (ReadLast i stored)
        (PanelCall.makeRegistryFolder.attempt id : Request Unit)
        (fun _ state => True ∧ ReadLast i stored state) (fun _ => True) :=
      carries_looking (by trivial) (fun _ => rfl) stable_readLast stable_true untouched_readLast
        (fun _ _ => trivial) fun _ _ _ _ => trivial
    apply makes.bind
    intro _
    apply (carries_createTemporary.weaken (fun _ holds => holds.2) (fun _ _ aside => aside)
      fun _ raised => raised).bind
    intro temporary
    apply carries_writeTemporary.bind
    intro _
    apply (carries_replaceRegistry keeps).bind
    intro _
    apply carries_pure
    · exact stableSaved true
    · exact fun _ moved _ => moved
  · intro error _
    apply carries_pure
    · exact stableSaved false
    · exact fun _ _ isSaved => Bool.noConfusion isSaved
  · exact fun _ _ => trivial

/-- A call that returns True leaves its folder accepted. -/
theorem carries_remember {folder : Text} :
    Carries (rememberDiscipline tree initial) (Undisturbed tree) i (fun _ => True)
      (remember config folder)
      (fun remembered state => remembered = true → ∃ directory,
        tree.normalize folder = .ok directory ∧ Accepts tree config state directory)
      (fun _ => True) := by
  have stableRemembered : ∀ remembered : Bool, Stable (rememberDiscipline tree initial) i
      fun state => remembered = true → ∃ directory,
        tree.normalize folder = .ok directory ∧ Accepts tree config state directory := by
    intro remembered before now holds relied isTrue
    rcases holds isTrue with ⟨directory, leads, default | listed⟩
    · exact ⟨directory, leads, .inl default⟩
    · exact ⟨directory, leads, .inr (listed.mono relied.items)⟩
  apply (carries_normalize stable_true fun _ _ _ _ => trivial).bind
  intro directory state leads
  refine ((?_ : Carries (rememberDiscipline tree initial) (Undisturbed tree) i (fun _ => True) _ _
    _)) state trivial
  apply carries_known.bind
  intro folders
  split
  · next found =>
    apply carries_pure
    · exact stableRemembered true
    · intro now accepts _
      exact ⟨directory, leads.1, accepts.1 directory found⟩
  · apply ((carries_load True).weaken (fun _ holds _ => holds.2)
      (fun _ _ loaded => loaded.readLast trivial) fun _ raised => raised).bind
    intro stored
    refine (carries_saveRegistry ?_).weaken (fun _ holds => holds) ?_ fun _ raised => raised
    · intro item mem
      exact List.mem_append_left _ mem
    · intro saved now moved isSaved
      have mem : directory ∈ now.files.items :=
        moved isSaved directory (List.mem_append_right _ List.mem_cons_self)
      exact ⟨directory, leads.1, .inr ⟨directory, mem, .inl rfl⟩⟩

end Functions

/-- When no thread moves its file over one it has not read, and no second read of a
registry that is there fails, no folder is lost: those from before stay, and the folder of
every call that returned True is the default store or in the registry. -/
theorem remember_keeps_all (tree : Tree) (config : Config) (folder : ι → Text)
    (files : RegistryFiles ι)
    {pool : Pool (registrySystem ι tree.Answers) (Except PythonError Bool)}
    (reaches : Pool.Reaches (Undisturbed tree) (rememberStart tree config folder files) pool) :
    (∀ item ∈ files.items, item ∈ pool.shared.files.items) ∧
      ∀ i, pool.thread i = .done (.ok true) → ∃ directory,
        tree.normalize (folder i) = .ok directory ∧
          (tree.normalize config.snapshotDir = .ok directory ∨
            Listed tree pool.shared.files directory) := by
  have drifts : ∀ before now, (rememberDiscipline tree files.items).always before →
      (registrySystem ι tree.Answers).drift before now →
      (rememberDiscipline tree files.items).Unnoticed before now := by
    intro before now _ drifted
    exact drifted.elim
  have both := Pool.reaches_keeps drifts (fun item mem => mem)
    (fun i => carries_remember (rememberStart tree config folder files).shared trivial) reaches
  refine ⟨both.1, ?_⟩
  intro i ended
  exact (both.2 i).of_done ended rfl

/-! ## Runs -/

/-- A tree without links, below which every path is where it is. -/
def plainTree : Tree where
  expandUser := .ok
  resolve := .ok

theorem plainTree_answers {ι : Type} {i : ι} {files after : RegistryFiles ι} {unused : ℕ}
    {request : PanelCall} {reply : request.Reply}
    (answered : plainFiles i files unused request = some (reply, after)) :
    plainTree.Answers request reply := by
  cases request with
  | expandUser path =>
      cases answered
      rfl
  | resolve path =>
      cases answered
      rfl
  | _ => exact trivial

/-- Two requests that remember two folders, with no registry yet. -/
def twoFolders : Bool → Text
  | false => text "/a"
  | true => text "/b"

def noFiles : RegistryFiles Bool where
  registry := none
  temporaries := fun _ => none

abbrev twoCalls : Pool (registrySystem Bool plainTree.Answers) (Except PythonError Bool) :=
  rememberStart plainTree exampleConfig twoFolders noFiles

/-- One call after the other. -/
theorem remember_keeps_all_twoFolders :
    ∃ pool : Pool (registrySystem Bool plainTree.Answers) (Except PythonError Bool),
      pool.thread false = .done (.ok true) ∧ pool.thread true = .done (.ok true) ∧
        ∀ i, pool.thread i = .done (.ok true) → ∃ directory,
          plainTree.normalize (twoFolders i) = .ok directory ∧
            (plainTree.normalize exampleConfig.snapshotDir = .ok directory ∨
              Listed plainTree pool.shared.files directory) := by
  have scheduled : Pool.schedule (plainAnswer undisturbed)
      (List.replicate 10 false ++ List.replicate 13 true) twoCalls = some _ := rfl
  have allowed : ∀ i state request reply after,
      plainAnswer undisturbed i state request = some (reply, after) →
        (registrySystem Bool plainTree.Answers).step i state request reply after ∧
          Undisturbed plainTree i state request reply := by
    intro i state request reply after answered
    rcases plainAnswer_eq_some answered with ⟨found, history, allowed⟩
    exact ⟨⟨plainTree_answers found, step_of_plainFiles found, history⟩, allowed⟩
  exact ⟨_, rfl, rfl, (remember_keeps_all plainTree exampleConfig twoFolders noFiles
    (Pool.reaches_of_schedule allowed scheduled)).2⟩

/-- The second call has read the registry when the first one moves its file. It then moves
its own over it, and both return True. -/
theorem not_remember_keeps_all : ∃ pool,
    Pool.Reaches (fun _ _ _ _ => True) twoCalls pool ∧
      pool.thread false = .done (.ok true) ∧ pool.thread true = .done (.ok true) ∧
      ¬Listed plainTree pool.shared.files (text "/a") := by
  have scheduled : Pool.schedule (plainAnswer fun _ _ _ _ => true)
      (List.replicate 6 false ++ List.replicate 6 true ++ List.replicate 4 false ++
        List.replicate 4 true) twoCalls = some _ := rfl
  refine ⟨_, Pool.reaches_of_schedule ?_ scheduled, rfl, rfl, ?_⟩
  · intro i state request reply after answered
    rcases plainAnswer_eq_some answered with ⟨found, history, _⟩
    exact ⟨⟨plainTree_answers found, step_of_plainFiles found, history⟩, trivial⟩
  · intro listed
    rcases listed with ⟨item, mem, leads⟩
    change item ∈ [text "/b"] at mem
    rw [List.mem_singleton.mp mem] at leads
    rcases leads with same | same
    · exact absurd same (by decide)
    · cases same

end Ksnap.Panel
