import Ksnap.Foundation.Loop
import Ksnap.Panel.Check
import Ksnap.Panel.Remember

/-!
# The folders that the panel knows

`known` over every content of the registry file. What cannot be read counts as an empty
list, but three things get past that: a file nested deeper than the interpreter allows, a
default store that has no path, and an entry that cannot be expanded or resolved, which
takes all the others with it.
-/

namespace Ksnap.Panel

open Foundation Raising

/-- A file tree that does not change, the bytes of the registry file in it, and how deep the
interpreter lets `json` go. -/
structure FolderStore where
  tree : Tree
  isDir : Text → Except PythonError Bool
  content : Bytes
  depth : ℕ

namespace FolderStore

variable (store : FolderStore)

/-- `open` with UTF-8 and `json.load` -/
def registry : Except PythonError Json :=
  match decodeStrict store.content with
  | some decoded => jsonLoads store.depth (universalNewlines decoded)
  | none => .error .unicodeDecodeError

/-- The answers that the file system gives. -/
def Answers : (request : PanelCall) → request.Reply → Prop
  | .expandUser path, reply => reply = store.tree.expandUser path
  | .resolve path, reply => reply = store.tree.resolve path
  | .isDir path, reply => reply = store.isDir path
  | .loadRegistry, reply => reply = store.registry
  | _, _ => True

/-- The strings of the list in the registry, none where it cannot be read. -/
def entries : List Text :=
  match store.registry with
  | .ok stored => registryItems stored
  | .error _ => []

/-- The folders that usable entries lead to and that exist. -/
def existing (items : List Text) : List Text :=
  (items.filterMap fun item => (store.tree.normalize item).toOption).filter fun folder =>
    store.isDir folder = .ok true

/-- The string leads to a folder which is the default store, or of which can be told whether it
exists. -/
def Usable (default item : Text) : Prop :=
  ∃ folder, store.tree.normalize item = .ok folder ∧
    (folder = default ∨ ∃ present, store.isDir folder = .ok present)

end FolderStore

/-- `known` returns the default store and behind it the existing folders of the usable entries
in their order, each of them once. -/
def KnowsAll (config : Config) (store : FolderStore) : Prop :=
  ∃ default, store.tree.normalize config.snapshotDir = .ok default ∧
    ∀ state outcome final, (known config).run.Exec (answering store.Answers) state outcome final →
      outcome = .ok (default :: store.existing store.entries).eraseDups

/-! ## What known comes to -/

section Outcome

variable (store : FolderStore)

/-- `_load` -/
def loadOutcome : Except PythonError (List Text) :=
  rescue (fun error => error.isOsError || error.isValueError) (fun _ => .ok [])
    (store.registry >>= fun stored => .ok (registryItems stored))

/-- A round of the loop in `known`. -/
def addOutcome (folders : List Text) (item : Text) : Except PythonError (List Text) :=
  store.tree.normalize item >>= fun folder =>
    if folder ∈ folders then .ok folders
    else store.isDir folder >>= fun present =>
      .ok (if present then folders ++ [folder] else folders)

def knownOutcome (config : Config) : Except PythonError (List Text) :=
  store.tree.normalize config.snapshotDir >>= fun default =>
    loadOutcome store >>= fun items => items.foldlM (addOutcome store) [default]

/-- Answers that say the same as the store about its files. -/
structure FolderStore.Follows (answers : (request : PanelCall) → request.Reply → Prop) : Prop where
  expandUser : ∀ path reply, answers (.expandUser path) reply ↔ reply = store.tree.expandUser path
  resolve : ∀ path reply, answers (.resolve path) reply ↔ reply = store.tree.resolve path
  isDir : ∀ path reply, answers (.isDir path) reply ↔ reply = store.isDir path
  loadRegistry : ∀ reply, answers .loadRegistry reply ↔ reply = store.registry

theorem FolderStore.follows : store.Follows store.Answers where
  expandUser := fun _ _ => Iff.rfl
  resolve := fun _ _ => Iff.rfl
  isDir := fun _ _ => Iff.rfl
  loadRegistry := fun _ => Iff.rfl

variable {store} {answers : (request : PanelCall) → request.Reply → Prop}

/-- A call with one answer. -/
theorem yields_answer {α : Type} {request : PanelCall}
    {value : request.Reply → Except PythonError α} (given : request.Reply)
    (only : ∀ reply, answers request reply ↔ reply = given) :
    Yields (answering answers) (request.attempt value) (value given) :=
  yields_call given ((only given).mpr rfl) fun _ answered => congrArg value ((only _).mp answered)

theorem yields_normalize (follows : store.Follows answers) (path : Text) :
    Yields (answering answers) (normalize path) (store.tree.normalize path) := by
  have expands : Yields (answering answers)
      ((PanelCall.expandUser path).attempt id : Request Text) (store.tree.expandUser path) :=
    yields_answer _ (follows.expandUser path)
  have resolves : ∀ expanded, Yields (answering answers)
      ((PanelCall.resolve expanded).attempt id : Request Text) (store.tree.resolve expanded) :=
    fun expanded => yields_answer _ (follows.resolve expanded)
  rw [Tree.normalize_eq_bind]
  exact expands.bind resolves

theorem yields_load (follows : store.Follows answers) :
    Yields (answering answers) load (loadOutcome store) := by
  have reads : Yields (answering answers)
      (PanelCall.loadRegistry.attempt id : Request Json) store.registry :=
    yields_answer _ follows.loadRegistry
  exact (reads.bind fun _ => Yields.of_pure).catching fun _ => Yields.of_pure

theorem yields_addKnown (follows : store.Follows answers) (folders : List Text) (item : Text) :
    Yields (answering answers) (addKnown folders item) (addOutcome store folders item) := by
  apply (yields_normalize follows item).bind
  intro folder
  by_cases present : folder ∈ folders
  · rw [if_pos present, if_pos present]
    exact Yields.of_pure
  · rw [if_neg present, if_neg present]
    have looks : Yields (answering answers)
        ((PanelCall.isDir folder).attempt id : Request Bool) (store.isDir folder) :=
      yields_answer _ (follows.isDir folder)
    exact looks.bind fun _ => Yields.of_pure

theorem yields_known (follows : store.Follows answers) (config : Config) :
    Yields (answering answers) (known config) (knownOutcome store config) :=
  (yields_normalize follows _).bind fun _ => (yields_load follows).bind fun _ =>
    yields_foldlM (yields_addKnown follows)

end Outcome

/-! ## The loop -/

section Loop

variable {store : FolderStore}

/-- The folders are the default store and others that exist. -/
def Existing (store : FolderStore) (default : Text) (folders : List Text) : Prop :=
  ∀ folder ∈ folders, folder = default ∨ store.isDir folder = .ok true

/-- A round that ends well has found a usable item. -/
theorem usable_of_added {default item : Text} {folders after : List Text}
    (existing : Existing store default folders)
    (added : addOutcome store folders item = .ok after) :
    store.Usable default item ∧ Existing store default after := by
  rcases ok_of_bind added with ⟨folder, normalized, rest⟩
  split at rest
  · rename_i mem
    cases rest
    exact ⟨⟨folder, normalized, (existing folder mem).imp_right fun there => ⟨true, there⟩⟩,
      existing⟩
  · rcases ok_of_bind rest with ⟨present, looked, rest⟩
    refine ⟨⟨folder, normalized, .inr ⟨present, looked⟩⟩, ?_⟩
    cases present with
    | false =>
        cases rest
        exact existing
    | true =>
        cases rest
        intro other mem
        rcases List.mem_append.mp mem with earlier | last
        · exact existing other earlier
        · rw [List.mem_singleton.mp last]
          exact .inr looked

/-- A loop that ends well has found every item usable. -/
theorem usable_of_foldlM {default : Text} {items folders result : List Text}
    (existing : Existing store default folders)
    (loop : items.foldlM (addOutcome store) folders = .ok result) :
    ∀ item ∈ items, store.Usable default item := by
  induction items generalizing folders with
  | nil => simp
  | cons item items ih =>
      rw [List.foldlM_cons] at loop
      rcases ok_of_bind loop with ⟨after, added, rest⟩
      rcases usable_of_added existing added with ⟨usable, stillExisting⟩
      intro other mem
      rcases List.mem_cons.mp mem with rfl | later
      · exact usable
      · exact ih stillExisting rest other later

/-- One more folder is gathered unless it is there already. -/
theorem eraseDups_concat (folders : List Text) (folder : Text) :
    (folders ++ [folder]).eraseDups =
      if folder ∈ folders.eraseDups then folders.eraseDups else folders.eraseDups ++ [folder] := by
  have single : [folder].eraseDups = [folder] := by simp [List.eraseDups_cons]
  rw [List.eraseDups_append]
  by_cases mem : folder ∈ folders
  · rw [if_pos (List.mem_eraseDups.mpr mem)]
    simp [List.removeAll, mem]
  · rw [if_neg (List.mem_eraseDups.not.mpr mem)]
    simp [List.removeAll, mem, single]

/-- A usable item adds its folder where that exists, unless it is there already. -/
theorem addOutcome_of_normalized {item folder : Text} (folders : List Text)
    (normalized : store.tree.normalize item = .ok folder)
    (looks : folder ∈ folders ∨ ∃ present, store.isDir folder = .ok present) :
    addOutcome store folders.eraseDups item =
      .ok (if store.isDir folder = .ok true then folders ++ [folder] else folders).eraseDups := by
  simp only [addOutcome, normalized, bind, Except.bind, List.mem_eraseDups]
  by_cases mem : folder ∈ folders
  · rw [if_pos mem]
    split
    · rw [eraseDups_concat, if_pos (List.mem_eraseDups.mpr mem)]
    · rfl
  · rcases looks.resolve_left mem with ⟨present, looked⟩
    rw [if_neg mem, looked]
    cases present with
    | false => rfl
    | true =>
        dsimp only
        rw [if_pos rfl, if_pos rfl, eraseDups_concat, if_neg (List.mem_eraseDups.not.mpr mem)]

/-- Where every item is usable, the loop gathers what exists behind what it has. -/
theorem foldlM_of_usable {default : Text} {items : List Text} (folders : List Text)
    (hasDefault : default ∈ folders) (each : ∀ item ∈ items, store.Usable default item) :
    items.foldlM (addOutcome store) folders.eraseDups =
      .ok (folders ++ store.existing items).eraseDups := by
  induction items generalizing folders with
  | nil => simp [FolderStore.existing, pure, Except.pure]
  | cons item items ih =>
      rcases each item List.mem_cons_self with ⟨folder, normalized, looks⟩
      have found : folder ∈ folders ∨ ∃ present, store.isDir folder = .ok present := by
        rcases looks with rfl | looked
        · exact .inl hasDefault
        · exact .inr looked
      have more : folders ++ store.existing (item :: items) =
          (if store.isDir folder = .ok true then folders ++ [folder] else folders) ++
            store.existing items := by
        by_cases present : store.isDir folder = .ok true
        · simp [FolderStore.existing, normalized, Except.toOption, present]
        · simp [FolderStore.existing, normalized, Except.toOption, present]
      rw [List.foldlM_cons, addOutcome_of_normalized folders normalized found, more]
      refine ih _ ?_ fun other mem => each other (List.mem_cons_of_mem _ mem)
      split
      · exact List.mem_append_left _ hasDefault
      · exact hasDefault

end Loop

/-! ## Exactly when -/

/-- Only a file that is nested too deep gets past the handler of `_load`. -/
theorem loadOutcome_cases (store : FolderStore) :
    (store.registry = .error .recursionError ∧ loadOutcome store = .error .recursionError) ∨
      (store.registry ≠ .error .recursionError ∧ loadOutcome store = .ok store.entries) := by
  rw [loadOutcome, FolderStore.entries]
  cases read : store.registry with
  | ok stored => exact .inr ⟨nofun, rfl⟩
  | error raised =>
      have kinds : raised = .unicodeDecodeError ∨ raised = .valueError [] ∨
          raised = .recursionError := by
        rw [FolderStore.registry] at read
        split at read
        · rw [jsonLoads] at read
          split at read
          · cases read
          · cases read
            exact .inr (.inr rfl)
          · cases read
            exact .inr (.inl rfl)
        · cases read
          exact .inl rfl
      rcases kinds with rfl | rfl | rfl
      · exact .inr ⟨nofun, rfl⟩
      · exact .inr ⟨nofun, rfl⟩
      · exact .inl ⟨rfl, rfl⟩

theorem knownOutcome_ok_iff {config : Config} {store : FolderStore} {default : Text}
    (normalized : store.tree.normalize config.snapshotDir = .ok default) :
    knownOutcome store config = .ok (default :: store.existing store.entries).eraseDups ↔
      store.registry ≠ .error .recursionError ∧
        ∀ item ∈ store.entries, store.Usable default item := by
  simp only [knownOutcome, normalized, bind, Except.bind]
  rcases loadOutcome_cases store with ⟨deep, loaded⟩ | ⟨readable, loaded⟩
  · simp [loaded, deep]
  · simp only [loaded]
    constructor
    · have existing : Existing store default [default] :=
        fun _ mem => .inl (List.mem_singleton.mp mem)
      exact fun loop => ⟨readable, usable_of_foldlM existing loop⟩
    · intro usable
      exact foldlM_of_usable [default] List.mem_cons_self usable.2

theorem usable_of_knowsAll {config : Config} {store : FolderStore}
    (knows : KnowsAll config store) :
    ∃ default, store.tree.normalize config.snapshotDir = .ok default ∧
      store.registry ≠ .error .recursionError ∧
        ∀ item ∈ store.entries, store.Usable default item := by
  rcases knows with ⟨default, normalized, lists⟩
  rcases (yields_known store.follows config).completes [] with ⟨final, ran⟩
  exact ⟨default, normalized, (knownOutcome_ok_iff normalized).mp (lists [] _ final ran)⟩

/-- `known` lists every usable folder exactly if the default store has a path, the file is not
nested too deep, and every string in its list has a path of which can be told whether a folder
is there. -/
theorem knowsAll_iff (config : Config) (store : FolderStore) :
    KnowsAll config store ↔
      ∃ default, store.tree.normalize config.snapshotDir = .ok default ∧
        store.registry ≠ .error .recursionError ∧
          ∀ item ∈ store.entries, store.Usable default item := by
  constructor
  · exact usable_of_knowsAll
  · rintro ⟨default, normalized, usable⟩
    refine ⟨default, normalized, fun state outcome final ran => ?_⟩
    rw [← (knownOutcome_ok_iff normalized).mpr usable]
    exact (yields_known store.follows config).only state outcome final ran

/-- A tree in which one user is not known, and a registry that names that user's home. -/
def noSuchUser : FolderStore where
  tree := {
    expandUser := fun path =>
      if path = text "~nouser" then
        .error (.runtimeError (text "Could not determine home directory."))
      else .ok path
    resolve := .ok }
  isDir := fun _ => .ok true
  content := utf8 (text "[\"/dumps\", \"~nouser\"]")
  depth := 900

/-- The entry of a user without a home directory takes the usable entry with it. -/
theorem not_knowsAll :
    ¬ ∀ config store, (∃ default, store.tree.normalize config.snapshotDir = .ok default) →
      KnowsAll config store := by
  intro claimed
  have knows := claimed exampleConfig noSuchUser ⟨_, rfl⟩
  have entries : noSuchUser.entries = [text "/dumps", text "~nouser"] := by decide +kernel
  rcases usable_of_knowsAll knows with ⟨default, _, _, usable⟩
  rcases usable (text "~nouser") (by simp [entries]) with ⟨folder, normalized, _⟩
  cases normalized

end Ksnap.Panel
