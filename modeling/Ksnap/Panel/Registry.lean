import Ksnap.Panel.Directories

/-!
# The registry under concurrent requests

The registry is one file that several requests read and replace. Here is what the calls
on it do, with the record of all calls of the run. Everything else of the file system is
left open: a system fixes which answers its path lookups may give.
-/

namespace Ksnap.Panel

open Foundation

/-- The registry, if there is one that can be read, and the files written beside it, each
with the thread that created it. -/
structure RegistryFiles (ι : Type) where
  registry : Option Json
  temporaries : ℕ → Option (ι × List Text)

namespace RegistryFiles

variable {ι : Type}

/-- The folders in the registry. -/
def items (files : RegistryFiles ι) : List Text :=
  match files.registry with
  | some stored => registryItems stored
  | none => []

/-- Put a temporary file in place, or take one away. -/
def put (files : RegistryFiles ι) (temporary : ℕ) (content : Option (ι × List Text)) :
    RegistryFiles ι :=
  { files with temporaries := Function.update files.temporaries temporary content }

/-- A temporary file that is put in place, or taken away, is the only one that changes. -/
theorem temporaries_put {files : RegistryFiles ι} {temporary which : ℕ}
    {content held : Option (ι × List Text)} (other : files.temporaries temporary ≠ held)
    (found : files.temporaries which = held) :
    (files.put temporary content).temporaries which = held := by
  have different : which ≠ temporary := by
    rintro rfl
    exact other found
  exact (Function.update_of_ne different _ _).trans found

/-- What a thread created is no other's. -/
theorem temporaries_ne {files : RegistryFiles ι} {temporary : ℕ} {i j : ι}
    {content others : List Text} (own : files.temporaries temporary = some (i, content))
    (different : j ≠ i) : files.temporaries temporary ≠ some (j, others) := by
  intro held
  rw [own] at held
  cases held
  exact different rfl

/-- What a call of a thread does to the files. A load fails for reasons of its own, a
failed write may leave anything in the temporary file, and a move is all or nothing. -/
def Step (i : ι) (files : RegistryFiles ι) :
    (request : PanelCall) → request.Reply → RegistryFiles ι → Prop
  | .loadRegistry, .ok stored, after => files.registry = some stored ∧ after = files
  | .createTemporary, .ok temporary, after =>
      files.temporaries temporary = none ∧ after = files.put temporary (some (i, []))
  | .writeTemporary temporary stored, .ok _, after =>
      ∃ creator content, files.temporaries temporary = some (creator, content) ∧
        after = files.put temporary (some (creator, stored))
  | .writeTemporary temporary _, .error _, after =>
      ∃ creator content left, files.temporaries temporary = some (creator, content) ∧
        after = files.put temporary (some (creator, left))
  | .replaceRegistry temporary, .ok _, after =>
      ∃ creator content, files.temporaries temporary = some (creator, content) ∧
        after = { files.put temporary none with registry := some (Json.ofStrings content) }
  | _, _, after => after = files

end RegistryFiles

/-- The files and the calls made so far, the last one first. -/
structure RegistryState (ι : Type) where
  files : RegistryFiles ι
  history : List (ι × Event PanelInterface)

/-- The threads that share a registry, under the given answers of the file system. -/
abbrev registrySystem (ι : Type) (answers : (request : PanelCall) → request.Reply → Prop) :
    System PanelInterface ι where
  State := RegistryState ι
  step := fun i state request reply after =>
    answers request reply ∧ state.files.Step i request reply after.files ∧
      after.history = (i, ⟨request, reply⟩) :: state.history
  drift := fun _ _ => False

/-- The calls of these functions that leave the files as they are. -/
def OnlyLooks : PanelCall → Prop
  | .createTemporary => False
  | .writeTemporary _ _ => False
  | .replaceRegistry _ => False
  | _ => True

theorem RegistryFiles.Step.eq_of_onlyLooks {ι : Type} {i : ι} {files after : RegistryFiles ι}
    {request : PanelCall} {reply : request.Reply} (looks : OnlyLooks request)
    (taken : files.Step i request reply after) : after = files := by
  cases request with
  | createTemporary => exact looks.elim
  | writeTemporary temporary stored => exact looks.elim
  | replaceRegistry temporary => exact looks.elim
  | loadRegistry =>
      cases reply with
      | ok stored => exact taken.2
      | error raised => exact taken
  | _ => exact taken

theorem RegistryFiles.items_replaced {ι : Type} (files : RegistryFiles ι) (stored : List Text) :
    { files with registry := some (Json.ofStrings stored) }.items = stored := by
  simp [RegistryFiles.items, registryItems, Json.ofStrings]

/-! ## Runs on fixed inputs -/

/-- The files when nothing fails and no path is a link. -/
def plainFiles {ι : Type} (i : ι) (files : RegistryFiles ι) (unused : ℕ) :
    (request : PanelCall) → Option (request.Reply × RegistryFiles ι)
  | .expandUser path => some (.ok path, files)
  | .resolve path => some (.ok path, files)
  | .makeDirs _ => some (.ok (), files)
  | .isDir _ => some (.ok true, files)
  | .isFile _ => some (.ok true, files)
  | .isExecutable _ => some (true, files)
  | .loadRegistry =>
      match files.registry with
      | some stored => some (.ok stored, files)
      | none => some (.error (.osError .fileNotFound []), files)
  | .makeRegistryFolder => some (.ok (), files)
  | .createTemporary =>
      match files.temporaries unused with
      | none => some (.ok unused, files.put unused (some (i, [])))
      | some _ => none
  | .writeTemporary temporary stored =>
      match files.temporaries temporary with
      | some (creator, _) => some (.ok (), files.put temporary (some (creator, stored)))
      | none => none
  | .replaceRegistry temporary =>
      match files.temporaries temporary with
      | some (_, content) =>
          some (.ok (),
            { files.put temporary none with registry := some (Json.ofStrings content) })
      | none => none
  | .run _ => some (.ok ⟨0, [], []⟩, files)
  | .log _ _ _ => some ((), files)
  | _ => none

theorem step_of_plainFiles {ι : Type} {i : ι} {files after : RegistryFiles ι} {unused : ℕ}
    {request : PanelCall} {reply : request.Reply}
    (answered : plainFiles i files unused request = some (reply, after)) :
    files.Step i request reply after := by
  cases request with
  | loadRegistry =>
      simp only [plainFiles] at answered
      split at answered
      · next stored found =>
          cases answered
          exact ⟨found, rfl⟩
      · cases answered
        rfl
  | createTemporary =>
      simp only [plainFiles] at answered
      split at answered
      · next free =>
          cases answered
          exact ⟨free, rfl⟩
      · cases answered
  | writeTemporary temporary stored =>
      simp only [plainFiles] at answered
      split at answered
      · next creator content found =>
          cases answered
          exact ⟨creator, content, found, rfl⟩
      · cases answered
  | replaceRegistry temporary =>
      simp only [plainFiles] at answered
      split at answered
      · next creator content found =>
          cases answered
          exact ⟨creator, content, found, rfl⟩
      · cases answered
  | _ => cases answered <;> rfl

/-- The calls that may be answered are answered as `plainFiles` says, and recorded. -/
def plainAnswer {ι : Type}
    (allowed : ι → RegistryState ι → (request : PanelCall) → request.Reply → Bool) (i : ι)
    (state : RegistryState ι) (request : PanelCall) :
    Option (request.Reply × RegistryState ι) :=
  match plainFiles i state.files state.history.length request with
  | some (reply, files) =>
      if allowed i state request reply then
        some (reply, { files := files, history := (i, ⟨request, reply⟩) :: state.history })
      else none
  | none => none

theorem plainAnswer_eq_some {ι : Type}
    {allowed : ι → RegistryState ι → (request : PanelCall) → request.Reply → Bool} {i : ι}
    {state after : RegistryState ι} {request : PanelCall} {reply : request.Reply}
    (answered : plainAnswer allowed i state request = some (reply, after)) :
    plainFiles i state.files state.history.length request = some (reply, after.files) ∧
      after.history = (i, ⟨request, reply⟩) :: state.history ∧
      allowed i state request reply = true := by
  rw [plainAnswer] at answered
  split at answered
  · next given files found =>
      split at answered
      · next isAllowed =>
          cases answered
          exact ⟨found, rfl, isAllowed⟩
      · cases answered
  · cases answered

end Ksnap.Panel
