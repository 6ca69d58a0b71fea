import Ksnap.Engine.DumpFormat
import Ksnap.Panel.Calls

/-!
# The folders of the panel

`directories.py`: the folder a dump may go to, and the registry of the folders that
dumps went to, which restore and delete have to stay in.
-/

namespace Ksnap.Panel

open Foundation Raising

/-- `MAX_LENGTH` -/
def maxLength : ℕ := pathMax - nameMax - 2

/-- `_normalize` -/
def normalize (path : Text) : Request Text := do
  let expanded ← (PanelCall.expandUser path).attempt id
  (PanelCall.resolve expanded).attempt id

/-- `is_absolute` -/
def isAbsolute (path : Text) : Bool :=
  path.head? = some 47

/-- The exception for a folder that is no path. -/
def folderNotPath : PythonError := .valueError (text "folder must be a path")

/-- `validate` of a folder that was given as a string. -/
def validateFolder (given : Text) : Request Text := do
  require (strip given ≠ []) folderNotPath
  let path := strip given
  require (0 ∉ path) (.valueError (text "folder contains a NUL character"))
  let expanded ← (PanelCall.expandUser path).attempt id
  require (isAbsolute expanded) (.valueError (text "folder must be an absolute path"))
  let directory ← normalize path
  require (directory.length ≤ maxLength)
    (.valueError (text "folder path is longer than " ++ decimal maxLength ++ text " characters"))
  catching ((PanelCall.makeDirs directory).attempt id) PythonError.isOsError fun error =>
    throw (.valueError (text "cannot create " ++ directory ++ text ": " ++ error.reason))
  let present ← (PanelCall.isDir directory).attempt id
  require present (.valueError (directory ++ text " is not a folder"))
  return directory

/-- `validate` -/
def validate : Json → Request Text
  | .string given => validateFolder given
  | _ => throw folderNotPath

/-- The folders that a registry holds. -/
def registryItems : Json → List Text
  | .list items => Json.strings items
  | _ => []

/-- `_load`: a registry that cannot be read counts as empty. -/
def load : Request (List Text) :=
  catching
    (do
      let stored ← PanelCall.loadRegistry.attempt id
      return registryItems stored)
    (fun error => error.isOsError || error.isValueError)
    fun _ => return []

/-- One round of the loop in `known`. -/
def addKnown (folders : List Text) (item : Text) : Request (List Text) := do
  let folder ← normalize item
  if folder ∈ folders then return folders
  else
    let present ← (PanelCall.isDir folder).attempt id
    return if present then folders ++ [folder] else folders

/-- `known` -/
def known (config : Config) : Request (List Text) := do
  let default ← normalize config.snapshotDir
  let items ← load
  items.foldlM addKnown [default]

/-- The end of `remember`: the registry is written aside and moved over. -/
def saveRegistry (stored : List Text) : Request Bool :=
  catching
    (do
      PanelCall.makeRegistryFolder.attempt id
      let temporary ← PanelCall.createTemporary.attempt id
      (PanelCall.writeTemporary temporary stored).attempt id
      (PanelCall.replaceRegistry temporary).attempt id
      return true)
    PythonError.isOsError
    fun _ => return false

/-- `remember` -/
def remember (config : Config) (directory : Text) : Request Bool := do
  let directory ← normalize directory
  let folders ← known config
  if directory ∈ folders then return true
  else
    let stored ← load
    saveRegistry (stored ++ [directory])

/-- `require_known` of a folder that was given as a string. -/
def requireKnownFolder (config : Config) (path : Text) : Request Text := do
  require (0 ∉ path) folderNotPath
  let directory ← normalize path
  let folders ← known config
  require (directory ∈ folders)
    (.valueError (directory ++ text " is not a snapshot folder of this panel"))
  return directory

/-- `require_known` -/
def requireKnown (config : Config) : Json → Request Text
  | .null => normalize config.snapshotDir
  | .string [] => normalize config.snapshotDir
  | .string path => requireKnownFolder config path
  | _ => throw folderNotPath

end Ksnap.Panel
