import Mathlib.Logic.Function.Basic
import Mathlib.Data.List.Basic

/-!
# Creating folders

A tree of folders and files, in which a path has its names from the innermost on. `mkdir` is
the system's call, and `makeDirs` is `Path.mkdir` with `parents` and `exist_ok`, which goes up
until there is a folder and then creates the missing ones on its way down. It may fail half
way, and it leaves what it has created. So what decides whether it leaves anything is the
outermost folder that is missing.
-/

namespace Foundation

inductive FileKind : Type where
  | folder
  | file
  deriving DecidableEq

/-- What there is at a path, below the root. -/
abbrev FileTree (ν : Type) : Type := List ν → Option FileKind

/-- Why a folder is not created. -/
inductive MakeError (ε : Type) : Type where
  | fileExists
  | fileNotFound
  | notADirectory
  | nameTooLong
  | refused (failure : ε)

/-- What the system has against a path, apart from what is in the tree: it is too long, its
last name cannot be looked up in its folder, or nothing may be created there. A refusal may
look as if the parent was missing. -/
structure FolderRules (ν ε : Type) where
  tooLong : List ν → Bool
  hides : List ν → Option ε
  refuses : List ν → Option ε
  isFileNotFound : ε → Bool
  longer : ∀ name parent, tooLong parent = true → tooLong (name :: parent) = true

variable {ν ε : Type}

theorem FolderRules.short_parent {rules : FolderRules ν ε} {name : ν} {parent : List ν}
    (short : rules.tooLong (name :: parent) = false) : rules.tooLong parent = false := by
  by_contra long
  rw [rules.longer name parent (by simpa using long)] at short
  cases short

def MakeError.isFileNotFound (rules : FolderRules ν ε) : MakeError ε → Bool
  | .fileNotFound => true
  | .refused failure => rules.isFileNotFound failure
  | _ => false

/-- What the way to a path comes to. A path is missing where its parent is not there, blocked
where something on the way is no folder, and hidden where a name on the way is. -/
inductive Place (ε : Type) : Type where
  | folder
  | file
  | free
  | missing
  | blocked
  | hidden (failure : ε)

def Place.isFolder : Place ε → Bool
  | .folder => true
  | _ => false

namespace FileTree

variable {rules : FolderRules ν ε} {tree : FileTree ν}

def place (rules : FolderRules ν ε) (tree : FileTree ν) : List ν → Place ε
  | [] => .folder
  | name :: parent =>
      match tree.place rules parent with
      | .folder =>
          match rules.hides (name :: parent), tree (name :: parent) with
          | some failure, _ => .hidden failure
          | none, some .folder => .folder
          | none, some .file => .file
          | none, none => .free
      | .free => .missing
      | .missing => .missing
      | .file => .blocked
      | .blocked => .blocked
      | .hidden failure => .hidden failure

/-- The outermost folder on the way to a path that is missing, with nothing in its way. -/
def firstMissing (rules : FolderRules ν ε) (tree : FileTree ν) : List ν → Option (List ν)
  | [] => none
  | name :: parent =>
      match tree.place rules (name :: parent) with
      | .free => some (name :: parent)
      | .missing => tree.firstMissing rules parent
      | _ => none

theorem place_of_free {name : ν} {parent : List ν}
    (free : tree.place rules (name :: parent) = .free) :
    tree.place rules parent = .folder ∧ tree (name :: parent) = none := by
  rw [FileTree.place] at free
  split at free
  · next isFolder =>
      split at free
      · cases free
      · cases free
      · cases free
      · next none => exact ⟨isFolder, none⟩
  · cases free
  · cases free
  · cases free
  · cases free
  · cases free

theorem firstMissing_of_folder {path : List ν} (folder : tree.place rules path = .folder) :
    tree.firstMissing rules path = none := by
  cases path with
  | nil => rfl
  | cons name parent => rw [FileTree.firstMissing, folder]

theorem firstMissing_of_hidden {name : ν} {parent : List ν} {failure : ε}
    (hidden : tree.place rules (name :: parent) = .hidden failure) :
    tree.firstMissing rules parent = none := by
  cases above : tree.place rules parent with
  | folder => exact firstMissing_of_folder above
  | hidden failure =>
      cases parent with
      | nil => rfl
      | cons name parent => rw [FileTree.firstMissing, above]
  | _ =>
      rw [FileTree.place, above] at hidden
      cases hidden

theorem eq_none_of_firstMissing {path top : List ν}
    (first : tree.firstMissing rules path = some top) : tree top = none := by
  induction path with
  | nil => cases first
  | cons name parent ih =>
      rw [FileTree.firstMissing] at first
      split at first
      · next free =>
          cases first
          exact (place_of_free free).2
      · exact ih first
      · cases first

variable [DecidableEq ν]

def create (tree : FileTree ν) (path : List ν) : FileTree ν :=
  Function.update tree path (some .folder)

end FileTree

variable [DecidableEq ν]

/-- `os.mkdir` -/
def mkdir (rules : FolderRules ν ε) (tree : FileTree ν) (path : List ν) :
    Except (MakeError ε) (FileTree ν) :=
  if rules.tooLong path then .error .nameTooLong
  else
    match tree.place rules path with
    | .folder => .error .fileExists
    | .file => .error .fileExists
    | .missing => .error .fileNotFound
    | .blocked => .error .notADirectory
    | .hidden failure => .error (.refused failure)
    | .free =>
        match rules.refuses path with
        | some failure => .error (.refused failure)
        | none => .ok (tree.create path)

/-- `self.is_dir()` after a call that failed, which fails again for what is too long. -/
def isThere (rules : FolderRules ν ε) (tree : FileTree ν) (path : List ν) : Bool :=
  !rules.tooLong path && (tree.place rules path).isFolder

/-- `Path.mkdir(exist_ok=True)` -/
def makeDir (rules : FolderRules ν ε) (tree : FileTree ν) (path : List ν) :
    FileTree ν × Option (MakeError ε) :=
  match mkdir rules tree path with
  | .ok after => (after, none)
  | .error failure =>
      if !failure.isFileNotFound rules && isThere rules tree path then (tree, none)
      else (tree, some failure)

/-- `Path.mkdir(parents=True, exist_ok=True)` -/
def makeDirs (rules : FolderRules ν ε) (tree : FileTree ν) :
    List ν → FileTree ν × Option (MakeError ε)
  | [] => makeDir rules tree []
  | name :: parent =>
      match mkdir rules tree (name :: parent) with
      | .ok after => (after, none)
      | .error failure =>
          if failure.isFileNotFound rules then
            match makeDirs rules tree parent with
            | (after, none) => makeDir rules after (name :: parent)
            | (after, some failure) => (after, some failure)
          else if isThere rules tree (name :: parent) then (tree, none)
          else (tree, some failure)

/-- The outermost missing folder can be created. -/
def CanMake (rules : FolderRules ν ε) (tree : FileTree ν) (path : List ν) : Prop :=
  rules.tooLong path = false ∧
    ∃ top, tree.firstMissing rules path = some top ∧ rules.refuses top = none

section

variable {rules : FolderRules ν ε} {tree : FileTree ν}

theorem makeDir_of_error {path : List ν} {failure : MakeError ε}
    (fails : mkdir rules tree path = .error failure) : (makeDir rules tree path).1 = tree := by
  rw [makeDir, fails]
  dsimp only
  split <;> rfl

theorem eq_create_of_mkdir {path : List ν} {after : FileTree ν}
    (made : mkdir rules tree path = .ok after) : after = tree.create path := by
  by_cases long : rules.tooLong path = true
  · rw [mkdir, if_pos long] at made
    cases made
  · rw [mkdir, if_neg long] at made
    cases place : tree.place rules path with
    | free =>
        rw [place] at made
        cases refusal : rules.refuses path with
        | none =>
            rw [refusal] at made
            exact (Except.ok.inj made).symm
        | some failure =>
            rw [refusal] at made
            cases made
    | _ =>
        rw [place] at made
        cases made

/-- No folder is lost. -/
theorem makeDir_keeps {path other : List ν} (folder : tree other = some .folder) :
    (makeDir rules tree path).1 other = some .folder := by
  cases made : mkdir rules tree path with
  | error failure =>
      rw [makeDir_of_error made]
      exact folder
  | ok after =>
      rw [makeDir, made, eq_create_of_mkdir made]
      by_cases same : other = path
      · rw [same]
        exact Function.update_self _ _ _
      · exact (Function.update_of_ne same _ _).trans folder

/-- Where the parent looks missing, it is created first. -/
theorem makeDirs_of_notFound {name : ν} {parent : List ν} {failure : MakeError ε}
    (fails : mkdir rules tree (name :: parent) = .error failure)
    (looks : failure.isFileNotFound rules = true) :
    makeDirs rules tree (name :: parent) =
      match makeDirs rules tree parent with
      | (after, none) => makeDir rules after (name :: parent)
      | (after, some failure) => (after, some failure) := by
  rw [makeDirs, fails]
  dsimp only
  rw [if_pos looks]

/-- What is there already is left alone. -/
theorem makeDirs_of_folder {path : List ν} (short : rules.tooLong path = false)
    (folder : tree.place rules path = .folder) : makeDirs rules tree path = (tree, none) := by
  have taken : mkdir rules tree path = .error .fileExists := by
    rw [mkdir, short, folder]
    rfl
  have present : isThere rules tree path = true := by
    rw [isThere, short, folder]
    rfl
  cases path with
  | nil =>
      rw [makeDirs, makeDir, taken]
      simp [present, MakeError.isFileNotFound]
  | cons name parent =>
      rw [makeDirs, taken]
      simp [present, MakeError.isFileNotFound]

/-- The outermost missing folder is there in the end. -/
theorem makeDirs_creates {path top : List ν} (short : rules.tooLong path = false)
    (first : tree.firstMissing rules path = some top) (allowed : rules.refuses top = none) :
    (makeDirs rules tree path).1 top = some .folder := by
  induction path with
  | nil => cases first
  | cons name parent ih =>
      rw [FileTree.firstMissing] at first
      split at first
      · next free =>
          cases first
          have taken : mkdir rules tree (name :: parent) = .ok (tree.create (name :: parent)) := by
            rw [mkdir, short, free, allowed]
            rfl
          rw [makeDirs, taken]
          exact Function.update_self _ _ _
      · next missing =>
          have taken : mkdir rules tree (name :: parent) = .error .fileNotFound := by
            rw [mkdir, short, missing]
            rfl
          have above := ih (rules.short_parent short) first
          rw [makeDirs_of_notFound taken rfl]
          split
          · next after same =>
              rw [same] at above
              exact makeDir_keeps above
          · next after failure same =>
              rw [same] at above
              exact above
      · cases first

/-- A call that fails, and not because of the parent, ends it. -/
theorem makeDirs_of_error {path : List ν} {failure : MakeError ε}
    (fails : mkdir rules tree path = .error failure)
    (other : failure.isFileNotFound rules = false) :
    (makeDirs rules tree path).1 = tree := by
  cases path with
  | nil => exact makeDir_of_error fails
  | cons name parent =>
      rw [makeDirs, fails]
      dsimp only
      rw [other]
      split
      · next impossible => cases impossible
      · split <;> rfl

/-- If nothing is created above, a call that is repeated fails again. -/
theorem makeDirs_of_parent {name : ν} {parent : List ν} {failure : MakeError ε}
    (fails : mkdir rules tree (name :: parent) = .error failure)
    (above : (makeDirs rules tree parent).1 = tree) :
    (makeDirs rules tree (name :: parent)).1 = tree := by
  cases looks : failure.isFileNotFound rules with
  | false => exact makeDirs_of_error fails looks
  | true =>
      rw [makeDirs_of_notFound fails looks]
      split
      · next after same =>
          rw [same] at above
          cases above
          exact makeDir_of_error fails
      · next after failure same =>
          rw [same] at above
          exact above

theorem makeDirs_same {path : List ν} (cannot : ¬ CanMake rules tree path) :
    (makeDirs rules tree path).1 = tree := by
  induction path with
  | nil =>
      by_cases long : rules.tooLong [] = true
      · exact makeDirs_of_error (by rw [mkdir, if_pos long]) rfl
      · rw [makeDirs_of_folder (Bool.eq_false_iff.mpr long) rfl]
  | cons name parent ih =>
      by_cases long : rules.tooLong (name :: parent) = true
      · exact makeDirs_of_error (by rw [mkdir, if_pos long]) rfl
      have short := Bool.eq_false_iff.mpr long
      cases place : tree.place rules (name :: parent) with
      | folder => rw [makeDirs_of_folder short place]
      | file => exact makeDirs_of_error (by rw [mkdir, if_neg long, place]) rfl
      | blocked => exact makeDirs_of_error (by rw [mkdir, if_neg long, place]) rfl
      | missing =>
          have taken : mkdir rules tree (name :: parent) = .error .fileNotFound := by
            rw [mkdir, if_neg long, place]
          have above : (makeDirs rules tree parent).1 = tree := by
            apply ih
            rintro ⟨-, top, first, allowed⟩
            refine cannot ⟨short, top, ?_, allowed⟩
            rw [FileTree.firstMissing, place]
            exact first
          exact makeDirs_of_parent taken above
      | hidden failure =>
          have taken : mkdir rules tree (name :: parent) = .error (.refused failure) := by
            rw [mkdir, if_neg long, place]
          apply makeDirs_of_parent taken
          apply ih
          rintro ⟨-, top, first, -⟩
          rw [FileTree.firstMissing_of_hidden place] at first
          cases first
      | free =>
          cases refusal : rules.refuses (name :: parent) with
          | none =>
              refine absurd ⟨short, name :: parent, ?_, refusal⟩ cannot
              rw [FileTree.firstMissing, place]
          | some failure =>
              have taken : mkdir rules tree (name :: parent) = .error (.refused failure) := by
                rw [mkdir, if_neg long, place, refusal]
              apply makeDirs_of_parent taken
              rw [makeDirs_of_folder (rules.short_parent short) (FileTree.place_of_free place).1]

/-- The tree changes exactly if the outermost missing folder can be created. -/
theorem makeDirs_eq_iff (path : List ν) :
    (makeDirs rules tree path).1 = tree ↔ ¬ CanMake rules tree path := by
  constructor
  · rintro same ⟨short, top, first, allowed⟩
    have created := makeDirs_creates short first allowed
    rw [same, FileTree.eq_none_of_firstMissing first] at created
    cases created
  · exact makeDirs_same

end

end Foundation
