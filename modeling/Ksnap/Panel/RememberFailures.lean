import Ksnap.Panel.Remember

/-!
# Remembering folders when files fail

One call of `remember`, in which every operation on a file goes well or raises `OSError`. The
registry is read twice and then written as a whole. A first read that fails costs nothing,
and neither does a failed write. A second read that fails looks like an empty registry, and
the folders that were in it are replaced by the new one.
-/

namespace Ksnap.Panel

open Foundation Raising Program

/-- Paths lead where they lead, or their lookup raises `OSError`, and so may all the other
operations. -/
def Tree.MayAnswer (tree : Tree) : (request : PanelCall) → request.Reply → Prop
  | .expandUser path, reply =>
      reply = tree.expandUser path ∨ ∃ raised, raised.isOsError = true ∧ reply = .error raised
  | .resolve path, reply =>
      reply = tree.resolve path ∨ ∃ raised, raised.isOsError = true ∧ reply = .error raised
  | request, reply => ∀ raised, request.raised reply = some raised → raised.isOsError = true

/-- A single request on the registry. -/
abbrev failing (tree : Tree) : Environment PanelInterface where
  State := RegistryState Unit
  step := (registrySystem Unit tree.MayAnswer).step ()

/-! ## What a run did -/

/-- Whether a read of the registry went well. -/
def readResult : Event PanelInterface → Option Bool
  | ⟨.loadRegistry, .ok _⟩ => some true
  | ⟨.loadRegistry, .error _⟩ => some false
  | _ => none

/-- The reads of the registry, the first one first. -/
def readsOf (history : List (Unit × Event PanelInterface)) : List Bool :=
  history.reverse.filterMap fun entry => readResult entry.2

/-- The registry was replaced. -/
def replaced (history : List (Unit × Event PanelInterface)) : Bool :=
  history.any fun entry => isMove entry.2

/-- No folder is missing, and a folder that counts as remembered is accepted. -/
structure Remembered (tree : Tree) (config : Config) (folder : Text)
    (before after : RegistryFiles Unit) (outcome : Except PythonError Bool) : Prop where
  kept : ∀ item ∈ before.items, item ∈ after.items
  stored : outcome = .ok true → ∃ directory, tree.normalize folder = .ok directory ∧
    (tree.normalize config.snapshotDir = .ok directory ∨ Listed tree after directory)

/-- The second read of the registry failed, it was replaced all the same, and it had held
another folder. -/
def LosesFolders (tree : Tree) (folder : Text) (before : RegistryFiles Unit)
    (history : List (Unit × Event PanelInterface)) : Prop :=
  (readsOf history)[1]? = some false ∧ replaced history = true ∧
    ∃ item ∈ before.items, tree.normalize folder ≠ .ok item

/-! ## Steps -/

/-- The registry is as it was, and these reads have come in between. -/
structure Beside (reads : List Bool) (before now : RegistryState Unit) : Prop where
  registry : now.files.registry = before.files.registry
  reads : readsOf now.history = readsOf before.history ++ reads
  replaced : replaced now.history = replaced before.history

theorem Beside.trans {reads more : List Bool} {first second third : RegistryState Unit}
    (one : Beside reads first second) (two : Beside more second third) :
    Beside (reads ++ more) first third where
  registry := two.registry.trans one.registry
  reads := by rw [two.reads, one.reads, List.append_assoc]
  replaced := two.replaced.trans one.replaced

theorem Beside.items {reads : List Bool} {before now : RegistryState Unit}
    (beside : Beside reads before now) : now.files.items = before.files.items := by
  rw [RegistryFiles.items, beside.registry, RegistryFiles.items]

section

variable {tree : Tree} {state : RegistryState Unit}

omit tree in
theorem RegistryFiles.Step.registry_eq {files after : RegistryFiles Unit} {request : PanelCall}
    {reply : request.Reply} (taken : files.Step () request reply after)
    (notMove : isMove ⟨request, reply⟩ = false) : after.registry = files.registry := by
  cases request with
  | loadRegistry => exact congrArg (·.registry) (taken.eq_of_onlyLooks (by trivial))
  | createTemporary =>
      cases reply with
      | ok temporary => rw [taken.2, RegistryFiles.put]
      | error raised => rw [taken]
  | writeTemporary temporary stored =>
      cases reply with
      | ok done =>
          rcases taken with ⟨creator, content, -, written⟩
          rw [written, RegistryFiles.put]
      | error raised =>
          rcases taken with ⟨creator, content, left, -, written⟩
          rw [written, RegistryFiles.put]
  | replaceRegistry temporary =>
      cases reply with
      | ok done => cases notMove
      | error raised => rw [taken]
  | _ => exact congrArg (·.registry) (taken.eq_of_onlyLooks (by trivial))

/-- A step that is no move. -/
theorem beside_of_step {request : PanelCall} {reply : request.Reply} {now : RegistryState Unit}
    (taken : (failing tree).step state request reply now)
    (notMove : isMove ⟨request, reply⟩ = false) :
    Beside (readResult ⟨request, reply⟩).toList state now where
  registry := taken.2.1.registry_eq notMove
  reads := by
    rw [taken.2.2, readsOf, List.reverse_cons, List.filterMap_append, ← readsOf]
    cases outcome : readResult ⟨request, reply⟩ <;> simp [outcome]
  replaced := by
    rw [taken.2.2, replaced, List.any_cons, notMove, Bool.false_or, ← replaced]

/-- A call that neither reads the registry nor moves a file over it. -/
theorem ensures_beside {α : Type} {request : PanelCall}
    {value : request.Reply → Except PythonError α}
    (quiet : ∀ reply, readResult ⟨request, reply⟩ = none ∧ isMove ⟨request, reply⟩ = false) :
    (request.attempt value).run.Ensures (failing tree) (fun _ => True) (fun outcome now =>
      Beside [] state now ∧ ∃ reply, tree.MayAnswer request reply ∧
        state.files.Step () request reply now.files ∧ outcome = value reply) state := by
  intro reply now taken
  have beside := beside_of_step taken (quiet reply).2
  rw [(quiet reply).1] at beside
  exact ⟨trivial, beside, reply, taken.1, taken.2.1, rfl⟩

theorem ensures_normalize (path : Text) :
    (normalize path).run.Ensures (failing tree) (fun _ => True) (fun outcome now =>
      Beside [] state now ∧ ∀ directory, outcome = .ok directory →
        tree.normalize path = .ok directory) state := by
  rw [normalize, ensures_raising_bind]
  refine (ensures_beside fun _ => ⟨rfl, rfl⟩).mono ?_
  rintro outcome middle ⟨first, _, answered, -, rfl⟩
  cases outcome with
  | error raised => exact ⟨first, nofun⟩
  | ok expanded =>
      refine (ensures_beside fun _ => ⟨rfl, rfl⟩).mono ?_
      rintro outcome now ⟨second, _, resolved, -, rfl⟩
      refine ⟨first.trans second, ?_⟩
      rintro directory rfl
      have expands : .ok expanded = tree.expandUser path := by
        rcases answered with same | ⟨raised, _, failed⟩
        · exact same
        · cases failed
      have resolves : .ok directory = tree.resolve expanded := by
        rcases resolved with same | ⟨raised, _, failed⟩
        · exact same
        · cases failed
      rw [Tree.normalize, ← expands, resolves]

/-- A load that fails looks like an empty registry. -/
theorem ensures_load :
    load.run.Ensures (failing tree) (fun _ => True) (fun outcome now =>
      ∃ went, Beside [went] state now ∧
        outcome = .ok (if went then state.files.items else [])) state := by
  rw [load, ensures_catching, ensures_raising_bind]
  intro reply now taken
  have beside := beside_of_step taken rfl
  rcases taken with ⟨answered, files, -⟩
  refine ⟨trivial, ?_⟩
  cases reply with
  | ok stored =>
      have items : state.files.items = registryItems stored := by
        rw [RegistryFiles.items, files.1]
      exact ⟨true, beside, congrArg Except.ok items.symm⟩
  | error raised =>
      have caught : (raised.isOsError || raised.isValueError) = true := by
        rw [answered raised rfl, Bool.true_or]
      change if _ then _ else _
      rw [if_pos caught]
      exact ⟨false, beside, rfl⟩

/-- A round of the loop in `known` adds a folder that an item leads to. -/
theorem ensures_addKnown {config : Config} {folders : List Text} {item : Text}
    (accepted : ∀ folder ∈ folders, Accepts tree config state folder)
    (stored : item ∈ state.files.items) :
    (addKnown folders item).run.Ensures (failing tree) (fun _ => True) (fun outcome now =>
      Beside [] state now ∧ ∀ more, outcome = .ok more →
        ∀ folder ∈ more, Accepts tree config state folder) state := by
  rw [addKnown, ensures_raising_bind]
  refine (ensures_normalize item).mono ?_
  rintro outcome middle ⟨first, leads⟩
  cases outcome with
  | error raised => exact ⟨first, nofun⟩
  | ok folder =>
      have added : ∀ other ∈ folders ++ [folder], Accepts tree config state other :=
        List.forall_mem_append.mpr ⟨accepted,
          List.forall_mem_singleton.mpr (.inr ⟨item, stored, .inr (leads folder rfl)⟩)⟩
      dsimp only
      split
      · refine ⟨first, ?_⟩
        rintro more ⟨⟩
        exact accepted
      · rw [ensures_raising_bind]
        refine (ensures_beside fun _ => ⟨rfl, rfl⟩).mono ?_
        rintro outcome now ⟨second, _, -, -, rfl⟩
        cases outcome with
        | error raised => exact ⟨first.trans second, nofun⟩
        | ok present =>
            refine ⟨first.trans second, ?_⟩
            rintro more ⟨⟩
            cases present with
            | true => exact added
            | false => exact accepted

theorem Accepts.beside {config : Config} {reads : List Bool} {now : RegistryState Unit}
    {folder : Text} (beside : Beside reads state now) :
    Accepts tree config now folder ↔ Accepts tree config state folder := by
  rw [Accepts, Accepts, Listed, Listed, beside.items]

theorem ensures_foldlM_addKnown (config : Config) {items folders : List Text}
    (accepted : ∀ folder ∈ folders, Accepts tree config state folder)
    (stored : ∀ item ∈ items, item ∈ state.files.items) :
    (items.foldlM addKnown folders).run.Ensures (failing tree) (fun _ => True)
      (fun outcome now => Beside [] state now ∧ ∀ more, outcome = .ok more →
        ∀ folder ∈ more, Accepts tree config state folder) state := by
  induction items generalizing folders state with
  | nil =>
      refine ⟨⟨rfl, (List.append_nil _).symm, rfl⟩, ?_⟩
      rintro more ⟨⟩
      exact accepted
  | cons item items ih =>
      rw [List.foldlM_cons, ensures_raising_bind]
      refine (ensures_addKnown accepted (stored item List.mem_cons_self)).mono ?_
      rintro outcome middle ⟨first, more⟩
      cases outcome with
      | error raised => exact ⟨first, nofun⟩
      | ok gathered =>
          refine (ih ?_ ?_).mono ?_
          · intro folder mem
            exact (Accepts.beside first).mpr (more gathered rfl folder mem)
          · intro other mem
            rw [first.items]
            exact stored other (List.mem_cons_of_mem _ mem)
          · rintro outcome now ⟨second, later⟩
            refine ⟨first.trans second, ?_⟩
            intro others ended folder mem
            exact (Accepts.beside first).mp (later others ended folder mem)

theorem ensures_known (config : Config) :
    (known config).run.Ensures (failing tree) (fun _ => True) (fun outcome now =>
      (∃ raised, Beside [] state now ∧ outcome = .error raised) ∨
        ∃ went, Beside [went] state now ∧ ∀ folders, outcome = .ok folders →
          ∀ folder ∈ folders, Accepts tree config state folder) state := by
  rw [known, ensures_raising_bind]
  refine (ensures_normalize config.snapshotDir).mono ?_
  rintro outcome middle ⟨first, leads⟩
  cases outcome with
  | error raised => exact .inl ⟨raised, first, rfl⟩
  | ok default =>
      dsimp only
      rw [ensures_raising_bind]
      refine ensures_load.mono ?_
      rintro outcome loaded ⟨went, second, rfl⟩
      have reads := first.trans second
      refine (ensures_foldlM_addKnown config ?_ ?_).mono ?_
      · exact List.forall_mem_singleton.mpr (.inl (leads default rfl))
      · intro item mem
        rw [second.items]
        cases went with
        | true => exact mem
        | false => exact absurd mem List.not_mem_nil
      · rintro outcome now ⟨third, accepted⟩
        refine .inr ⟨went, ?_, ?_⟩
        · have all := reads.trans third
          simpa using all
        · intro folders ended folder mem
          exact (Accepts.beside reads).mp (accepted folders ended folder mem)

/-- The new content is in place, or a call raised before that. -/
def SavedOrRaised (content : List Text) (before : RegistryState Unit) :
    Except PythonError Bool → RegistryState Unit → Prop
  | .ok saved, now => saved = true ∧ now.files.items = content ∧
      readsOf now.history = readsOf before.history ∧ replaced now.history = true
  | .error raised, now => raised.isOsError = true ∧ Beside [] before now

theorem ensures_replaceRegistry {content : List Text} {temporary : ℕ} {creator : Unit}
    {before : RegistryState Unit} (beside : Beside [] before state)
    (written : state.files.temporaries temporary = some (creator, content)) :
    ((PanelCall.replaceRegistry temporary).attempt id >>= fun _ => pure true :
      Request Bool).run.Ensures (failing tree) (fun _ => True) (SavedOrRaised content before)
        state := by
  rw [ensures_raising_bind]
  intro reply now taken
  refine ⟨trivial, ?_⟩
  cases reply with
  | error raised => exact ⟨taken.1 raised rfl, beside.trans (beside_of_step taken rfl)⟩
  | ok done =>
      rcases taken with ⟨-, ⟨creator, moved, found, files⟩, history⟩
      rw [written] at found
      cases found
      refine ⟨rfl, ?_, ?_, ?_⟩
      · rw [files]
        exact RegistryFiles.items_replaced _ content
      · rw [history, readsOf, List.reverse_cons, List.filterMap_append, ← readsOf, beside.reads]
        simp [readResult]
      · rw [history]
        rfl

/-- The registry holds the new content, or it is as it was. -/
theorem ensures_saveRegistry (content : List Text) :
    (saveRegistry content).run.Ensures (failing tree) (fun _ => True) (fun outcome now =>
      (outcome = .ok false ∧ Beside [] state now) ∨
        outcome = .ok true ∧ now.files.items = content ∧
          readsOf now.history = readsOf state.history ∧ replaced now.history = true) state := by
  rw [saveRegistry, ensures_catching]
  refine Ensures.mono (?saves : Ensures _ _ _ (SavedOrRaised content state) _) ?catches
  case saves =>
    rw [ensures_raising_bind]
    refine (ensures_beside fun _ => ⟨rfl, rfl⟩).mono ?_
    rintro outcome made ⟨first, _, answered, -, rfl⟩
    cases outcome with
    | error raised => exact ⟨answered raised rfl, first⟩
    | ok done =>
        dsimp only
        rw [ensures_raising_bind]
        refine (ensures_beside fun _ => ⟨rfl, rfl⟩).mono ?_
        rintro outcome created ⟨second, _, answered, creates, rfl⟩
        cases outcome with
        | error raised => exact ⟨answered raised rfl, first.trans second⟩
        | ok temporary =>
            dsimp only
            rw [ensures_raising_bind]
            refine (ensures_beside fun _ => ⟨rfl, rfl⟩).mono ?_
            rintro outcome written ⟨third, _, answered, writes, rfl⟩
            have beside := (first.trans second).trans third
            cases outcome with
            | error raised => exact ⟨answered raised rfl, beside⟩
            | ok done =>
                rcases writes with ⟨creator, empty, -, written⟩
                apply ensures_replaceRegistry beside
                rw [written]
                exact Function.update_self _ _ _
  case catches =>
    intro outcome now saved
    cases outcome with
    | ok value =>
        rcases saved with ⟨rfl, saved⟩
        exact .inr ⟨rfl, saved⟩
    | error raised =>
        rcases saved with ⟨isOsError, beside⟩
        dsimp only
        rw [if_pos isOsError]
        exact .inl ⟨rfl, beside⟩

/-- The registry was not touched, and True means that the folder is known. -/
def LeftAsItWas (tree : Tree) (config : Config) (folder : Text) (before : RegistryState Unit)
    (outcome : Except PythonError Bool) (now : RegistryState Unit) : Prop :=
  (∃ reads, Beside reads before now) ∧ (outcome = .ok true → ∃ directory,
    tree.normalize folder = .ok directory ∧ Accepts tree config before directory)

/-- The registry was replaced by what the second read gave and the folder. -/
def Rewritten (tree : Tree) (folder : Text) (before : RegistryState Unit)
    (outcome : Except PythonError Bool) (now : RegistryState Unit) : Prop :=
  outcome = .ok true ∧ ∃ first second directory, tree.normalize folder = .ok directory ∧
    readsOf now.history = readsOf before.history ++ [first, second] ∧
      replaced now.history = true ∧
        now.files.items = (if second then before.files.items else []) ++ [directory]

theorem ensures_remember (config : Config) (folder : Text) :
    (remember config folder).run.Ensures (failing tree) (fun _ => True) (fun outcome now =>
      LeftAsItWas tree config folder state outcome now ∨ Rewritten tree folder state outcome now)
      state := by
  rw [remember, ensures_raising_bind]
  refine (ensures_normalize folder).mono ?_
  rintro outcome named ⟨first, leads⟩
  cases outcome with
  | error raised => exact .inl ⟨⟨_, first⟩, nofun⟩
  | ok directory =>
      have normalized := leads directory rfl
      dsimp only
      rw [ensures_raising_bind]
      refine (ensures_known config).mono ?_
      rintro outcome knows (⟨raised, second, rfl⟩ | ⟨went, second, accepts⟩)
      · exact .inl ⟨⟨_, first.trans second⟩, nofun⟩
      · have both := first.trans second
        cases outcome with
        | error raised => exact .inl ⟨⟨_, both⟩, nofun⟩
        | ok folders =>
            dsimp only
            split
            · next found =>
              have accepted := (Accepts.beside first).mp (accepts folders rfl directory found)
              exact .inl ⟨⟨_, both⟩, fun _ => ⟨directory, normalized, accepted⟩⟩
            · rw [ensures_raising_bind]
              refine ensures_load.mono ?_
              rintro outcome loaded ⟨again, third, rfl⟩
              have all := both.trans third
              refine (ensures_saveRegistry _).mono ?_
              rintro outcome now (⟨rfl, last⟩ | ⟨rfl, items, reads, moved⟩)
              · exact .inl ⟨⟨_, all.trans last⟩, nofun⟩
              · refine .inr ⟨rfl, went, again, directory, normalized, ?_, moved, ?_⟩
                · rw [reads, all.reads]
                  rfl
                · rw [items, both.items]

end

/-! ## Exactly when -/

/-- One call of `remember` loses no folder, and accepts the one it says it remembered, exactly
if it does not replace what its second read failed to see. -/
theorem remembered_iff (tree : Tree) (config : Config) (folder : Text)
    (files : RegistryFiles Unit) {outcome : Except PythonError Bool} {final : RegistryState Unit}
    (run : (remember config folder).run.Exec (failing tree) ⟨files, []⟩ outcome final) :
    Remembered tree config folder files final.files outcome ↔
      ¬LosesFolders tree folder files final.history := by
  rcases (ensures_remember config folder).exec run with
    ⟨⟨reads, beside⟩, known⟩ | ⟨rfl, first, second, directory, normalized, reads, moved, items⟩
  · have kept : ∀ item ∈ files.items, item ∈ final.files.items := by
      intro item mem
      rw [beside.items]
      exact mem
    have notReplaced : replaced final.history = false := beside.replaced
    constructor
    · rintro _ ⟨-, moved, -⟩
      rw [notReplaced] at moved
      cases moved
    · intro _
      refine ⟨kept, fun isTrue => ?_⟩
      rcases known isTrue with ⟨directory, normalized, default | listed⟩
      · exact ⟨directory, normalized, .inl default⟩
      · exact ⟨directory, normalized, .inr (listed.mono kept)⟩
  · have stored : Listed tree final.files directory := by
      refine ⟨directory, ?_, .inl rfl⟩
      rw [items]
      exact List.mem_append_right _ List.mem_cons_self
    have secondRead : (readsOf final.history)[1]? = some second := by
      rw [reads]
      rfl
    constructor
    · rintro remembered ⟨failed, -, item, mem, other⟩
      rw [secondRead] at failed
      cases failed
      have left := remembered.kept item mem
      rw [items] at left
      rw [List.mem_singleton.mp left] at other
      exact other normalized
    · intro keeps
      refine ⟨?_, fun _ => ⟨directory, normalized, .inr stored⟩⟩
      intro item mem
      rw [items]
      cases second with
      | true => exact List.mem_append_left _ mem
      | false =>
          have same : tree.normalize folder = .ok item := by
            by_contra other
            exact keeps ⟨secondRead, moved, item, mem, other⟩
          rw [normalized] at same
          cases same
          exact List.mem_append_right _ List.mem_cons_self

/-! ## A run on a fixed registry -/

/-- Nothing fails but the second read of the registry. -/
def secondReadFails (state : RegistryState Unit) :
    (request : PanelCall) → Option (request.Reply × RegistryState Unit)
  | .loadRegistry =>
      if hasLoaded () state.history then
        let failed : Event PanelInterface := ⟨.loadRegistry, .error (.osError .other [])⟩
        some (failed.reply, { state with history := ((), failed) :: state.history })
      else plainAnswer (fun _ _ _ _ => true) () state .loadRegistry
  | request => plainAnswer (fun _ _ _ _ => true) () state request

def oneFolder : RegistryFiles Unit where
  registry := some (Json.ofStrings [text "/a"])
  temporaries := fun _ => none

theorem mayAnswer_of_plainFiles {files after : RegistryFiles Unit} {unused : ℕ}
    {request : PanelCall} {reply : request.Reply}
    (answered : plainFiles () files unused request = some (reply, after)) :
    plainTree.MayAnswer request reply := by
  cases request with
  | expandUser path => exact .inl (plainTree_answers answered)
  | resolve path => exact .inl (plainTree_answers answered)
  | loadRegistry =>
      intro raised failed
      simp only [plainFiles] at answered
      split at answered
      · cases answered
        cases failed
      · cases answered
        cases failed
        rfl
  | createTemporary =>
      simp only [plainFiles] at answered
      split at answered
      · cases answered
        intro raised failed
        cases failed
      · cases answered
  | writeTemporary temporary stored =>
      simp only [plainFiles] at answered
      split at answered
      · cases answered
        intro raised failed
        cases failed
      · cases answered
  | replaceRegistry temporary =>
      simp only [plainFiles] at answered
      split at answered
      · cases answered
        intro raised failed
        cases failed
      · cases answered
  | _ =>
      cases answered <;> intro raised failed <;> cases failed

theorem step_of_plainAnswer {state after : RegistryState Unit} {request : PanelCall}
    {reply : request.Reply}
    (answered : plainAnswer (fun _ _ _ _ => true) () state request = some (reply, after)) :
    (failing plainTree).step state request reply after := by
  rcases plainAnswer_eq_some answered with ⟨found, history, -⟩
  exact ⟨mayAnswer_of_plainFiles found, step_of_plainFiles found, history⟩

theorem step_of_secondReadFails {state after : RegistryState Unit} {request : PanelCall}
    {reply : request.Reply} (answered : secondReadFails state request = some (reply, after)) :
    (failing plainTree).step state request reply after := by
  cases request with
  | loadRegistry =>
      rw [secondReadFails] at answered
      split at answered
      · cases answered
        refine ⟨?_, rfl, rfl⟩
        rintro raised ⟨⟩
        rfl
      · exact step_of_plainAnswer answered
  | _ => exact step_of_plainAnswer answered

/-- The call goes well, and the registry has only the new folder. -/
theorem exec_secondReadFails : ∃ final,
    (remember exampleConfig (text "/b")).run.Exec (failing plainTree) ⟨oneFolder, []⟩ (.ok true)
      final ∧ final.files.items = [text "/b"] := by
  have followed : (remember exampleConfig (text "/b")).run.follow secondReadFails ⟨oneFolder, []⟩ =
      some (.ok true, _) := rfl
  exact ⟨_, exec_of_follow (fun _ _ _ _ => step_of_secondReadFails) followed, rfl⟩

theorem remembered_iff_secondRead : ∃ final,
    (remember exampleConfig (text "/b")).run.Exec (failing plainTree) ⟨oneFolder, []⟩ (.ok true)
      final ∧
    (Remembered plainTree exampleConfig (text "/b") oneFolder final.files (.ok true) ↔
      ¬LosesFolders plainTree (text "/b") oneFolder final.history) := by
  rcases exec_secondReadFails with ⟨final, ran, -⟩
  exact ⟨final, ran, remembered_iff plainTree exampleConfig (text "/b") oneFolder ran⟩

/-- The folder that was there before is lost. -/
theorem not_remembered : ¬∀ tree config folder (files : RegistryFiles Unit) outcome final,
    (remember config folder).run.Exec (failing tree) ⟨files, []⟩ outcome final →
      Remembered tree config folder files final.files outcome := by
  intro claimed
  rcases exec_secondReadFails with ⟨final, ran, items⟩
  have kept := (claimed _ _ _ _ _ final ran).kept (text "/a") (by decide)
  rw [items] at kept
  exact absurd kept (by decide)

end Ksnap.Panel
