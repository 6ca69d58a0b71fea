import Ksnap.Foundation.Raising

/-!
# Programs that leave the state

A program that does not get to its end should leave the state as it was. Where it does not
always, what decides it is found step by step: a step that only looks passes the question on with
what it has seen, and the one step that changes something is followed by steps that leave
it as it then is.
-/

namespace Foundation

open Program

variable {iface : Interface} {ε α β : Type} {env : Environment iface} {state : env.State}

/-- Every run ends in the state it began in. -/
def Leaves (env : Environment iface) (body : Raising iface ε α) : Prop :=
  ∀ state outcome final, body.run.Exec env state outcome final → final = state

/-- Every run from the state ends in it, with the same outcome. -/
def Looks (env : Environment iface) (state : env.State) (body : Raising iface ε α)
    (outcome : Except ε α) : Prop :=
  ∀ other final, body.run.Exec env state other final → other = outcome ∧ final = state

/-- What decides whether a run ends in the state it began in. -/
def UnchangedIff (env : Environment iface) (state : env.State) (body : Raising iface ε α)
    (condition : Prop) : Prop :=
  ∀ outcome final, body.run.Exec env state outcome final → (final = state ↔ condition)

/-! ## Programs that leave the state -/

theorem leaves_of_onlyCalls {allowed : iface.Call → Prop} {body : Raising iface ε α}
    (onlyCalls : body.run.OnlyCalls allowed)
    (quiet : ∀ state request reply final, allowed request →
      env.step state request reply final → final = state) : Leaves env body := by
  intro state outcome final ran
  have kept : body.run.Ensures env (· = state) (fun _ final => final = state) state := by
    apply onlyCalls.ensures
    · rintro _ request reply final isAllowed rfl taken
      exact quiet _ request reply final isAllowed taken
    · rfl
  exact kept.exec ran

theorem Leaves.bind {body : Raising iface ε α} {rest : α → Raising iface ε β}
    (first : Leaves env body) (second : ∀ value, Leaves env (rest value)) :
    Leaves env (body >>= rest) := by
  intro state outcome final ran
  rcases exec_raising_bind.mp ran with ⟨value, middle, before, after⟩ | ⟨raised, before, _⟩
  · rw [second value middle outcome final after]
    exact first state _ middle before
  · exact first state _ final before

/-- What comes behind a program that never returns does not matter. -/
theorem Leaves.bind_of_raises {body : Raising iface ε α} {rest : α → Raising iface ε β}
    (first : Leaves env body)
    (raises : ∀ state value final, ¬ body.run.Exec env state (.ok value) final) :
    Leaves env (body >>= rest) := by
  intro state outcome final ran
  rcases exec_raising_bind.mp ran with ⟨value, middle, before, _⟩ | ⟨raised, before, _⟩
  · exact absurd before (raises state value middle)
  · exact first state _ final before

/-! ## Programs that only look -/

theorem looks_liftExcept {outcome : Except ε α} :
    Looks env state (liftExcept outcome : Raising iface ε α) outcome := by
  intro other final ran
  cases outcome <;> exact ran

theorem looks_attempt {request : iface.Call} {value : iface.Reply request → Except ε α}
    {outcome : Except ε α}
    (answered : ∀ reply final, env.step state request reply final →
      value reply = outcome ∧ final = state) :
    Looks env state (Raising.attempt (.call request fun reply => .done (value reply)))
      outcome := by
  rintro other final ⟨reply, middle, taken, rfl, rfl⟩
  exact answered reply final taken

theorem Looks.bind {body : Raising iface ε α} {rest : α → Raising iface ε β}
    {outcome : Except ε α} {plain : α → Except ε β} (first : Looks env state body outcome)
    (second : ∀ value, Looks env state (rest value) (plain value)) :
    Looks env state (body >>= rest) (outcome >>= plain) := by
  intro other final ran
  rcases exec_raising_bind.mp ran with ⟨value, middle, before, after⟩ | ⟨raised, before, rfl⟩
  · rcases first _ middle before with ⟨rfl, rfl⟩
    exact second value other final after
  · rcases first _ final before with ⟨rfl, same⟩
    exact ⟨rfl, same⟩

/-- Looks that nothing comes of, one after another. -/
theorem looks_forM {items : List α} {body : α → Raising iface ε Unit}
    (each : ∀ item, Looks env state (body item) (.ok ())) :
    Looks env state (items.forM body) (.ok ()) := by
  induction items with
  | nil => exact fun _ _ ran => ran
  | cons item items ih =>
      rw [List.forM_eq_forM, List.forM_cons]
      exact (each item).bind fun _ => ih

/-! ## What decides -/

theorem UnchangedIff.congr {body : Raising iface ε α} {condition other : Prop}
    (unchanged : UnchangedIff env state body condition) (same : condition ↔ other) :
    UnchangedIff env state body other :=
  fun outcome final ran => (unchanged outcome final ran).trans same

theorem Leaves.unchangedIff {body : Raising iface ε α} {condition : Prop}
    (leaves : Leaves env body) (holds : condition) : UnchangedIff env state body condition :=
  fun outcome final ran => iff_of_true (leaves state outcome final ran) holds

/-- A look in front, and what it has seen. -/
theorem Looks.unchangedIff_bind {body : Raising iface ε α} {rest : α → Raising iface ε β}
    {outcome : Except ε α} {condition : α → Prop} (looks : Looks env state body outcome)
    (later : ∀ value, UnchangedIff env state (rest value) (condition value)) :
    UnchangedIff env state (body >>= rest) (∀ value, outcome = .ok value → condition value) := by
  intro other final ran
  rcases exec_raising_bind.mp ran with ⟨value, middle, before, after⟩ | ⟨raised, before, _⟩
  · rcases looks _ middle before with ⟨rfl, rfl⟩
    refine (later value other final after).trans ?_
    constructor
    · rintro holds _ ⟨⟩
      exact holds
    · exact fun each => each value rfl
  · rcases looks _ final before with ⟨rfl, rfl⟩
    exact iff_of_true rfl nofun

theorem unchangedIff_require_bind {passes : Bool} {raised : ε} {rest : Unit → Raising iface ε β}
    {condition : Prop} (later : UnchangedIff env state (rest ()) condition) :
    UnchangedIff env state (Raising.require passes raised >>= rest)
      (passes = true → condition) := by
  cases passes with
  | true => exact later.congr ⟨fun holds _ => holds, fun holds => holds rfl⟩
  | false =>
      rintro other final ⟨-, same⟩
      exact iff_of_true same nofun

/-- A gate in front, which opens on a condition. -/
theorem Leaves.unchangedIff_bind {body : Raising iface ε α} {rest : α → Raising iface ε β}
    {passes condition : Prop} (leaves : Leaves env body)
    (opens : passes → ∀ raised final, ¬ body.run.Exec env state (.error raised) final)
    (opened : ∀ value final, body.run.Exec env state (.ok value) final → passes)
    (later : ∀ value, UnchangedIff env state (rest value) condition) :
    UnchangedIff env state (body >>= rest) (passes → condition) := by
  intro other final ran
  rcases exec_raising_bind.mp ran with ⟨value, middle, before, after⟩ | ⟨raised, before, _⟩
  · have open_ := opened value middle before
    cases leaves state _ middle before
    exact (later value other final after).trans
      ⟨fun holds _ => holds, fun holds => holds open_⟩
  · refine iff_of_true (leaves state _ final before) ?_
    exact fun open_ => absurd before (opens open_ raised final)

/-- The step that may change something, in front of those that do not. -/
theorem UnchangedIff.bind_leaves {body : Raising iface ε α} {rest : α → Raising iface ε β}
    {condition : Prop} (first : UnchangedIff env state body condition)
    (leaves : ∀ value, Leaves env (rest value)) :
    UnchangedIff env state (body >>= rest) condition := by
  intro other final ran
  rcases exec_raising_bind.mp ran with ⟨value, middle, before, after⟩ | ⟨raised, before, _⟩
  · rw [leaves value middle _ final after]
    exact first _ middle before
  · exact first _ final before

theorem UnchangedIff.catching {body : Raising iface ε α} {selected : ε → Bool}
    {handler : ε → Raising iface ε α} {condition : Prop}
    (first : UnchangedIff env state body condition)
    (leaves : ∀ raised, Leaves env (handler raised)) :
    UnchangedIff env state (body.catching selected handler) condition := by
  intro other final ran
  rw [Raising.catching, ExceptT.run_mk, exec_bind] at ran
  rcases ran with ⟨outcome, middle, before, after⟩
  have same : final = middle := by
    cases outcome with
    | ok value => exact after.2
    | error raised =>
        dsimp only at after
        split at after
        · exact leaves raised middle other final after
        · exact after.2
  rw [same]
  exact first outcome middle before

end Foundation
