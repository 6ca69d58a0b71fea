import Ksnap.Foundation.Interleaving

/-!
# Programs that raise

A program with exceptions is one whose result is a value or an exception. The first
exception ends it, up to the handler that catches it. The rules of the weakest
precondition and of the one under interference come in pairs here, one for each way a
step of such a program looks.
-/

namespace Foundation

/-- A program that returns a value or raises. -/
abbrev Raising (iface : Interface) (ε α : Type) : Type := ExceptT ε (Program iface) α

variable {iface : Interface} {ε α β : Type}

namespace Raising

/-- A call that raises nothing. -/
def perform (request : iface.Call) : Raising iface ε (iface.Reply request) :=
  ExceptT.lift (Program.perform request)

/-- A call whose reply is a value or an exception. -/
def attempt (reply : Program iface (Except ε α)) : Raising iface ε α :=
  ExceptT.mk reply

/-- `if not condition: raise raised` -/
def require (condition : Bool) (raised : ε) : Raising iface ε Unit :=
  if condition then pure () else throw raised

/-- `if condition: body` -/
def onlyIf (condition : Bool) (body : Raising iface ε Unit) : Raising iface ε Unit :=
  if condition then body else pure ()

/-- The body with its outcome as a value, so that nothing is raised. -/
def observe (body : Raising iface ε α) : Raising iface ε (Except ε α) :=
  ExceptT.mk do
    let outcome ← body.run
    return .ok outcome

/-- `with lock: body`, which leaves however the body ends. -/
def bracket (enter leave : Raising iface ε Unit) (body : Raising iface ε α) :
    Raising iface ε α := do
  enter
  let outcome ← observe body
  leave
  liftExcept outcome

/-- `try: body` with a handler for the selected exceptions. -/
def catching (body : Raising iface ε α) (selected : ε → Bool)
    (handler : ε → Raising iface ε α) : Raising iface ε α :=
  ExceptT.mk do
    match ← body.run with
    | .ok value => return .ok value
    | .error raised => if selected raised then (handler raised).run else return .error raised

end Raising

/-! ## Weakest preconditions -/

section Ensures

open Program

variable {env : Environment iface} {always : env.State → Prop} {state : env.State}
  {post : Except ε β → env.State → Prop}

theorem ensures_raising_bind {body : Raising iface ε α} {rest : α → Raising iface ε β} :
    (body >>= rest).run.Ensures env always post state ↔
      body.run.Ensures env always (fun outcome middle =>
        match outcome with
        | .ok value => (rest value).run.Ensures env always post middle
        | .error raised => post (.error raised) middle) state := by
  rw [ExceptT.run_bind, ensures_bind]
  constructor
  · intro ensures
    refine ensures.mono ?_
    intro outcome middle holds
    cases outcome <;> exact holds
  · intro ensures
    refine ensures.mono ?_
    intro outcome middle holds
    cases outcome <;> exact holds

theorem ensures_catching {body : Raising iface ε β} {selected : ε → Bool}
    {handler : ε → Raising iface ε β} :
    (body.catching selected handler).run.Ensures env always post state ↔
      body.run.Ensures env always (fun outcome middle =>
        match outcome with
        | .ok value => post (.ok value) middle
        | .error raised =>
            if selected raised then (handler raised).run.Ensures env always post middle
            else post (.error raised) middle) state := by
  rw [Raising.catching, ExceptT.run_mk, ensures_bind]
  constructor
  · intro ensures
    refine ensures.mono ?_
    intro outcome middle holds
    cases outcome with
    | ok value => exact holds
    | error raised =>
        dsimp only at holds ⊢
        split
        · next caught => rwa [if_pos caught] at holds
        · next missed => rwa [if_neg missed] at holds
  · intro ensures
    refine ensures.mono ?_
    intro outcome middle holds
    cases outcome with
    | ok value => exact holds
    | error raised =>
        dsimp only at holds ⊢
        split
        · next caught => rwa [if_pos caught] at holds
        · next missed => rwa [if_neg missed] at holds

theorem ensures_liftExcept {plain : Except ε β} :
    (liftExcept plain : Raising iface ε β).run.Ensures env always post state ↔
      post plain state := by
  cases plain <;> exact Iff.rfl

theorem finishes_raising_bind {body : Raising iface ε α} {rest : α → Raising iface ε β} :
    (body >>= rest).run.Finishes env post state ↔
      body.run.Finishes env (fun outcome middle =>
        match outcome with
        | .ok value => (rest value).run.Finishes env post middle
        | .error raised => post (.error raised) middle) state := by
  rw [ExceptT.run_bind, finishes_bind]
  constructor
  · intro finishes
    refine finishes.mono ?_
    intro outcome middle holds
    cases outcome <;> exact holds
  · intro finishes
    refine finishes.mono ?_
    intro outcome middle holds
    cases outcome <;> exact holds

end Ensures

/-! ## Calls -/

section Calls

open Program

variable {allowed : iface.Call → Prop}

theorem OnlyCalls.raising_bind {body : Raising iface ε α} {rest : α → Raising iface ε β}
    (first : body.run.OnlyCalls allowed) (second : ∀ value, (rest value).run.OnlyCalls allowed) :
    (body >>= rest).run.OnlyCalls allowed := by
  rw [ExceptT.run_bind]
  apply first.bind
  intro outcome
  cases outcome with
  | ok value => exact second value
  | error raised => exact trivial

theorem OnlyCalls.catching {body : Raising iface ε α} {selected : ε → Bool}
    {handler : ε → Raising iface ε α} (first : body.run.OnlyCalls allowed)
    (second : ∀ raised, (handler raised).run.OnlyCalls allowed) :
    (body.catching selected handler).run.OnlyCalls allowed := by
  rw [Raising.catching, ExceptT.run_mk]
  apply first.bind
  intro outcome
  cases outcome with
  | ok value => exact trivial
  | error raised =>
      dsimp only
      split
      · exact second raised
      · exact trivial

theorem onlyCalls_raising_pure {value : α} :
    (pure value : Raising iface ε α).run.OnlyCalls allowed := trivial

theorem onlyCalls_raising_throw {raised : ε} :
    (throw raised : Raising iface ε α).run.OnlyCalls allowed := trivial

theorem onlyCalls_raising_require {condition : Bool} {raised : ε} :
    (Raising.require condition raised : Raising iface ε Unit).run.OnlyCalls allowed := by
  cases condition <;> exact trivial

theorem OnlyCalls.onlyIf {condition : Bool} {body : Raising iface ε Unit}
    (onlyCalls : body.run.OnlyCalls allowed) :
    (Raising.onlyIf condition body).run.OnlyCalls allowed := by
  cases condition
  · exact trivial
  · exact onlyCalls

theorem onlyCalls_foldlM {γ : Type} {body : γ → α → Raising iface ε γ} {items : List α}
    {gathered : γ} (step : ∀ current item, (body current item).run.OnlyCalls allowed) :
    (items.foldlM body gathered).run.OnlyCalls allowed := by
  induction items generalizing gathered with
  | nil => exact trivial
  | cons item items ih =>
      rw [List.foldlM_cons]
      exact OnlyCalls.raising_bind (step gathered item) fun _ => ih

theorem onlyCalls_raising_mapM {body : α → Raising iface ε β} {items : List α}
    (step : ∀ item, (body item).run.OnlyCalls allowed) :
    (items.mapM body).run.OnlyCalls allowed := by
  induction items with
  | nil => exact trivial
  | cons item items ih =>
      rw [List.mapM_cons]
      refine OnlyCalls.raising_bind (step item) fun _ => ?_
      exact OnlyCalls.raising_bind ih fun _ => onlyCalls_raising_pure

theorem onlyCalls_raising_forM {body : α → Raising iface ε PUnit} {items : List α}
    (step : ∀ item, (body item).run.OnlyCalls allowed) :
    (items.forM body).run.OnlyCalls allowed := by
  induction items with
  | nil => exact trivial
  | cons item items ih =>
      rw [List.forM]
      exact OnlyCalls.raising_bind (step item) fun _ => ih

theorem onlyCalls_liftExcept {outcome : Except ε α} :
    (liftExcept outcome : Raising iface ε α).run.OnlyCalls allowed := by
  cases outcome <;> exact trivial

theorem OnlyCalls.bracket {enter leave : Raising iface ε Unit} {body : Raising iface ε α}
    (enters : enter.run.OnlyCalls allowed) (first : body.run.OnlyCalls allowed)
    (leaves : leave.run.OnlyCalls allowed) :
    (Raising.bracket enter leave body).run.OnlyCalls allowed := by
  refine OnlyCalls.raising_bind enters fun _ => ?_
  refine OnlyCalls.raising_bind ?_ fun _ =>
    OnlyCalls.raising_bind leaves fun _ => onlyCalls_liftExcept
  rw [Raising.observe, ExceptT.run_mk]
  exact first.bind fun _ => trivial

end Calls

/-! ## Outcomes

What the end of a program can be, when it does not depend on the state it starts in.
-/

section EndsIn

open Program

variable {env : Environment iface}

/-- Every run returns a value of the first kind or raises an exception of the second. -/
def EndsIn (env : Environment iface) (body : Raising iface ε α) (returns : α → Prop)
    (raises : ε → Prop) : Prop :=
  ∀ state, body.run.Ensures env (fun _ => True) (fun outcome _ =>
    match outcome with
    | .ok value => returns value
    | .error raised => raises raised) state

variable {raises : ε → Prop} {returns : α → Prop}

theorem EndsIn.exec {body : Raising iface ε α} (ends : EndsIn env body returns raises)
    {state final : env.State} {raised : ε} (run : body.run.Exec env state (.error raised) final) :
    raises raised :=
  (ends state).exec run

theorem EndsIn.bind {body : Raising iface ε α} {rest : α → Raising iface ε β}
    {last : β → Prop} (first : EndsIn env body returns raises)
    (second : ∀ value, returns value → EndsIn env (rest value) last raises) :
    EndsIn env (body >>= rest) last raises := by
  intro state
  rw [ensures_raising_bind]
  refine (first state).mono ?_
  intro outcome middle ends
  cases outcome with
  | ok value => exact second value ends middle
  | error raised => exact ends

theorem endsIn_pure {value : α} (holds : returns value) :
    EndsIn env (pure value : Raising iface ε α) returns raises :=
  fun _ => holds

theorem endsIn_throw {raised : ε} (holds : raises raised) :
    EndsIn env (throw raised : Raising iface ε α) returns raises :=
  fun _ => holds

theorem endsIn_require {condition : Bool} {raised : ε}
    (fails : condition = false → raises raised) :
    EndsIn env (Raising.require condition raised : Raising iface ε Unit)
      (fun _ => condition = true) raises := by
  cases condition with
  | true => exact endsIn_pure rfl
  | false => exact endsIn_throw (fails rfl)

theorem endsIn_onlyIf {condition : Bool} {body : Raising iface ε Unit}
    (ends : EndsIn env body (fun _ => True) raises) :
    EndsIn env (Raising.onlyIf condition body) (fun _ => True) raises := by
  cases condition with
  | true => exact ends
  | false => exact endsIn_pure trivial

theorem endsIn_liftExcept {outcome : Except ε α}
    (holds : match outcome with
      | .ok value => returns value
      | .error raised => raises raised) :
    EndsIn env (liftExcept outcome : Raising iface ε α) returns raises := by
  cases outcome with
  | ok value => exact endsIn_pure holds
  | error raised => exact endsIn_throw holds

theorem EndsIn.catching {body : Raising iface ε α} {selected : ε → Bool}
    {handler : ε → Raising iface ε α} (first : EndsIn env body returns raises)
    (handled : ∀ raised, raises raised → EndsIn env (handler raised) returns raises) :
    EndsIn env (body.catching selected handler) returns raises := by
  intro state
  rw [ensures_catching]
  refine (first state).mono ?_
  intro outcome middle ends
  cases outcome with
  | ok value => exact ends
  | error raised =>
      dsimp only
      split
      · exact handled raised ends middle
      · exact ends

theorem endsIn_foldlM {γ : Type} {body : γ → α → Raising iface ε γ} {items : List α}
    {gathered : γ}
    (step : ∀ current item, EndsIn env (body current item) (fun _ => True) raises) :
    EndsIn env (items.foldlM body gathered) (fun _ => True) raises := by
  induction items generalizing gathered with
  | nil => exact endsIn_pure trivial
  | cons item items ih =>
      rw [List.foldlM_cons]
      apply (step gathered item).bind
      intro current _
      exact ih

theorem EndsIn.bracket {enter leave : Raising iface ε Unit} {body : Raising iface ε α}
    (enters : EndsIn env enter (fun _ => True) raises) (ends : EndsIn env body returns raises)
    (leaves : EndsIn env leave (fun _ => True) raises) :
    EndsIn env (Raising.bracket enter leave body) returns raises := by
  apply enters.bind
  intro _ _
  have observes : EndsIn env body.observe (fun outcome =>
      match outcome with
      | .ok value => returns value
      | .error raised => raises raised) raises := by
    intro state
    rw [Raising.observe, ExceptT.run_mk, ensures_bind]
    exact ends state
  apply observes.bind
  intro outcome ends
  apply leaves.bind
  intro _ _
  exact endsIn_liftExcept ends

end EndsIn

/-! ## One outcome

Where the replies leave no choice, a program has one outcome from every state, and it is
computed like the program itself.
-/

section Yields

open Program

variable {env : Environment iface}

/-- The program completes from every state, and always with this outcome. -/
structure Yields (env : Environment iface) (body : Raising iface ε α) (outcome : Except ε α) :
    Prop where
  completes : ∀ state, ∃ final, body.run.Exec env state outcome final
  only : ∀ state other final, body.run.Exec env state other final → other = outcome

theorem exec_raising_bind {body : Raising iface ε α} {rest : α → Raising iface ε β}
    {state final : env.State} {outcome : Except ε β} :
    (body >>= rest).run.Exec env state outcome final ↔
      (∃ value middle, body.run.Exec env state (.ok value) middle ∧
        (rest value).run.Exec env middle outcome final) ∨
      ∃ raised, body.run.Exec env state (.error raised) final ∧ outcome = .error raised := by
  rw [ExceptT.run_bind, exec_bind]
  constructor
  · intro ran
    rcases ran with ⟨first, middle, before, later⟩
    cases first with
    | ok value => exact .inl ⟨value, middle, before, later⟩
    | error raised =>
        rcases later with ⟨rfl, rfl⟩
        exact .inr ⟨raised, before, rfl⟩
  · intro ran
    rcases ran with ⟨value, middle, before, later⟩ | ⟨raised, before, rfl⟩
    · exact ⟨.ok value, middle, before, later⟩
    · exact ⟨.error raised, final, before, rfl, rfl⟩

theorem Yields.of_pure {value : α} :
    Yields env (pure value : Raising iface ε α) (.ok value) :=
  ⟨fun state => ⟨state, rfl, rfl⟩, fun _ _ _ ran => ran.1⟩

theorem Yields.of_throw {raised : ε} :
    Yields env (throw raised : Raising iface ε α) (.error raised) :=
  ⟨fun state => ⟨state, rfl, rfl⟩, fun _ _ _ ran => ran.1⟩

theorem Yields.of_liftExcept {outcome : Except ε α} :
    Yields env (liftExcept outcome : Raising iface ε α) outcome := by
  cases outcome with
  | ok value => exact Yields.of_pure
  | error raised => exact Yields.of_throw

theorem Yields.bind_ok {body : Raising iface ε α} {rest : α → Raising iface ε β} {value : α}
    {outcome : Except ε β} (first : Yields env body (.ok value))
    (second : Yields env (rest value) outcome) : Yields env (body >>= rest) outcome := by
  constructor
  · intro state
    rcases first.completes state with ⟨middle, before⟩
    rcases second.completes middle with ⟨final, after⟩
    exact ⟨final, exec_raising_bind.mpr (.inl ⟨value, middle, before, after⟩)⟩
  · intro state other final ran
    rcases exec_raising_bind.mp ran with ⟨given, middle, before, after⟩ | ⟨raised, before, _⟩
    · cases first.only state _ middle before
      exact second.only middle other final after
    · cases first.only state _ final before

theorem Yields.bind_error {body : Raising iface ε α} {rest : α → Raising iface ε β} {raised : ε}
    (first : Yields env body (.error raised)) : Yields env (body >>= rest) (.error raised) := by
  constructor
  · intro state
    rcases first.completes state with ⟨middle, before⟩
    exact ⟨middle, exec_raising_bind.mpr (.inr ⟨raised, before, rfl⟩)⟩
  · intro state other final ran
    rcases exec_raising_bind.mp ran with ⟨given, middle, before, _⟩ | ⟨other, before, rfl⟩
    · cases first.only state _ middle before
    · cases first.only state _ final before
      rfl

theorem Yields.bind {body : Raising iface ε α} {rest : α → Raising iface ε β}
    {outcome : Except ε α} {plain : α → Except ε β} (first : Yields env body outcome)
    (second : ∀ value, Yields env (rest value) (plain value)) :
    Yields env (body >>= rest) (outcome >>= plain) := by
  cases outcome with
  | ok value => exact first.bind_ok (second value)
  | error raised => exact first.bind_error

theorem Yields.map {body : Raising iface ε α} {outcome : Except ε α} {f : α → β}
    (yields : Yields env body outcome) :
    Yields env (f <$> body) (outcome >>= fun value => .ok (f value)) := by
  rw [map_eq_pure_bind]
  exact yields.bind fun _ => Yields.of_pure

/-- What `require` comes to. -/
def demand (condition : Bool) (raised : ε) : Except ε Unit :=
  if condition then .ok () else .error raised

theorem Yields.of_require {condition : Bool} {raised : ε} :
    Yields env (Raising.require condition raised : Raising iface ε Unit)
      (demand condition raised) := by
  cases condition with
  | true => exact Yields.of_pure
  | false => exact Yields.of_throw

/-- What a handler makes of an outcome. -/
def rescue (selected : ε → Bool) (handled : ε → Except ε α) : Except ε α → Except ε α
  | .ok value => .ok value
  | .error raised => if selected raised then handled raised else .error raised

theorem Yields.catching {body : Raising iface ε α} {selected : ε → Bool}
    {handler : ε → Raising iface ε α} {outcome : Except ε α} {handled : ε → Except ε α}
    (first : Yields env body outcome)
    (second : ∀ raised, Yields env (handler raised) (handled raised)) :
    Yields env (body.catching selected handler) (rescue selected handled outcome) := by
  cases outcome with
  | ok value =>
      constructor
      · intro state
        rcases first.completes state with ⟨middle, before⟩
        refine ⟨middle, ?_⟩
        rw [Raising.catching, ExceptT.run_mk, exec_bind]
        exact ⟨.ok value, middle, before, rfl, rfl⟩
      · intro state other final ran
        rw [Raising.catching, ExceptT.run_mk, exec_bind] at ran
        rcases ran with ⟨given, middle, before, later⟩
        cases first.only state given middle before
        exact later.1
  | error raised =>
      have after : Yields env (ExceptT.mk (m := Program iface)
          (if selected raised then (handler raised).run else return .error raised))
          (rescue selected handled (.error raised)) := by
        rw [rescue]
        split
        · exact second raised
        · exact Yields.of_throw
      constructor
      · intro state
        rcases first.completes state with ⟨middle, before⟩
        rcases after.completes middle with ⟨final, later⟩
        refine ⟨final, ?_⟩
        rw [Raising.catching, ExceptT.run_mk, exec_bind]
        exact ⟨.error raised, middle, before, later⟩
      · intro state other final ran
        rw [Raising.catching, ExceptT.run_mk, exec_bind] at ran
        rcases ran with ⟨given, middle, before, later⟩
        cases first.only state given middle before
        exact after.only middle other final later

theorem yields_foldlM {γ : Type} {body : γ → α → Raising iface ε γ} {plain : γ → α → Except ε γ}
    {items : List α} {gathered : γ}
    (step : ∀ current item, Yields env (body current item) (plain current item)) :
    Yields env (items.foldlM body gathered) (items.foldlM plain gathered) := by
  induction items generalizing gathered with
  | nil => exact Yields.of_pure
  | cons item items ih =>
      rw [List.foldlM_cons, List.foldlM_cons]
      have first := step gathered item
      cases outcome : plain gathered item with
      | ok next =>
          rw [outcome] at first
          exact first.bind_ok ih
      | error raised =>
          rw [outcome] at first
          exact first.bind_error

/-- A call whose replies all mean the same. -/
theorem yields_attempt {request : iface.Call} {value : iface.Reply request → Except ε α}
    {outcome : Except ε α}
    (answered : ∀ state, ∃ reply final, env.step state request reply final)
    (same : ∀ state reply final, env.step state request reply final → value reply = outcome) :
    Yields env (Raising.attempt (.call request fun reply => .done (value reply))) outcome := by
  constructor
  · intro state
    rcases answered state with ⟨reply, final, taken⟩
    exact ⟨final, reply, final, taken, (same state reply final taken).symm, rfl⟩
  · intro state other final ran
    rcases ran with ⟨reply, middle, taken, rfl, _⟩
    exact same state reply middle taken

end Yields

/-! ## Under interference

A triple for a thread: from every state with the precondition it keeps to the
discipline, whether it returns or raises in the end.
-/

section Carries

variable {ι : Type} {system : System iface ι}

def Carries (discipline : Discipline system) (meets : system.Condition) (i : ι)
    (pre : system.State → Prop) (body : Raising iface ε α)
    (returns : α → system.State → Prop) (raises : system.State → Prop) : Prop :=
  ∀ state, pre state → Keeps discipline meets i body.run (fun outcome now =>
    match outcome with
    | .ok value => returns value now
    | .error _ => raises now) state

variable {discipline : Discipline system} {meets : system.Condition} {i : ι}
  {pre raises : system.State → Prop}

theorem Carries.bind {body : Raising iface ε α} {rest : α → Raising iface ε β}
    {middle : α → system.State → Prop} {returns : β → system.State → Prop}
    (first : Carries discipline meets i pre body middle raises)
    (second : ∀ value, Carries discipline meets i (middle value) (rest value) returns raises) :
    Carries discipline meets i pre (body >>= rest) returns raises := by
  intro state holds
  rw [ExceptT.run_bind, keeps_bind]
  refine (first state holds).closed.mono ?_
  intro outcome now closed
  cases outcome with
  | ok value => exact second value now (closed now (discipline.refl i now))
  | error raised => exact closed

theorem Carries.weaken {body : Raising iface ε α} {returns : α → system.State → Prop}
    {stronger weakerRaises : system.State → Prop} {weaker : α → system.State → Prop}
    (carries : Carries discipline meets i pre body returns raises)
    (before : ∀ state, stronger state → pre state)
    (after : ∀ value state, returns value state → weaker value state)
    (raised : ∀ state, raises state → weakerRaises state) :
    Carries discipline meets i stronger body weaker weakerRaises := by
  intro state holds
  refine (carries state (before state holds)).mono ?_
  intro outcome now ends
  cases outcome with
  | ok value => exact after value now ends
  | error error => exact raised now ends

theorem Carries.frame {body : Raising iface ε α} {returns : α → system.State → Prop}
    {known : system.State → Prop} (carries : Carries discipline meets i pre body returns raises)
    (stable : Stable discipline i known)
    (steps : ∀ now request reply after, known now → system.step i now request reply after →
      known after) :
    Carries discipline meets i (fun state => pre state ∧ known state) body
      (fun value state => returns value state ∧ known state)
      (fun state => raises state ∧ known state) := by
  intro state holds
  refine ((carries state holds.1).frame stable steps holds.2).mono ?_
  intro outcome now both
  cases outcome <;> exact both

theorem carries_pure {value : α} {returns : α → system.State → Prop}
    (stable : Stable discipline i (returns value))
    (implied : ∀ state, pre state → returns value state) :
    Carries discipline meets i pre (pure value : Raising iface ε α) returns raises :=
  fun state holds now relied => stable state now (implied state holds) relied

theorem carries_throw {raised : ε} {returns : α → system.State → Prop}
    (stable : Stable discipline i raises) (implied : ∀ state, pre state → raises state) :
    Carries discipline meets i pre (throw raised : Raising iface ε α) returns raises :=
  fun state holds now relied => stable state now (implied state holds) relied

theorem carries_require {condition : Bool} {raised : ε} {known : system.State → Prop}
    (stable : Stable discipline i known) (stableRaises : Stable discipline i raises)
    (passes : condition = true → ∀ state, pre state → known state)
    (fails : condition = false → ∀ state, pre state → raises state) :
    Carries discipline meets i pre (Raising.require condition raised : Raising iface ε Unit)
      (fun _ => known) raises := by
  cases condition with
  | true => exact carries_pure stable (passes rfl)
  | false => exact carries_throw stableRaises (fails rfl)

/-- A call that may raise, with its reply as a value or an exception. -/
theorem carries_attempt (request : iface.Call) (value : iface.Reply request → Except ε α)
    {returns : α → system.State → Prop}
    (stable : Stable discipline i pre)
    (stableAfter : ∀ result, Stable discipline i (returns result))
    (stableRaises : Stable discipline i raises)
    (step : ∀ now reply after, pre now → discipline.always now →
      system.step i now request reply after → meets i now request reply →
        discipline.Guaranteed i now after ∧
          match value reply with
          | .ok result => returns result after
          | .error _ => raises after) :
    Carries discipline meets i pre
      (Raising.attempt (.call request fun reply => .done (value reply))) returns raises := by
  intro state holds now relied always reply after taken condition
  have kept := step now reply after (stable state now holds relied) always taken condition
  refine ⟨kept.1, ?_⟩
  intro later further
  have ends := kept.2
  revert ends
  cases value reply with
  | ok result => exact fun ends => stableAfter result after later ends further
  | error raised => exact fun ends => stableRaises after later ends further

theorem Carries.catching {body : Raising iface ε α} {selected : ε → Bool}
    {handler : ε → Raising iface ε α} {returns : α → system.State → Prop}
    (caught : system.State → Prop)
    (first : Carries discipline meets i pre body returns caught)
    (handled : ∀ error, selected error = true →
      Carries discipline meets i caught (handler error) returns raises)
    (missed : ∀ state, caught state → raises state) :
    Carries discipline meets i pre (body.catching selected handler) returns raises := by
  intro state holds
  rw [Raising.catching, ExceptT.run_mk, keeps_bind]
  refine (first state holds).closed.mono ?_
  intro outcome now closed
  cases outcome with
  | ok value => exact closed
  | error error =>
      dsimp only
      split
      · next chosen => exact handled error chosen now (closed now (discipline.refl i now))
      · exact fun later relied => missed later (closed later relied)

/-- A loop over a list, with an invariant of what it has gathered. -/
theorem carries_foldlM {γ : Type} {body : γ → α → Raising iface ε γ} {items : List α}
    {gathered : γ} (invariant : γ → system.State → Prop)
    (stable : ∀ current, Stable discipline i (invariant current))
    (step : ∀ current, ∀ item ∈ items,
      Carries discipline meets i (invariant current) (body current item) invariant raises) :
    Carries discipline meets i (invariant gathered) (items.foldlM body gathered) invariant
      raises := by
  induction items generalizing gathered with
  | nil => exact carries_pure (stable gathered) fun _ holds => holds
  | cons item items ih =>
      rw [List.foldlM_cons]
      apply (step gathered item List.mem_cons_self).bind
      intro current
      exact ih fun current item mem => step current item (List.mem_cons_of_mem _ mem)

theorem carries_liftExcept {outcome : Except ε α} {returns : α → system.State → Prop}
    (stable : ∀ value, Stable discipline i (returns value))
    (stableRaises : Stable discipline i raises) :
    Carries discipline meets i
      (fun state => match outcome with
        | .ok value => returns value state
        | .error _ => raises state)
      (liftExcept outcome : Raising iface ε α) returns raises := by
  intro state holds
  cases outcome with
  | ok value => exact fun now relied => stable value state now holds relied
  | error raised => exact fun now relied => stableRaises state now holds relied

theorem Carries.observe {body : Raising iface ε α} {returns : α → system.State → Prop}
    {others : system.State → Prop} (carries : Carries discipline meets i pre body returns raises) :
    Carries discipline meets i pre body.observe
      (fun outcome state => match outcome with
        | .ok value => returns value state
        | .error _ => raises state) others := by
  intro state holds
  rw [Raising.observe, ExceptT.run_mk, keeps_bind]
  exact (carries state holds).closed

/-- A body between two calls that take and return what it needs. -/
theorem Carries.bracket {enter leave : Raising iface ε Unit} {body : Raising iface ε α}
    {inside insideRaised : system.State → Prop} {middle : α → system.State → Prop}
    {returns : α → system.State → Prop}
    (enters : Carries discipline meets i pre enter (fun _ => inside) raises)
    (carries : Carries discipline meets i inside body middle insideRaised)
    (leaves : ∀ value, Carries discipline meets i (middle value) leave (fun _ => returns value)
      raises)
    (leavesRaised : Carries discipline meets i insideRaised leave (fun _ => raises) raises)
    (stable : ∀ value, Stable discipline i (returns value))
    (stableRaises : Stable discipline i raises) :
    Carries discipline meets i pre (Raising.bracket enter leave body) returns raises := by
  apply enters.bind
  intro _
  apply carries.observe.bind
  intro outcome
  refine Carries.bind ?_ fun _ => carries_liftExcept stable stableRaises
  cases outcome with
  | ok value => exact leaves value
  | error raised => exact leavesRaised

/-- A body whose calls all keep what the thread knows. -/
theorem carries_of_onlyCalls {allowed : iface.Call → Prop} {known : system.State → Prop}
    {body : Raising iface ε α} (onlyCalls : body.run.OnlyCalls allowed)
    (stable : Stable discipline i known)
    (step : ∀ now request reply after, allowed request → known now → discipline.always now →
      system.step i now request reply after →
        discipline.Guaranteed i now after ∧ known after) :
    Carries discipline meets i known body (fun _ => known) known := by
  intro state holds
  refine (keeps_of_onlyCalls onlyCalls stable step holds).mono ?_
  intro outcome now known
  cases outcome <;> exact known

end Carries

end Foundation
