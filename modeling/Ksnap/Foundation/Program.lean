import Mathlib.Init
import Mathlib.Data.List.Basic
import Mathlib.Control.Basic

/-!
# Programs over a call interface

A program is a tree of the calls it makes: each call hands its reply to the rest
of the program. What a call does is not part of the tree. An environment gives it
a meaning, as a relation between the state before, the call, its reply and the
state after, so one program can be run against a whole operating system, against
a record of its own calls, or against any pattern of failures.

`Exec` is a completed run and `Reaches` a state somewhere along a run, which may
never complete. `Ensures` is the weakest precondition for both at once: an
invariant of every state along the run, and a postcondition of its end. A loop
that may go on for ever is cut off by `unfinished`, which has no completed run.
-/

namespace Foundation

/-- The calls a program can make, each with the type of its replies. -/
structure Interface where
  Call : Type
  Reply : Call → Type

/-- A call that was made, together with the reply it got. -/
structure Event (iface : Interface) where
  request : iface.Call
  reply : iface.Reply request

/-- What the calls of an interface do to the state of the world. -/
structure Environment (iface : Interface) where
  State : Type
  step : State → (request : iface.Call) → iface.Reply request → State → Prop

/-- A program is done, or makes a call and continues with its reply. -/
inductive Program (iface : Interface) (α : Type) : Type where
  | done (result : α)
  | call (request : iface.Call) (next : iface.Reply request → Program iface α)
  | unfinished

namespace Program

variable {iface : Interface} {α β γ : Type}

/-- Run the second program on the result of the first. -/
def andThen : Program iface α → (α → Program iface β) → Program iface β
  | .done result, rest => rest result
  | .call request next, rest => .call request fun reply => (next reply).andThen rest
  | .unfinished, _ => .unfinished

/-- The program which makes one call and returns its reply. -/
def perform (request : iface.Call) : Program iface (iface.Reply request) :=
  .call request .done

instance : Monad (Program iface) where
  pure := .done
  bind := andThen

theorem bind_eq_andThen (program : Program iface α) (rest : α → Program iface β) :
    program >>= rest = program.andThen rest := rfl

theorem andThen_done (program : Program iface α) : program.andThen .done = program := by
  induction program with
  | done result => rfl
  | call request next ih =>
      simp only [andThen]
      exact congrArg _ (funext ih)
  | unfinished => rfl

theorem andThen_assoc (program : Program iface α) (middle : α → Program iface β)
    (rest : β → Program iface γ) :
    (program.andThen middle).andThen rest =
      program.andThen fun result => (middle result).andThen rest := by
  induction program with
  | done result => rfl
  | call request next ih =>
      simp only [andThen]
      exact congrArg _ (funext ih)
  | unfinished => rfl

instance : LawfulMonad (Program iface) :=
  LawfulMonad.mk' (Program iface) andThen_done (fun _ _ => rfl) andThen_assoc

/-! ## Runs -/

/-- The program completes from a state with a result, in another state. -/
def Exec (env : Environment iface) :
    Program iface α → env.State → α → env.State → Prop
  | .done value, state, result, final => result = value ∧ final = state
  | .call request next, state, result, final =>
      ∃ reply middle, env.step state request reply middle ∧
        (next reply).Exec env middle result final
  | .unfinished, _, _, _ => False

/-- The state is met somewhere along a run of the program, completed or not. -/
def Reaches (env : Environment iface) :
    Program iface α → env.State → env.State → Prop
  | .done _, state, met => met = state
  | .call request next, state, met =>
      met = state ∨ ∃ reply middle, env.step state request reply middle ∧
        (next reply).Reaches env middle met
  | .unfinished, state, met => met = state

variable {env : Environment iface}

@[simp]
theorem exec_pure {value result : α} {state final : env.State} :
    (pure value : Program iface α).Exec env state result final ↔
      result = value ∧ final = state := Iff.rfl

@[simp]
theorem exec_perform {request : iface.Call} {state final : env.State}
    {reply : iface.Reply request} :
    (perform request).Exec env state reply final ↔ env.step state request reply final := by
  simp only [perform, Exec]
  constructor
  · rintro ⟨_, _, taken, rfl, rfl⟩
    exact taken
  · intro taken
    exact ⟨reply, final, taken, rfl, rfl⟩

theorem exec_bind {program : Program iface α} {rest : α → Program iface β}
    {state final : env.State} {result : β} :
    (program >>= rest).Exec env state result final ↔
      ∃ value middle, program.Exec env state value middle ∧
        (rest value).Exec env middle result final := by
  rw [bind_eq_andThen]
  induction program generalizing state with
  | done value => simp [andThen, Exec]
  | call request next ih =>
      simp only [andThen, Exec, ih]
      constructor
      · rintro ⟨reply, middle, taken, value, later, first, second⟩
        exact ⟨value, later, ⟨reply, middle, taken, first⟩, second⟩
      · rintro ⟨value, later, ⟨reply, middle, taken, first⟩, second⟩
        exact ⟨reply, middle, taken, value, later, first, second⟩
  | unfinished => simp [andThen, Exec]

/-! ## Weakest preconditions -/

/-- From this state every reached state satisfies the invariant, and every
completed run the postcondition. The state itself is not asked for the invariant. -/
def Ensures (env : Environment iface) (always : env.State → Prop) :
    Program iface α → (α → env.State → Prop) → env.State → Prop
  | .done value, post, state => post value state
  | .call request next, post, state =>
      ∀ reply middle, env.step state request reply middle →
        always middle ∧ (next reply).Ensures env always post middle
  | .unfinished, _, _ => True

variable {always : env.State → Prop} {state : env.State}

@[simp]
theorem ensures_pure {value : α} {post : α → env.State → Prop} :
    (pure value : Program iface α).Ensures env always post state ↔ post value state := Iff.rfl

@[simp]
theorem ensures_perform {request : iface.Call}
    {post : iface.Reply request → env.State → Prop} :
    (perform request).Ensures env always post state ↔
      ∀ reply final, env.step state request reply final → always final ∧ post reply final :=
  Iff.rfl

@[simp]
theorem ensures_bind {program : Program iface α} {rest : α → Program iface β}
    {post : β → env.State → Prop} :
    (program >>= rest).Ensures env always post state ↔
      program.Ensures env always (fun value => (rest value).Ensures env always post) state := by
  rw [bind_eq_andThen]
  induction program generalizing state with
  | done value => rfl
  | call request next ih => simp only [andThen, Ensures, ih]
  | unfinished => rfl

/-- A call in front of the rest. -/
theorem ensures_perform_bind {request : iface.Call} {rest : iface.Reply request → Program iface β}
    {post : β → env.State → Prop} :
    (perform request >>= rest).Ensures env always post state ↔
      ∀ reply middle, env.step state request reply middle →
        always middle ∧ (rest reply).Ensures env always post middle := Iff.rfl

@[simp]
theorem ensures_map {program : Program iface α} {f : α → β} {post : β → env.State → Prop} :
    (f <$> program).Ensures env always post state ↔
      program.Ensures env always (fun value => post (f value)) state := by
  rw [← bind_pure_comp, ensures_bind]
  rfl

@[simp]
theorem ensures_ite {condition : Prop} [Decidable condition] {yes no : Program iface α}
    {post : α → env.State → Prop} :
    (if condition then yes else no).Ensures env always post state ↔
      (condition → yes.Ensures env always post state) ∧
        (¬condition → no.Ensures env always post state) := by
  split <;> simp_all

theorem Ensures.mono {program : Program iface α} {post weaker : α → env.State → Prop}
    (ensures : program.Ensures env always post state)
    (implied : ∀ value final, post value final → weaker value final) :
    program.Ensures env always weaker state := by
  induction program generalizing state with
  | done value => exact implied value state ensures
  | call request next ih =>
      intro reply middle taken
      exact ⟨(ensures reply middle taken).1, ih reply (ensures reply middle taken).2⟩
  | unfinished => trivial

theorem Ensures.weaken {program : Program iface α} {post : α → env.State → Prop}
    {weaker : env.State → Prop} (ensures : program.Ensures env always post state)
    (implied : ∀ met, always met → weaker met) : program.Ensures env weaker post state := by
  induction program generalizing state with
  | done value => exact ensures
  | call request next ih =>
      intro reply middle taken
      have both := ensures reply middle taken
      exact ⟨implied middle both.1, ih reply both.2⟩
  | unfinished => trivial

theorem Ensures.exec {program : Program iface α} {post : α → env.State → Prop}
    (ensures : program.Ensures env always post state) {result : α} {final : env.State}
    (run : program.Exec env state result final) : post result final := by
  induction program generalizing state with
  | done value =>
      rcases run with ⟨rfl, rfl⟩
      exact ensures
  | call request next ih =>
      rcases run with ⟨reply, middle, taken, later⟩
      exact ih reply (ensures reply middle taken).2 later
  | unfinished => exact run.elim

theorem Ensures.reaches {program : Program iface α} {post : α → env.State → Prop}
    (ensures : program.Ensures env always post state) (initially : always state)
    {met : env.State} (reached : program.Reaches env state met) : always met := by
  induction program generalizing state with
  | done value =>
      rw [show met = state from reached]
      exact initially
  | call request next ih =>
      rcases reached with rfl | ⟨reply, middle, taken, later⟩
      · exact initially
      · have both := ensures reply middle taken
        exact ih reply both.2 both.1 later
  | unfinished =>
      rw [show met = state from reached]
      exact initially

/-- The end of a completed run is met along it. -/
theorem Exec.reaches {program : Program iface α} {result : α} {final : env.State}
    (run : program.Exec env state result final) : program.Reaches env state final := by
  induction program generalizing state with
  | done value => exact run.2
  | call request next ih =>
      rcases run with ⟨reply, middle, taken, later⟩
      exact .inr ⟨reply, middle, taken, ih reply later⟩
  | unfinished => exact run.elim

/-- The end of a run is one of its states. -/
theorem Ensures.with_always {program : Program iface α} {post : α → env.State → Prop}
    (ensures : program.Ensures env always post state) (initially : always state) :
    program.Ensures env always (fun value final => always final ∧ post value final) state := by
  induction program generalizing state with
  | done value => exact ⟨initially, ensures⟩
  | call request next ih =>
      intro reply middle taken
      have both := ensures reply middle taken
      exact ⟨both.1, ih reply both.2 both.1⟩
  | unfinished => trivial

theorem reaches_refl (program : Program iface α) : program.Reaches env state state := by
  cases program with
  | done value => rfl
  | call request next => exact .inl rfl
  | unfinished => rfl

/-- What is met along a run is reached, and its end is the end of a run. -/
theorem Ensures.with_run {program : Program iface α} {post : α → env.State → Prop}
    (ensures : program.Ensures env always post state) :
    program.Ensures env (fun met => always met ∧ program.Reaches env state met)
      (fun value final => post value final ∧ program.Exec env state value final) state := by
  induction program generalizing state with
  | done value => exact ⟨ensures, rfl, rfl⟩
  | call request next ih =>
      intro reply middle taken
      have both := ensures reply middle taken
      refine ⟨⟨both.1, .inr ⟨reply, middle, taken, reaches_refl _⟩⟩, ?_⟩
      refine ((ih reply both.2).weaken ?_).mono ?_
      · rintro met ⟨holds, reached⟩
        exact ⟨holds, .inr ⟨reply, middle, taken, reached⟩⟩
      · rintro value final ⟨holds, run⟩
        exact ⟨holds, reply, middle, taken, run⟩
  | unfinished => trivial

theorem Ensures.and {program : Program iface α} {post also : α → env.State → Prop}
    (ensures : program.Ensures env always post state)
    (ensuresToo : program.Ensures env (fun _ => True) also state) :
    program.Ensures env always (fun value final => post value final ∧ also value final) state := by
  induction program generalizing state with
  | done value => exact ⟨ensures, ensuresToo⟩
  | call request next ih =>
      intro reply middle taken
      exact ⟨(ensures reply middle taken).1,
        ih reply (ensures reply middle taken).2 (ensuresToo reply middle taken).2⟩
  | unfinished => trivial

/-- With the trivial invariant, the weakest precondition speaks of completed runs only. -/
theorem ensures_of_exec {program : Program iface α} {post : α → env.State → Prop}
    (every : ∀ result final, program.Exec env state result final → post result final) :
    program.Ensures env (fun _ => True) post state := by
  induction program generalizing state with
  | done value => exact every value state ⟨rfl, rfl⟩
  | call request next ih =>
      intro reply middle taken
      refine ⟨trivial, ih reply ?_⟩
      intro result final later
      exact every result final ⟨reply, middle, taken, later⟩
  | unfinished => trivial

/-! ## Total correctness -/

/-- Every run from this state comes to an end, and there the postcondition holds. -/
def Finishes (env : Environment iface) :
    Program iface α → (α → env.State → Prop) → env.State → Prop
  | .done value, post, state => post value state
  | .call request next, post, state =>
      ∀ reply middle, env.step state request reply middle → (next reply).Finishes env post middle
  | .unfinished, _, _ => False

theorem Finishes.mono {program : Program iface α} {post weaker : α → env.State → Prop}
    (finishes : program.Finishes env post state)
    (implied : ∀ value final, post value final → weaker value final) :
    program.Finishes env weaker state := by
  induction program generalizing state with
  | done value => exact implied value state finishes
  | call request next ih =>
      intro reply middle taken
      exact ih reply (finishes reply middle taken)
  | unfinished => exact finishes

theorem finishes_bind {program : Program iface α} {rest : α → Program iface β}
    {post : β → env.State → Prop} :
    (program >>= rest).Finishes env post state ↔
      program.Finishes env (fun value => (rest value).Finishes env post) state := by
  rw [bind_eq_andThen]
  induction program generalizing state with
  | done value => rfl
  | call request next ih => simp only [andThen, Finishes, ih]
  | unfinished => rfl

/-- Where every call is answered, a program that always finishes has a run that does. -/
theorem Finishes.exists_run {program : Program iface α} {post : α → env.State → Prop}
    (answered : ∀ state request, ∃ reply middle, env.step state request reply middle)
    (finishes : program.Finishes env post state) :
    ∃ result final, program.Exec env state result final ∧ post result final := by
  induction program generalizing state with
  | done value => exact ⟨value, state, ⟨rfl, rfl⟩, finishes⟩
  | call request next ih =>
      rcases answered state request with ⟨reply, middle, taken⟩
      rcases ih reply (finishes reply middle taken) with ⟨result, final, run, holds⟩
      exact ⟨result, final, ⟨reply, middle, taken, run⟩, holds⟩
  | unfinished => exact finishes.elim

theorem Finishes.exec {program : Program iface α} {post : α → env.State → Prop}
    (finishes : program.Finishes env post state) {result : α} {final : env.State}
    (run : program.Exec env state result final) : post result final := by
  induction program generalizing state with
  | done value =>
      rcases run with ⟨rfl, rfl⟩
      exact finishes
  | call request next ih =>
      rcases run with ⟨reply, middle, taken, later⟩
      exact ih reply (finishes reply middle taken) later
  | unfinished => exact run.elim

/-! ## Attempts

A program that may give up returns an option. `Attempt` sequences such programs:
the first failure ends the whole attempt.
-/

/-- A program that either succeeds with a value or fails. -/
abbrev Attempt (iface : Interface) (α : Type) : Type := OptionT (Program iface) α

/-- One call of an attempt. The call itself always replies. -/
def ask (request : iface.Call) : Attempt iface (iface.Reply request) :=
  OptionT.lift (perform request)

/-- Fail unless the condition holds. -/
def require (condition : Bool) : Attempt iface Unit :=
  if condition then pure () else failure

/-- Fail when there is no value. -/
def give (result : Option α) : Attempt iface α :=
  OptionT.mk (pure result)

section Attempts

variable {post : Option α → env.State → Prop}

@[simp]
theorem ensures_attempt_pure {value : α} :
    (pure value : Attempt iface α).run.Ensures env always post state ↔
      post (some value) state := Iff.rfl

@[simp]
theorem ensures_attempt_failure :
    (failure : Attempt iface α).run.Ensures env always post state ↔ post none state := Iff.rfl

@[simp]
theorem ensures_ask {request : iface.Call}
    {post : Option (iface.Reply request) → env.State → Prop} :
    (ask request).run.Ensures env always post state ↔
      ∀ reply final, env.step state request reply final →
        always final ∧ post (some reply) final := Iff.rfl

@[simp]
theorem ensures_require {condition : Bool} {post : Option Unit → env.State → Prop} :
    (require condition : Attempt iface Unit).run.Ensures env always post state ↔
      (condition = true → post (some ()) state) ∧ (condition = false → post none state) := by
  cases condition <;> simp [require]

@[simp]
theorem ensures_give {result : Option α} :
    (give result : Attempt iface α).run.Ensures env always post state ↔ post result state :=
  Iff.rfl

@[simp]
theorem ensures_attempt_bind {attempt : Attempt iface α} {rest : α → Attempt iface β}
    {post : Option β → env.State → Prop} :
    (attempt >>= rest).run.Ensures env always post state ↔
      attempt.run.Ensures env always (fun outcome middle =>
        match outcome with
        | some value => (rest value).run.Ensures env always post middle
        | none => post none middle) state := by
  rw [OptionT.run_bind, Option.elimM, ensures_bind]
  constructor
  · intro ensures
    refine ensures.mono ?_
    intro outcome middle holds
    cases outcome <;> exact holds
  · intro ensures
    refine ensures.mono ?_
    intro outcome middle holds
    cases outcome <;> exact holds

/-! The first step of an attempt, when it is a call, a check or a value. -/

theorem ensures_ask_bind {request : iface.Call} {rest : iface.Reply request → Attempt iface β}
    {post : Option β → env.State → Prop} :
    (ask request >>= rest).run.Ensures env always post state ↔
      ∀ reply middle, env.step state request reply middle →
        always middle ∧ (rest reply).run.Ensures env always post middle := by
  rw [ensures_attempt_bind, ensures_ask]

theorem ensures_lift_bind {program : Program iface α} {rest : α → Attempt iface β}
    {post : Option β → env.State → Prop} :
    (OptionT.lift program >>= rest).run.Ensures env always post state ↔
      program.Ensures env always
        (fun value => (rest value).run.Ensures env always post) state := by
  rw [ensures_attempt_bind, OptionT.run_lift, ensures_bind]
  rfl

theorem ensures_require_bind {condition : Bool} {rest : Unit → Attempt iface β}
    {post : Option β → env.State → Prop} :
    (require condition >>= rest).run.Ensures env always post state ↔
      (condition = true → (rest ()).run.Ensures env always post state) ∧
        (condition = false → post none state) := by
  rw [ensures_attempt_bind, ensures_require]

theorem ensures_give_bind {result : Option α} {rest : α → Attempt iface β}
    {post : Option β → env.State → Prop} :
    (give result >>= rest).run.Ensures env always post state ↔
      (∀ value, result = some value → (rest value).run.Ensures env always post state) ∧
        (result = none → post none state) := by
  rw [ensures_attempt_bind, ensures_give]
  cases result <;> simp

/-- A call whose reply is checked, when nothing is claimed of an attempt that fails. -/
theorem ensures_checked_bind {request : iface.Call} {check : iface.Reply request → Bool}
    {rest : Unit → Attempt iface β} {post : Option β → env.State → Prop}
    (fails : ∀ final, post none final)
    (keeps : ∀ reply middle, env.step state request reply middle → always middle)
    (passes : ∀ reply middle, env.step state request reply middle → check reply = true →
      (rest ()).run.Ensures env always post middle) :
    (ask request >>= fun reply => require (check reply) >>= rest).run.Ensures env always post
      state := by
  rw [ensures_ask_bind]
  intro reply middle taken
  refine ⟨keeps reply middle taken, ?_⟩
  rw [ensures_require_bind]
  exact ⟨passes reply middle taken, fun _ => fails middle⟩

/-- A call whose reply may hold no value, when nothing is claimed of an attempt that fails. -/
theorem ensures_given_bind {request : iface.Call} {value : iface.Reply request → Option α}
    {rest : α → Attempt iface β} {post : Option β → env.State → Prop}
    (fails : ∀ final, post none final)
    (keeps : ∀ reply middle, env.step state request reply middle → always middle)
    (passes : ∀ reply middle, env.step state request reply middle → ∀ result,
      value reply = some result → (rest result).run.Ensures env always post middle) :
    (ask request >>= fun reply => give (value reply) >>= rest).run.Ensures env always post
      state := by
  rw [ensures_ask_bind]
  intro reply middle taken
  refine ⟨keeps reply middle taken, ?_⟩
  rw [ensures_give_bind]
  exact ⟨passes reply middle taken, fun _ => fails middle⟩

/-- An attempt in front of the rest, when only the success of both matters. -/
theorem ensures_bind_success {attempt : Attempt iface α} {rest : α → Attempt iface β}
    {holds goal : env.State → Prop}
    (first : attempt.run.Ensures env always
      (fun outcome final => outcome.isSome → holds final) state)
    (second : ∀ value middle, holds middle → (rest value).run.Ensures env always
      (fun outcome final => outcome.isSome → goal final) middle) :
    (attempt >>= rest).run.Ensures env always
      (fun outcome final => outcome.isSome → goal final) state := by
  rw [ensures_attempt_bind]
  refine first.mono fun outcome middle held => ?_
  cases outcome with
  | none => simp
  | some value => exact second value middle (held rfl)

/-- The rule for a loop over a list, with an invariant of what is already done:
a failing step is final, and a successful one extends the part that is done. -/
theorem ensures_forM {ι : Type} {items : List ι} {body : ι → Attempt iface PUnit}
    {post : Option PUnit → env.State → Prop} (invariant : List ι → env.State → Prop)
    (initially : invariant [] state)
    (step : ∀ before item after middle, items = before ++ item :: after →
      invariant before middle →
        (body item).run.Ensures env always (fun outcome final =>
          match outcome with
          | some _ => invariant (before ++ [item]) final
          | none => post none final) middle)
    (finally_ : ∀ final, invariant items final → post (some ()) final) :
    (forM items body).run.Ensures env always post state := by
  suffices general : ∀ before after middle, items = before ++ after →
      invariant before middle → (forM after body).run.Ensures env always post middle from
    general [] items state rfl initially
  intro before after
  induction after generalizing before with
  | nil =>
      intro middle split holds
      rw [List.append_nil] at split
      subst split
      exact finally_ middle holds
  | cons item after ih =>
      intro middle split holds
      rw [List.forM_cons, ensures_attempt_bind]
      refine (step before item after middle split holds).mono ?_
      intro outcome final continued
      cases outcome with
      | none => exact continued
      | some _ => exact ih (before ++ [item]) final (by simpa using split) continued

/-! The completed runs of an attempt, step by step. -/

theorem exec_attempt_bind {attempt : Attempt iface α} {rest : α → Attempt iface β}
    {final : env.State} {outcome : Option β} :
    (attempt >>= rest).run.Exec env state outcome final ↔
      ∃ first middle, attempt.run.Exec env state first middle ∧
        match first with
        | some value => (rest value).run.Exec env middle outcome final
        | none => outcome = none ∧ final = middle := by
  rw [OptionT.run_bind, Option.elimM, exec_bind]
  constructor
  · rintro ⟨first, middle, taken, later⟩
    refine ⟨first, middle, taken, ?_⟩
    cases first <;> exact later
  · rintro ⟨first, middle, taken, later⟩
    refine ⟨first, middle, taken, ?_⟩
    cases first <;> exact later

theorem exec_ask_bind {request : iface.Call} {rest : iface.Reply request → Attempt iface β}
    {final : env.State} {outcome : Option β} :
    (ask request >>= rest).run.Exec env state outcome final ↔
      ∃ reply middle, env.step state request reply middle ∧
        (rest reply).run.Exec env middle outcome final := Iff.rfl

theorem exec_give_bind {given : Option α} {rest : α → Attempt iface β} {final : env.State}
    {result : β} :
    (give given >>= rest).run.Exec env state (some result) final ↔
      ∃ value, given = some value ∧ (rest value).run.Exec env state (some result) final := by
  cases given with
  | none =>
      constructor
      · rintro ⟨ends, -⟩
        cases ends
      · rintro ⟨_, absent, -⟩
        cases absent
  | some value =>
      constructor
      · intro run
        exact ⟨value, rfl, run⟩
      · rintro ⟨_, same, run⟩
        cases same
        exact run

theorem exec_require_bind {condition : Bool} {rest : Unit → Attempt iface β}
    {final : env.State} {outcome : Option β} :
    (require condition >>= rest).run.Exec env state outcome final ↔
      if condition then (rest ()).run.Exec env state outcome final
      else outcome = none ∧ final = state := by
  cases condition <;> exact Iff.rfl

end Attempts

/-! ## The calls of a program -/

/-- Every call the program can make is an allowed one. -/
def OnlyCalls (allowed : iface.Call → Prop) : Program iface α → Prop
  | .done _ => True
  | .call request next => allowed request ∧ ∀ reply, (next reply).OnlyCalls allowed
  | .unfinished => True

section Calls

variable {allowed : iface.Call → Prop}

@[simp]
theorem onlyCalls_pure {value : α} : (pure value : Program iface α).OnlyCalls allowed :=
  trivial

@[simp]
theorem onlyCalls_perform {request : iface.Call} :
    (perform request).OnlyCalls allowed ↔ allowed request := by
  simp [perform, OnlyCalls]

theorem OnlyCalls.mono {program : Program iface α} {more : iface.Call → Prop}
    (onlyCalls : program.OnlyCalls allowed) (implied : ∀ request, allowed request → more request) :
    program.OnlyCalls more := by
  induction program with
  | done value => trivial
  | call request next ih =>
      exact ⟨implied request onlyCalls.1, fun reply => ih reply (onlyCalls.2 reply)⟩
  | unfinished => trivial

theorem OnlyCalls.bind {program : Program iface α} {rest : α → Program iface β}
    (first : program.OnlyCalls allowed) (second : ∀ value, (rest value).OnlyCalls allowed) :
    (program >>= rest).OnlyCalls allowed := by
  rw [bind_eq_andThen]
  induction program with
  | done value => exact second value
  | call request next ih => exact ⟨first.1, fun reply => ih reply (first.2 reply)⟩
  | unfinished => trivial

theorem onlyCalls_ask {request : iface.Call} (holds : allowed request) :
    (ask request).run.OnlyCalls allowed :=
  ⟨holds, fun _ => trivial⟩

theorem onlyCalls_require {condition : Bool} :
    (require condition : Attempt iface Unit).run.OnlyCalls allowed := by
  cases condition <;> exact trivial

theorem onlyCalls_give {result : Option α} :
    (give result : Attempt iface α).run.OnlyCalls allowed :=
  trivial

theorem OnlyCalls.attempt_bind {attempt : Attempt iface α} {rest : α → Attempt iface β}
    (first : attempt.run.OnlyCalls allowed)
    (second : ∀ value, (rest value).run.OnlyCalls allowed) :
    (attempt >>= rest).run.OnlyCalls allowed := by
  rw [OptionT.run_bind]
  refine OnlyCalls.bind first ?_
  intro outcome
  cases outcome with
  | none => exact trivial
  | some value => exact second value

theorem onlyCalls_forM {ι : Type} {items : List ι} {body : ι → Attempt iface PUnit}
    (each : ∀ item, (body item).run.OnlyCalls allowed) :
    (forM items body).run.OnlyCalls allowed := by
  induction items with
  | nil => exact trivial
  | cons item items ih =>
      rw [List.forM_cons]
      exact OnlyCalls.attempt_bind (each item) fun _ => ih

/-- An invariant that every allowed call keeps holds all along. -/
theorem OnlyCalls.ensures {program : Program iface α}
    (onlyCalls : program.OnlyCalls allowed)
    (keeps : ∀ state request reply final, allowed request → always state →
      env.step state request reply final → always final)
    (initially : always state) :
    program.Ensures env always (fun _ final => always final) state := by
  induction program generalizing state with
  | done value => exact initially
  | call request next ih =>
      intro reply middle taken
      have kept := keeps state request reply middle onlyCalls.1 initially taken
      exact ⟨kept, ih reply (onlyCalls.2 reply) kept⟩
  | unfinished => trivial

end Calls

/-! ## Environments -/

/-- The environment which allows every reply and records the calls made. -/
abbrev recording (iface : Interface) : Environment iface where
  State := List (Event iface)
  step := fun trace request reply trace' => trace' = trace ++ [⟨request, reply⟩]

/-- An environment together with the record of the calls made in it. -/
abbrev tracing (env : Environment iface) : Environment iface where
  State := List (Event iface) × env.State
  step := fun state request reply final =>
    final.1 = state.1 ++ [⟨request, reply⟩] ∧ env.step state.2 request reply final.2

/-- A record only grows. -/
theorem ensures_recording_grows (program : Program iface α) (before : List (Event iface)) :
    program.Ensures (recording iface) (fun _ => True) (fun _ after => before <+: after) before := by
  induction program generalizing before with
  | done value => exact List.prefix_rfl
  | call request next ih =>
      rintro reply _ rfl
      exact ⟨trivial, (ih reply _).mono fun _ _ later => (List.prefix_append _ _).trans later⟩
  | unfinished => trivial

/-- What a program adds to a record are calls it can make. -/
theorem OnlyCalls.ensures_record {allowed : iface.Call → Prop} {program : Program iface α}
    (onlyCalls : program.OnlyCalls allowed) (before : List (Event iface)) :
    program.Ensures (recording iface) (fun _ => True)
      (fun _ after => ∃ new, after = before ++ new ∧ ∀ event ∈ new, allowed event.request)
      before := by
  induction program generalizing before with
  | done value => exact ⟨[], by simp⟩
  | call request next ih =>
      rintro reply _ rfl
      refine ⟨trivial, (ih reply (onlyCalls.2 reply) _).mono ?_⟩
      rintro _ _ ⟨new, rfl, each⟩
      refine ⟨⟨request, reply⟩ :: new, by simp, ?_⟩
      intro event mem
      rcases List.mem_cons.mp mem with rfl | later
      · exact onlyCalls.1
      · exact each event later
  | unfinished => trivial

/-- A run in one environment is a run in another that allows all its steps. -/
theorem Exec.simulate (other : Environment iface) (view : env.State → other.State)
    (allowed : ∀ state request reply final, env.step state request reply final →
      other.step (view state) request reply (view final))
    {program : Program iface α} {result : α} {final : env.State}
    (run : program.Exec env state result final) :
    program.Exec other (view state) result (view final) := by
  induction program generalizing state with
  | done value =>
      rcases run with ⟨rfl, rfl⟩
      exact ⟨rfl, rfl⟩
  | call request next ih =>
      rcases run with ⟨reply, middle, taken, later⟩
      exact ⟨reply, view middle, allowed _ _ _ _ taken, ih reply later⟩
  | unfinished => exact run

/-- What holds in an environment that allows more steps holds in one that allows fewer. -/
theorem Ensures.simulate (other : Environment iface) (view : env.State → other.State)
    (allowed : ∀ state request reply final, env.step state request reply final →
      other.step (view state) request reply (view final))
    {program : Program iface α} {always : other.State → Prop} {post : α → other.State → Prop}
    (ensures : program.Ensures other always post (view state)) :
    program.Ensures env (fun met => always (view met))
      (fun result final => post result (view final))
      state := by
  induction program generalizing state with
  | done value => exact ensures
  | call request next ih =>
      intro reply middle taken
      have both := ensures reply (view middle) (allowed _ _ _ _ taken)
      exact ⟨both.1, ih reply both.2⟩
  | unfinished => trivial

/-- The record of a traced run is a run of its own. -/
theorem Exec.record {start final : (tracing env).State} {program : Program iface α} {result : α}
    (run : program.Exec (tracing env) start result final) :
    program.Exec (recording iface) start.1 result final.1 := by
  have keepsRecord : ∀ state request reply final, (tracing env).step state request reply final →
      (recording iface).step state.1 request reply final.1 := by
    intro state request reply final taken
    exact taken.1
  exact run.simulate (recording iface) Prod.fst keepsRecord

/-- A traced run without its record. -/
theorem Exec.untraced {start final : (tracing env).State} {program : Program iface α} {result : α}
    (run : program.Exec (tracing env) start result final) :
    program.Exec env start.2 result final.2 := by
  have forgets : ∀ state request reply final, (tracing env).step state request reply final →
      env.step state.2 request reply final.2 := by
    intro state request reply final taken
    exact taken.2
  exact run.simulate env Prod.snd forgets

/-- Every run has a record. -/
theorem Exec.traced {program : Program iface α} {result : α} {final : env.State}
    (run : program.Exec env state result final) (before : List (Event iface)) :
    ∃ trace, program.Exec (tracing env) (before, state) result (trace, final) := by
  induction program generalizing state before with
  | done value =>
      rcases run with ⟨rfl, rfl⟩
      exact ⟨before, rfl, rfl⟩
  | call request next ih =>
      rcases run with ⟨reply, middle, taken, later⟩
      rcases ih reply later (before ++ [⟨request, reply⟩]) with ⟨trace, recorded⟩
      exact ⟨trace, reply, (before ++ [⟨request, reply⟩], middle), ⟨rfl, taken⟩, recorded⟩
  | unfinished => exact run.elim

/-- What every step keeps holds all along, whatever the program. -/
theorem ensures_invariant {keeps : env.State → Prop}
    (step : ∀ state request reply final, keeps state →
      env.step state request reply final → keeps final)
    (program : Program iface α) (initially : keeps state) :
    program.Ensures env keeps (fun _ => keeps) state := by
  induction program generalizing state with
  | done value => exact initially
  | call request next ih =>
      intro reply middle taken
      have kept := step state request reply middle initially taken
      exact ⟨kept, ih reply kept⟩
  | unfinished => trivial

/-- What every step keeps, a whole run keeps. -/
theorem Exec.invariant {keeps : env.State → Prop}
    (step : ∀ state request reply final, keeps state →
      env.step state request reply final → keeps final)
    {program : Program iface α} {result : α} {final : env.State}
    (run : program.Exec env state result final) (initially : keeps state) : keeps final :=
  (ensures_invariant step program initially).exec run

/-- A deterministic environment, given by a function that can be run. -/
def evaluate {σ : Type} (handle : σ → (request : iface.Call) → iface.Reply request × σ) :
    Program iface α → σ → Option (α × σ)
  | .done result, state => some (result, state)
  | .call request next, state =>
      (next (handle state request).1).evaluate handle (handle state request).2
  | .unfinished, _ => none

/-- What the evaluation of a program shows is a run of it, in every environment that
allows the steps of the handler. -/
theorem exec_of_evaluate
    {handle : env.State → (request : iface.Call) → iface.Reply request × env.State}
    (allowed : ∀ state request,
      env.step state request (handle state request).1 (handle state request).2)
    {program : Program iface α} {result : α} {final : env.State}
    (evaluated : program.evaluate handle state = some (result, final)) :
    program.Exec env state result final := by
  induction program generalizing state with
  | done value =>
      simp only [evaluate, Option.some.injEq, Prod.mk.injEq] at evaluated
      exact ⟨evaluated.1.symm, evaluated.2.symm⟩
  | call request next ih => exact ⟨_, _, allowed state request, ih _ evaluated⟩
  | unfinished => simp [evaluate] at evaluated

/-- A run whose answers are looked up one by one, as long as there are any. -/
def follow {σ : Type} (answer : σ → (request : iface.Call) → Option (iface.Reply request × σ)) :
    Program iface α → σ → Option (α × σ)
  | .done result, state => some (result, state)
  | .call request next, state =>
      match answer state request with
      | some (reply, after) => (next reply).follow answer after
      | none => none
  | .unfinished, _ => none

theorem exec_of_follow
    {answer : env.State → (request : iface.Call) → Option (iface.Reply request × env.State)}
    (allowed : ∀ state request reply after, answer state request = some (reply, after) →
      env.step state request reply after)
    {program : Program iface α} {result : α} {final : env.State}
    (followed : program.follow answer state = some (result, final)) :
    program.Exec env state result final := by
  induction program generalizing state with
  | done value =>
      cases followed
      exact ⟨rfl, rfl⟩
  | call request next ih =>
      simp only [follow] at followed
      split at followed
      · next reply after answered =>
          exact ⟨reply, after, allowed state request reply after answered, ih reply followed⟩
      · cases followed
  | unfinished => cases followed

end Program

end Foundation
