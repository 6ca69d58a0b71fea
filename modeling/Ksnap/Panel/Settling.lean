import Ksnap.Panel.App

/-!
# Getting to the engine

A request settles if every run of it gets to the engine or ends in an exception that has
a handler. There is one rule for each way a request begins: what does not run the engine
has to be handled where it raises, and the rest has to settle where it returns.
-/

namespace Ksnap.Panel

open Foundation Raising Program

/-- Every run makes a call of this kind, or ends in an exception that has a handler. -/
def Settles {α : Type} (answers : (request : PanelCall) → request.Reply → Prop)
    (reaches : Event PanelInterface → Bool) (body : Request α) : Prop :=
  ∀ outcome trace, body.run.Exec (answering answers) [] outcome trace →
    trace.any reaches = true ∨ ∃ raised, outcome = .error raised ∧ hasHandler raised = true

/-- Only exceptions that have a handler are raised. -/
def Handled {α : Type} (outcome : Except PythonError α) : Prop :=
  ∀ raised, outcome = .error raised → hasHandler raised = true

/-- The calls that run the engine. -/
def runsEngine : PanelCall → Bool
  | .run _ => true
  | .popen _ => true
  | _ => false

/-- The calls of the engine that a dump reaches. -/
def checksPid : Event PanelInterface → Bool
  | ⟨.run ⟨_, _, .check (some _)⟩, _⟩ => true
  | _ => false

/-- The calls of the engine that a restore reaches. -/
def startsRestore : Event PanelInterface → Bool
  | ⟨.popen ⟨_, _, .restore _ _⟩, _⟩ => true
  | _ => false

section Rules

variable {α β : Type} {answers : (request : PanelCall) → request.Reply → Prop}
  {reaches : Event PanelInterface → Bool}

/-- What a program does in `answering` does not depend on what came before. -/
theorem exec_answering {program : Program PanelInterface α}
    {before after : List (Event PanelInterface)} {result : α}
    (ran : program.Exec (answering answers) before result after) :
    ∃ new, after = before ++ new ∧
      ∀ other, program.Exec (answering answers) other result (other ++ new) := by
  induction program generalizing before with
  | done value =>
      rcases ran with ⟨rfl, rfl⟩
      exact ⟨[], (List.append_nil _).symm, fun other => ⟨rfl, List.append_nil _⟩⟩
  | call request next ih =>
      rcases ran with ⟨reply, middle, ⟨answered, rfl⟩, later⟩
      rcases ih reply later with ⟨new, rfl, others⟩
      refine ⟨⟨request, reply⟩ :: new, by rw [List.append_assoc, List.singleton_append], ?_⟩
      intro other
      refine ⟨reply, other ++ [⟨request, reply⟩], ⟨answered, rfl⟩, ?_⟩
      have again := others (other ++ [⟨request, reply⟩])
      rwa [List.append_assoc, List.singleton_append] at again
  | unfinished => exact ran.elim

/-- None of the calls runs the engine. -/
def WithoutEngine (body : Request α) : Prop :=
  body.run.OnlyCalls fun request => runsEngine request = false

theorem any_eq_false_of_onlyCalls {program : Program PanelInterface α}
    (only : ∀ event, reaches event = true → runsEngine event.request = true)
    (quiet : program.OnlyCalls fun request => runsEngine request = false)
    {before after : List (Event PanelInterface)} {result : α}
    (ran : program.Exec (answering answers) before result after)
    (none : before.any reaches = false) : after.any reaches = false := by
  induction program generalizing before with
  | done value =>
      rcases ran with ⟨rfl, rfl⟩
      exact none
  | call request next ih =>
      rcases ran with ⟨reply, middle, ⟨answered, rfl⟩, later⟩
      have missed : reaches ⟨request, reply⟩ = false := by
        by_contra reached
        have runs := only ⟨request, reply⟩ (by simpa using reached)
        rw [quiet.1] at runs
        cases runs
      apply ih reply (quiet.2 reply) later
      rw [List.any_append, none, List.any_cons, missed]
      rfl
  | unfinished => exact ran.elim

/-- A first part with one outcome settles itself exactly if that outcome is handled, and
leaves the rest to what comes behind it. -/
theorem settles_bind_iff {body : Request α} {rest : α → Request β}
    {outcome : Except PythonError α}
    (only : ∀ event, reaches event = true → runsEngine event.request = true)
    (yields : Yields (answering answers) body outcome) (quiet : WithoutEngine body) :
    Settles answers reaches (body >>= rest) ↔
      Handled outcome ∧ ∀ value, outcome = .ok value → Settles answers reaches (rest value) := by
  rcases yields.completes [] with ⟨middle, before⟩
  have nothing := any_eq_false_of_onlyCalls only quiet before rfl
  constructor
  · intro settles
    refine ⟨?_, ?_⟩
    · rintro raised rfl
      have whole := settles (.error raised) middle
        (exec_raising_bind.mpr (.inr ⟨raised, before, rfl⟩))
      rcases whole with reached | ⟨other, same, handled⟩
      · rw [nothing] at reached
        cases reached
      · cases same
        exact handled
    · rintro value rfl last trace later
      rcases exec_answering later with ⟨_, rfl, others⟩
      have whole := settles last (middle ++ trace)
        (exec_raising_bind.mpr (.inl ⟨value, middle, before, others middle⟩))
      rw [List.any_append, nothing, Bool.false_or] at whole
      exact whole
  · rintro ⟨handled, settles⟩ last trace ran
    rcases exec_raising_bind.mp ran with ⟨value, middle, first, later⟩ | ⟨raised, first, rfl⟩
    · have same := yields.only _ _ _ first
      rcases exec_answering later with ⟨new, rfl, others⟩
      rcases settles value same.symm last new (others []) with reached | ended
      · left
        rw [List.any_append, reached, Bool.or_true]
      · exact .inr ended
    · have same := yields.only _ _ _ first
      exact .inr ⟨raised, rfl, handled raised same.symm⟩

theorem settles_liftExcept_iff {plain : Except PythonError α} {rest : α → Request β}
    (only : ∀ event, reaches event = true → runsEngine event.request = true) :
    Settles answers reaches (liftExcept plain >>= rest) ↔
      Handled plain ∧ ∀ value, plain = .ok value → Settles answers reaches (rest value) :=
  settles_bind_iff only Yields.of_liftExcept onlyCalls_liftExcept

/-- A call with one answer, which does not run the engine. -/
theorem settles_attempt_iff {request : PanelCall} {value : request.Reply → Except PythonError α}
    {rest : α → Request β} {outcome : Except PythonError α}
    (only : ∀ event, reaches event = true → runsEngine event.request = true)
    (yields : Yields (answering answers) (request.attempt value) outcome)
    (quiet : runsEngine request = false) :
    Settles answers reaches (request.attempt value >>= rest) ↔
      Handled outcome ∧ ∀ result, outcome = .ok result → Settles answers reaches (rest result) :=
  settles_bind_iff only yields (PanelCall.onlyCalls_attempt quiet)

theorem settles_require_iff {condition : Bool} {raised : PythonError} {rest : Unit → Request β}
    (handled : hasHandler raised = true) :
    Settles answers reaches (require condition raised >>= rest) ↔
      (condition = true → Settles answers reaches (rest ())) := by
  cases condition with
  | true => exact ⟨fun settles _ => settles, fun settles => settles rfl⟩
  | false =>
      constructor
      · exact fun _ isTrue => Bool.noConfusion isTrue
      · rintro _ outcome trace ⟨rfl, rfl⟩
        exact .inr ⟨raised, rfl, handled⟩

/-- A body that ends in any case. -/
theorem settles_throw {raised : PythonError} (handled : hasHandler raised = true) :
    Settles answers reaches (throw raised : Request β) := by
  rintro outcome trace ⟨rfl, rfl⟩
  exact .inr ⟨raised, rfl, handled⟩

/-- A first part that stays clear of the engine, with more than one outcome. -/
theorem settles_of_endsIn {body : Request α} {rest : α → Request β}
    (ends : EndsIn (answering answers) body (fun _ => True) (hasHandler · = true))
    (settles : ∀ value, Settles answers reaches (rest value)) :
    Settles answers reaches (body >>= rest) := by
  intro outcome trace ran
  rcases exec_raising_bind.mp ran with ⟨value, middle, first, later⟩ | ⟨raised, first, rfl⟩
  · rcases exec_answering later with ⟨new, rfl, others⟩
    rcases settles value outcome new (others []) with reached | ended
    · left
      rw [List.any_append, reached, Bool.or_true]
    · exact .inr ended
  · exact .inr ⟨raised, rfl, ends.exec first⟩

/-- A call that raises nothing and may have any answer, and does not run the engine. -/
theorem settles_ask_iff {request : PanelCall} {value : request.Reply → α} {rest : α → Request β}
    (only : ∀ event, reaches event = true → runsEngine event.request = true)
    (any : ∀ reply, answers request reply) (quiet : runsEngine request = false) :
    Settles answers reaches (request.ask value >>= rest) ↔
      ∀ reply, Settles answers reaches (rest (value reply)) := by
  constructor
  · intro settles reply outcome trace ran
    rcases exec_answering ran with ⟨_, rfl, others⟩
    have asked : (request.ask value).run.Exec (answering answers) [] (.ok (value reply))
        [⟨request, reply⟩] :=
      ⟨reply, _, ⟨any reply, rfl⟩, rfl, rfl⟩
    have missed : reaches ⟨request, reply⟩ = false := by
      by_contra reached
      have runs := only ⟨request, reply⟩ (by simpa using reached)
      rw [quiet] at runs
      cases runs
    have whole := settles outcome ([⟨request, reply⟩] ++ trace)
      (exec_raising_bind.mpr (.inl ⟨_, _, asked, others _⟩))
    rw [List.any_append, List.any_cons, missed] at whole
    exact whole
  · rintro settles outcome trace ⟨reply, middle, ⟨_, rfl⟩, later⟩
    rcases exec_answering later with ⟨new, rfl, others⟩
    rcases settles reply outcome new (others []) with reached | ended
    · left
      rw [List.any_append, reached, Bool.or_true]
    · exact .inr ended

/-- Every run makes a call of this kind. -/
def Reaches (answers : (request : PanelCall) → request.Reply → Prop)
    (reaches : Event PanelInterface → Bool) (program : Program PanelInterface α) : Prop :=
  ∀ outcome trace, program.Exec (answering answers) [] outcome trace → trace.any reaches = true

theorem Reaches.settles {body : Request α} (reached : Reaches answers reaches body.run) :
    Settles answers reaches body :=
  fun outcome trace ran => .inl (reached outcome trace ran)

theorem reaches_attempt {request : PanelCall} {value : request.Reply → Except PythonError α}
    (reached : ∀ reply, reaches ⟨request, reply⟩ = true) :
    Reaches answers reaches (request.attempt value).run := by
  rintro outcome trace ⟨reply, middle, ⟨answered, rfl⟩, rfl, rfl⟩
  rw [List.nil_append, List.any_cons, reached reply, Bool.true_or]

theorem Reaches.andThen {program : Program PanelInterface α} {rest : α → Program PanelInterface β}
    (reached : Reaches answers reaches program) : Reaches answers reaches (program >>= rest) := by
  intro outcome trace ran
  rcases exec_bind.mp ran with ⟨value, middle, first, later⟩
  rcases exec_answering later with ⟨new, rfl, -⟩
  rw [List.any_append, reached value middle first, Bool.true_or]

theorem Reaches.bind {body : Request α} {rest : α → Request β}
    (reached : Reaches answers reaches body.run) :
    Reaches answers reaches (body >>= rest).run := by
  rw [ExceptT.run_bind]
  exact reached.andThen

theorem Reaches.catching {body : Request α} {selected : PythonError → Bool}
    {handler : PythonError → Request α} (reached : Reaches answers reaches body.run) :
    Reaches answers reaches (body.catching selected handler).run := by
  rw [Raising.catching, ExceptT.run_mk]
  exact reached.andThen

end Rules

end Ksnap.Panel
