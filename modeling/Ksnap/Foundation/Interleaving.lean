import Ksnap.Foundation.Program
import Mathlib.Logic.Function.Basic
import Mathlib.Logic.Relation

/-!
# Threads that share a state

A pool is a family of programs over one shared state. In every step one thread makes
its next call, or the state drifts on its own. A thread that has not made a call yet
has not begun, so a family of programs stands for requests that arrive at any time.

The proof rule is rely-guarantee: a thread's proof may use what the other threads'
calls never do to the state, and has to show the same of its own calls. `Keeps` is the
weakest precondition under such interference, and `Pool.reaches_keeps` says that it
holds all along every interleaving.
-/

namespace Foundation

/-- What the calls of a thread do to the shared state, and what happens on its own. -/
structure System (iface : Interface) (ι : Type) where
  State : Type
  step : ι → State → (request : iface.Call) → iface.Reply request → State → Prop
  drift : State → State → Prop

/-- A state that all threads share, and what each of them has still to do. -/
structure Pool {iface : Interface} {ι : Type} (system : System iface ι) (α : Type) where
  shared : system.State
  thread : ι → Program iface α

variable {iface : Interface} {ι : Type} {system : System iface ι} {α β : Type}

/-- A condition on the calls of a run: who calls, in which state, and with which reply. -/
abbrev System.Condition (system : System iface ι) : Type :=
  ι → system.State → (request : iface.Call) → iface.Reply request → Prop

namespace Pool

variable [DecidableEq ι]

/-- One thread makes its next call under the condition, or the state drifts. -/
inductive Step (meets : system.Condition) : Pool system α → Pool system α → Prop where
  | call {pool : Pool system α} (i : ι) {request : iface.Call}
      {next : iface.Reply request → Program iface α} {reply : iface.Reply request}
      {after : system.State} (turn : pool.thread i = .call request next)
      (taken : system.step i pool.shared request reply after)
      (condition : meets i pool.shared request reply) :
      Step meets pool
        { shared := after, thread := Function.update pool.thread i (next reply) }
  | drift {pool : Pool system α} {after : system.State}
      (drifted : system.drift pool.shared after) :
      Step meets pool { pool with shared := after }

/-- The interleavings whose calls all meet the condition. -/
abbrev Reaches (meets : system.Condition) : Pool system α → Pool system α → Prop :=
  Relation.ReflTransGen (Step meets)

/-- Run the threads in the given order, one call each, with a handler that answers the
calls or blocks. -/
def schedule (handle : ι → system.State → (request : iface.Call) →
    Option (iface.Reply request × system.State)) :
    List ι → Pool system α → Option (Pool system α)
  | [], pool => some pool
  | i :: order, pool =>
      match pool.thread i with
      | .call request next =>
          match handle i pool.shared request with
          | some (reply, after) =>
              schedule handle order
                { shared := after, thread := Function.update pool.thread i (next reply) }
          | none => none
      | _ => none

/-- What a schedule shows is an interleaving. -/
theorem reaches_of_schedule {meets : system.Condition}
    {handle : ι → system.State → (request : iface.Call) →
      Option (iface.Reply request × system.State)}
    (allowed : ∀ i state request reply after, handle i state request = some (reply, after) →
      system.step i state request reply after ∧ meets i state request reply)
    {order : List ι} {pool final : Pool system α}
    (scheduled : schedule handle order pool = some final) : Reaches meets pool final := by
  induction order generalizing pool with
  | nil =>
      cases scheduled
      exact Relation.ReflTransGen.refl
  | cons i order ih =>
      rw [schedule] at scheduled
      split at scheduled
      · next request next turn =>
          split at scheduled
          · next reply after answered =>
              have both := allowed i pool.shared request reply after answered
              exact Relation.ReflTransGen.head (Step.call i turn both.1 both.2) (ih scheduled)
          · cases scheduled
      · cases scheduled

end Pool

/-! ## Rely and guarantee -/

/-- An invariant of the shared state, and what each thread may rely on the others for. -/
structure Discipline (system : System iface ι) where
  always : system.State → Prop
  rely : ι → system.State → system.State → Prop
  refl : ∀ i state, rely i state state
  trans : ∀ i {first second third}, rely i first second → rely i second third → rely i first third

namespace Discipline

/-- A change that the thread may make: it keeps the invariant and what the others rely on. -/
structure Guaranteed (discipline : Discipline system) (i : ι) (before after : system.State) :
    Prop where
  always : discipline.always after
  rely : ∀ j, j ≠ i → discipline.rely j before after

/-- A change that no thread made. -/
structure Unnoticed (discipline : Discipline system) (before after : system.State) : Prop where
  always : discipline.always after
  rely : ∀ i, discipline.rely i before after

end Discipline

/-- From this state, and whatever the others do, every call of the thread is a change it
may make, and its result satisfies the postcondition. -/
def Keeps (discipline : Discipline system) (meets : system.Condition) (i : ι) :
    Program iface α → (α → system.State → Prop) → system.State → Prop
  | .done result, post, state => ∀ now, discipline.rely i state now → post result now
  | .call request next, post, state =>
      ∀ now, discipline.rely i state now → discipline.always now →
        ∀ reply after, system.step i now request reply after → meets i now request reply →
          discipline.Guaranteed i now after ∧ Keeps discipline meets i (next reply) post after
  | .unfinished, _, _ => True

section Rules

variable {discipline : Discipline system} {meets : system.Condition} {i : ι}
  {state : system.State}

/-- What is proved of a thread survives what the others do. -/
theorem Keeps.later {program : Program iface α} {post : α → system.State → Prop}
    {now : system.State} (keeps : Keeps discipline meets i program post state)
    (relied : discipline.rely i state now) : Keeps discipline meets i program post now := by
  cases program with
  | done result =>
      intro later further
      exact keeps later (discipline.trans i relied further)
  | call request next =>
      intro later further
      exact keeps later (discipline.trans i relied further)
  | unfinished => trivial

theorem keeps_bind {program : Program iface α} {rest : α → Program iface β}
    {post : β → system.State → Prop} :
    Keeps discipline meets i (program >>= rest) post state ↔
      Keeps discipline meets i program
        (fun value => Keeps discipline meets i (rest value) post) state := by
  rw [Program.bind_eq_andThen]
  induction program generalizing state with
  | done value =>
      constructor
      · intro keeps now relied
        exact keeps.later relied
      · intro keeps
        exact keeps state (discipline.refl i state)
  | call request next ih => simp only [Program.andThen, Keeps, ih]
  | unfinished => exact Iff.rfl

theorem Keeps.mono {program : Program iface α} {post weaker : α → system.State → Prop}
    (keeps : Keeps discipline meets i program post state)
    (implied : ∀ value final, post value final → weaker value final) :
    Keeps discipline meets i program weaker state := by
  induction program generalizing state with
  | done value =>
      intro now relied
      exact implied value now (keeps now relied)
  | call request next ih =>
      intro now relied always reply after taken condition
      have kept := keeps now relied always reply after taken condition
      exact ⟨kept.1, ih reply kept.2⟩
  | unfinished => trivial

/-- The end of a thread stays as it is proved to be, whatever the others do then. -/
theorem Keeps.closed {program : Program iface α} {post : α → system.State → Prop}
    (keeps : Keeps discipline meets i program post state) :
    Keeps discipline meets i program
      (fun value now => ∀ later, discipline.rely i now later → post value later) state := by
  induction program generalizing state with
  | done value =>
      intro now relied later further
      exact keeps later (discipline.trans i relied further)
  | call request next ih =>
      intro now relied always reply after taken condition
      have kept := keeps now relied always reply after taken condition
      exact ⟨kept.1, ih reply kept.2⟩
  | unfinished => trivial

/-- A thread that is done satisfies its postcondition. -/
theorem Keeps.of_done {program : Program iface α} {post : α → system.State → Prop} {result : α}
    (keeps : Keeps discipline meets i program post state) (ended : program = .done result) :
    post result state := by
  subst ended
  exact keeps state (discipline.refl i state)

/-- What neither the others nor the thread's own calls can spoil may be framed. -/
theorem Keeps.frame {program : Program iface α} {post : α → system.State → Prop}
    {known : system.State → Prop} (keeps : Keeps discipline meets i program post state)
    (stable : ∀ before now, known before → discipline.rely i before now → known now)
    (steps : ∀ now request reply after, known now → system.step i now request reply after →
      known after)
    (initially : known state) :
    Keeps discipline meets i program (fun value now => post value now ∧ known now) state := by
  induction program generalizing state with
  | done result =>
      intro now relied
      exact ⟨keeps now relied, stable state now initially relied⟩
  | call request next ih =>
      intro now relied always reply after taken condition
      have kept := keeps now relied always reply after taken condition
      have known := steps now request reply after (stable state now initially relied) taken
      exact ⟨kept.1, ih reply kept.2 known⟩
  | unfinished => trivial

/-- A program whose calls all keep what the thread knows. -/
theorem keeps_of_onlyCalls {allowed : iface.Call → Prop} {known : system.State → Prop}
    {program : Program iface α} (onlyCalls : program.OnlyCalls allowed)
    (stable : ∀ before now, known before → discipline.rely i before now → known now)
    (step : ∀ now request reply after, allowed request → known now → discipline.always now →
      system.step i now request reply after →
        discipline.Guaranteed i now after ∧ known after)
    (initially : known state) :
    Keeps discipline meets i program (fun _ now => known now) state := by
  induction program generalizing state with
  | done result =>
      intro now relied
      exact stable state now initially relied
  | call request next ih =>
      intro now relied always reply after taken _
      have kept := step now request reply after onlyCalls.1 (stable state now initially relied)
        always taken
      exact ⟨kept.1, ih reply (onlyCalls.2 reply) kept.2⟩
  | unfinished => trivial

end Rules

/-! ## Triples -/

/-- What the thread knows and the others cannot spoil. -/
def Stable (discipline : Discipline system) (i : ι) (known : system.State → Prop) : Prop :=
  ∀ before now, known before → discipline.rely i before now → known now

/-- From every state with the precondition the thread keeps to the discipline, and ends with
the postcondition. -/
def Upholds (discipline : Discipline system) (meets : system.Condition) (i : ι)
    (pre : system.State → Prop) (program : Program iface α) (post : α → system.State → Prop) :
    Prop :=
  ∀ state, pre state → Keeps discipline meets i program post state

section Triples

variable {discipline : Discipline system} {meets : system.Condition} {i : ι}
  {pre : system.State → Prop}

theorem Upholds.bind {program : Program iface α} {rest : α → Program iface β}
    {middle : α → system.State → Prop} {post : β → system.State → Prop}
    (first : Upholds discipline meets i pre program middle)
    (second : ∀ value, Upholds discipline meets i (middle value) (rest value) post) :
    Upholds discipline meets i pre (program >>= rest) post := by
  intro state holds
  rw [keeps_bind]
  refine (first state holds).closed.mono ?_
  intro value now closed
  exact second value now (closed now (discipline.refl i now))

theorem Upholds.weaken {program : Program iface α} {stronger : system.State → Prop}
    {post weaker : α → system.State → Prop} (upholds : Upholds discipline meets i pre program post)
    (before : ∀ state, stronger state → pre state)
    (after : ∀ value state, post value state → weaker value state) :
    Upholds discipline meets i stronger program weaker := by
  intro state holds
  exact (upholds state (before state holds)).mono after

theorem upholds_pure {value : α} {post : α → system.State → Prop}
    (stable : Stable discipline i (post value)) (implied : ∀ state, pre state → post value state) :
    Upholds discipline meets i pre (pure value) post :=
  fun state holds now relied => stable state now (implied state holds) relied

theorem upholds_perform {request : iface.Call} {post : iface.Reply request → system.State → Prop}
    (stable : Stable discipline i pre) (stableAfter : ∀ reply, Stable discipline i (post reply))
    (step : ∀ now reply after, pre now → discipline.always now →
      system.step i now request reply after → meets i now request reply →
        discipline.Guaranteed i now after ∧ post reply after) :
    Upholds discipline meets i pre (Program.perform request) post := by
  intro state holds now relied always reply after taken condition
  have kept := step now reply after (stable state now holds relied) always taken condition
  exact ⟨kept.1, fun later further => stableAfter reply after later kept.2 further⟩

/-- A loop over a list, with an invariant of what it has gathered. -/
theorem upholds_foldlM {γ : Type} {body : γ → α → Program iface γ} {items : List α}
    {gathered : γ} (invariant : γ → system.State → Prop)
    (stable : ∀ current, Stable discipline i (invariant current))
    (step : ∀ current, ∀ item ∈ items,
      Upholds discipline meets i (invariant current) (body current item) invariant) :
    Upholds discipline meets i (invariant gathered) (items.foldlM body gathered) invariant := by
  induction items generalizing gathered with
  | nil => exact upholds_pure (stable gathered) fun _ holds => holds
  | cons item items ih =>
      rw [List.foldlM_cons]
      apply (step gathered item List.mem_cons_self).bind
      intro current
      exact ih fun current item mem => step current item (List.mem_cons_of_mem _ mem)

end Triples

section Rules

variable {discipline : Discipline system} {meets : system.Condition} [DecidableEq ι]

/-- A step of one thread keeps what is proved of all of them. -/
theorem Pool.Step.keeps {pool after : Pool system α} {post : ι → α → system.State → Prop}
    (drifts : ∀ before now, discipline.always before → system.drift before now →
      discipline.Unnoticed before now)
    (always : discipline.always pool.shared)
    (keeps : ∀ i, Keeps discipline meets i (pool.thread i) (post i) pool.shared)
    (step : Pool.Step meets pool after) :
    discipline.always after.shared ∧
      ∀ i, Keeps discipline meets i (after.thread i) (post i) after.shared := by
  cases step with
  | call i turn taken condition =>
      have own := keeps i
      rw [turn] at own
      have kept := own pool.shared (discipline.refl i _) always _ _ taken condition
      refine ⟨kept.1.always, ?_⟩
      intro j
      by_cases same : j = i
      · subst same
        simpa using kept.2
      · simpa [same] using (keeps j).later (kept.1.rely j same)
  | drift drifted =>
      have unnoticed := drifts _ _ always drifted
      exact ⟨unnoticed.always, fun i => (keeps i).later (unnoticed.rely i)⟩

/-- Along every interleaving the invariant holds, and what is proved of each thread. -/
theorem Pool.reaches_keeps {start pool : Pool system α} {post : ι → α → system.State → Prop}
    (drifts : ∀ before now, discipline.always before → system.drift before now →
      discipline.Unnoticed before now)
    (initially : discipline.always start.shared)
    (keeps : ∀ i, Keeps discipline meets i (start.thread i) (post i) start.shared)
    (reaches : Pool.Reaches meets start pool) :
    discipline.always pool.shared ∧
      ∀ i, Keeps discipline meets i (pool.thread i) (post i) pool.shared := by
  induction reaches with
  | refl => exact ⟨initially, keeps⟩
  | tail _ step ih => exact step.keeps drifts ih.1 ih.2

end Rules

end Foundation
