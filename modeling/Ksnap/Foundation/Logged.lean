import Mathlib.Data.List.Basic
import Mathlib.Control.Basic

/-!
# Checks with a log

A computation that keeps a log and ends with a value or an error. It is meant for
readers and validators: long sequences of checks, each with an error of its own.
`Yields` says that a computation passes, with which value and with what log at its
end, and its rules turn a sequence of checks into the conjunction of what it checks.
-/

namespace Foundation

variable {ε entry α β : Type}

/-- A computation that can fail with an error and appends to a log. -/
abbrev Logged (ε entry : Type) : Type → Type := ExceptT ε (StateM (List entry))

namespace Logged

/-- Append one entry to the log. -/
def record (item : entry) : Logged ε entry Unit :=
  modify (· ++ [item])

/-- Fail with the error unless the condition holds. -/
def check (condition : Bool) (error : ε) : Logged ε entry Unit :=
  if condition then pure () else throw error

/-- The value of an option, or the error. -/
def orElse (result : Option α) (error : ε) : Logged ε entry α :=
  match result with
  | some value => pure value
  | none => throw error

/-- Value or error of a computation that starts with an empty log. -/
def outcome (computation : Logged ε entry α) : Except ε α :=
  (computation.run.run []).1

/-- The log of a computation, whether it passes or fails. -/
def entries (computation : Logged ε entry α) : List entry :=
  (computation.run.run []).2

/-- The computation passes with the value, and the log grows from one to the other. -/
def Yields (computation : Logged ε entry α) (log : List entry) (value : α)
    (final : List entry) : Prop :=
  computation.run.run log = (.ok value, final)

variable {log final : List entry} {value : α}

theorem outcome_eq_ok_iff {computation : Logged ε entry α} :
    outcome computation = .ok value ↔ ∃ final, Yields computation [] value final := by
  simp only [outcome, Yields]
  constructor
  · intro passes
    exact ⟨(computation.run.run []).2, Prod.ext passes rfl⟩
  · rintro ⟨final, yields⟩
    rw [yields]

@[simp]
theorem yields_pure {result : α} :
    Yields (pure result : Logged ε entry α) log value final ↔ value = result ∧ final = log := by
  simp only [Yields]
  constructor
  · intro yields
    cases yields
    exact ⟨rfl, rfl⟩
  · rintro ⟨rfl, rfl⟩
    rfl

@[simp]
theorem yields_throw {error : ε} :
    Yields (throw error : Logged ε entry α) log value final ↔ False := by
  simp only [Yields, iff_false]
  intro yields
  cases yields

@[simp]
theorem yields_record {item : entry} {result : Unit} :
    Yields (record item : Logged ε entry Unit) log result final ↔ final = log ++ [item] := by
  simp only [Yields]
  constructor
  · intro yields
    cases yields
    rfl
  · rintro rfl
    rfl

@[simp]
theorem yields_check {condition : Bool} {error : ε} {result : Unit} :
    Yields (check condition error : Logged ε entry Unit) log result final ↔
      condition = true ∧ final = log := by
  cases condition <;> simp [check]

@[simp]
theorem yields_orElse {option : Option α} {error : ε} :
    Yields (orElse option error : Logged ε entry α) log value final ↔
      option = some value ∧ final = log := by
  cases option with
  | none => simp [orElse]
  | some result => simp [orElse, eq_comm]

@[simp]
theorem yields_bind {computation : Logged ε entry β} {rest : β → Logged ε entry α} :
    Yields (computation >>= rest) log value final ↔
      ∃ result middle, Yields computation log result middle ∧
        Yields (rest result) middle value final := by
  simp only [Yields, ExceptT.run_bind]
  constructor
  · intro yields
    rcases first : computation.run.run log with ⟨outcome, middle⟩
    cases outcome with
    | error error =>
        simp only [StateT.run_bind, first] at yields
        cases yields
    | ok result =>
        simp only [StateT.run_bind, first] at yields
        exact ⟨result, middle, rfl, yields⟩
  · rintro ⟨result, middle, first, second⟩
    simp only [StateT.run_bind, first]
    exact second

/-! A check in front of the rest is a conjunct, with no log in between to speak of. -/

theorem yields_check_bind {condition : Bool} {error : ε} {rest : Unit → Logged ε entry α} :
    Yields (check condition error >>= rest) log value final ↔
      condition = true ∧ Yields (rest ()) log value final := by
  simp only [yields_bind, yields_check]
  constructor
  · rintro ⟨_, _, ⟨holds, rfl⟩, later⟩
    exact ⟨holds, later⟩
  · rintro ⟨holds, later⟩
    exact ⟨(), log, ⟨holds, rfl⟩, later⟩

theorem yields_orElse_bind {option : Option β} {error : ε} {rest : β → Logged ε entry α} :
    Yields (orElse option error >>= rest) log value final ↔
      ∃ result, option = some result ∧ Yields (rest result) log value final := by
  simp only [yields_bind, yields_orElse]
  constructor
  · rintro ⟨result, _, ⟨present, rfl⟩, later⟩
    exact ⟨result, present, later⟩
  · rintro ⟨result, present, later⟩
    exact ⟨result, log, ⟨present, rfl⟩, later⟩

theorem yields_record_bind {item : entry} {rest : Unit → Logged ε entry α} :
    Yields (record item >>= rest) log value final ↔
      Yields (rest ()) (log ++ [item]) value final := by
  simp only [yields_bind, yields_record]
  constructor
  · rintro ⟨_, _, rfl, later⟩
    exact later
  · intro later
    exact ⟨(), log ++ [item], rfl, later⟩

/-- A loop of checks passes when every item does. -/
theorem yields_forM {ι : Type} {body : ι → Logged ε entry PUnit} {holds : ι → Prop}
    (each : ∀ item log final, Yields (body item) log ⟨⟩ final ↔ holds item ∧ final = log)
    {items : List ι} :
    Yields (items.forM body) log ⟨⟩ final ↔ (∀ item ∈ items, holds item) ∧ final = log := by
  induction items generalizing log with
  | nil => simp [List.forM]
  | cons item items ih =>
      simp only [List.forM, yields_bind, List.mem_cons, forall_eq_or_imp]
      constructor
      · rintro ⟨⟨⟩, middle, first, later⟩
        rcases (each item log middle).mp first with ⟨here, rfl⟩
        rcases ih.mp later with ⟨rest, rfl⟩
        exact ⟨⟨here, rest⟩, rfl⟩
      · rintro ⟨⟨here, rest⟩, rfl⟩
        exact ⟨⟨⟩, final, (each item final final).mpr ⟨here, rfl⟩, ih.mpr ⟨rest, rfl⟩⟩

theorem yields_forM_bind {ι : Type} {body : ι → Logged ε entry PUnit} {holds : ι → Prop}
    (each : ∀ item log final, Yields (body item) log ⟨⟩ final ↔ holds item ∧ final = log)
    {items : List ι} {rest : PUnit → Logged ε entry α} :
    Yields (items.forM body >>= rest) log value final ↔
      (∀ item ∈ items, holds item) ∧ Yields (rest ⟨⟩) log value final := by
  simp only [yields_bind, yields_forM each]
  constructor
  · rintro ⟨_, _, ⟨all, rfl⟩, later⟩
    exact ⟨all, later⟩
  · rintro ⟨all, later⟩
    exact ⟨⟨⟩, log, ⟨all, rfl⟩, later⟩

/-! ## What is recorded and raised

The rules above speak of a computation that passes. `Keeps` speaks of every one: whatever
it ends with, it has only appended entries of a kind and raised errors of a kind.
-/

/-- Only such entries are appended, only such errors raised, and a value is as it says. -/
def Keeps (allowed : entry → Prop) (raises : ε → Prop) (computation : Logged ε entry α)
    (post : α → Prop) : Prop :=
  ∀ log, ∃ outcome more, computation.run.run log = (outcome, log ++ more) ∧
    (∀ item ∈ more, allowed item) ∧
      match outcome with
      | .ok value => post value
      | .error error => raises error

section Keeps

variable {allowed : entry → Prop} {raises : ε → Prop} {post : α → Prop}

theorem keeps_pure {result : α} (holds : post result) :
    Keeps allowed raises (pure result : Logged ε entry α) post := by
  intro log
  refine ⟨.ok result, [], ?_, by simp, holds⟩
  rw [List.append_nil]
  rfl

theorem keeps_throw {error : ε} (holds : raises error) :
    Keeps allowed raises (throw error : Logged ε entry α) post := by
  intro log
  refine ⟨.error error, [], ?_, by simp, holds⟩
  rw [List.append_nil]
  rfl

theorem keeps_record {item : entry} (holds : allowed item) :
    Keeps allowed raises (record item : Logged ε entry Unit) fun _ => True := by
  intro log
  exact ⟨.ok (), [item], rfl, by simpa using holds, trivial⟩

theorem keeps_check {condition : Bool} {error : ε} (holds : condition = false → raises error) :
    Keeps allowed raises (check condition error : Logged ε entry Unit)
      fun _ => condition = true := by
  cases condition with
  | false => exact keeps_throw (holds rfl)
  | true => exact keeps_pure rfl

theorem keeps_orElse {option : Option α} {error : ε} (holds : option = none → raises error) :
    Keeps allowed raises (orElse option error : Logged ε entry α)
      fun value => option = some value := by
  cases option with
  | none => exact keeps_throw (holds rfl)
  | some value => exact keeps_pure rfl

/-- The rest of a computation knows what its first part ended with. -/
theorem Keeps.bind {computation : Logged ε entry β} {rest : β → Logged ε entry α}
    {middle : β → Prop} (first : Keeps allowed raises computation middle)
    (later : ∀ value, middle value → Keeps allowed raises (rest value) post) :
    Keeps allowed raises (computation >>= rest) post := by
  intro log
  rcases first log with ⟨outcome, more, ran, entries, ends⟩
  cases outcome with
  | error error =>
      refine ⟨.error error, more, ?_, entries, ends⟩
      simp only [ExceptT.run_bind, StateT.run_bind, ran]
      rfl
  | ok value =>
      rcases later value ends (log ++ more) with ⟨outcome, others, goesOn, entries', ends'⟩
      refine ⟨outcome, more ++ others, ?_, ?_, ends'⟩
      · simp only [ExceptT.run_bind, StateT.run_bind, ran]
        rw [← List.append_assoc]
        exact goesOn
      · exact List.forall_mem_append.mpr ⟨entries, entries'⟩

theorem keeps_forM {ι : Type} {body : ι → Logged ε entry PUnit} {items : List ι}
    (each : ∀ item ∈ items, Keeps allowed raises (body item) fun _ => True) :
    Keeps allowed raises (items.forM body) fun _ => True := by
  induction items with
  | nil => exact keeps_pure trivial
  | cons item items ih =>
      apply (each item List.mem_cons_self).bind
      intro _ _
      exact ih fun other mem => each other (List.mem_cons_of_mem _ mem)

theorem Keeps.mono {computation : Logged ε entry α} {weaker : α → Prop}
    (keeps : Keeps allowed raises computation post) (implied : ∀ value, post value → weaker value) :
    Keeps allowed raises computation weaker := by
  intro log
  rcases keeps log with ⟨outcome, more, ran, entries, ends⟩
  refine ⟨outcome, more, ran, entries, ?_⟩
  cases outcome with
  | error error => exact ends
  | ok value => exact implied value ends

theorem Keeps.entries {computation : Logged ε entry α}
    (keeps : Keeps allowed raises computation post) :
    ∀ item ∈ entries computation, allowed item := by
  rcases keeps [] with ⟨outcome, more, ran, recorded, _⟩
  rw [Logged.entries, ran, List.nil_append]
  exact recorded

theorem Keeps.outcome {computation : Logged ε entry α}
    (keeps : Keeps allowed raises computation post)
    {error : ε} (fails : outcome computation = .error error) : raises error := by
  rcases keeps [] with ⟨outcome, more, ran, _, ends⟩
  rw [Logged.outcome, ran] at fails
  cases fails
  exact ends

theorem mem_entries_check {item : entry} {condition : Bool} {error : ε}
    {rest : Unit → Logged ε entry α} (holds : condition = true)
    (mem : item ∈ Logged.entries (rest ())) :
    item ∈ Logged.entries (check condition error >>= rest) := by
  subst holds
  exact mem

/-- An entry that is recorded stays, whatever the rest does. -/
theorem mem_entries_record_bind {item : entry} {rest : Unit → Logged ε entry α}
    (keeps : Keeps allowed raises (rest ()) post) :
    item ∈ Logged.entries (record item >>= rest) := by
  rcases keeps ([] ++ [item]) with ⟨outcome, more, ran, _⟩
  have whole : ((record item >>= rest).run.run []) = (outcome, [] ++ [item] ++ more) := ran
  rw [Logged.entries, whole]
  simp

end Keeps

end Logged

end Foundation
