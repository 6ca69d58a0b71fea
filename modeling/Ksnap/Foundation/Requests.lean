import Ksnap.Foundation.Loop
import Mathlib.Data.List.Nodup

/-!
# Requests that overlap

Whoever makes a request without waiting for the one before may get the answers in any
order. A request is known by its number, and what is shown is the answer that came last.
Once none is pending, that is the answer to the newest request only if it came last.
-/

namespace Foundation

variable {α : Type}

inductive Traffic (α : Type) : Type where
  | issue
  | answer (number : ℕ) (value : α)
  | fail (number : ℕ)

/-- How many requests there were, which of them are pending, and the answer that is shown. -/
structure Requests (α : Type) where
  issued : ℕ
  pending : List ℕ
  shown : Option α

namespace Requests

/-- Before any request. -/
def idle : Requests α where
  issued := 0
  pending := []
  shown := none

/-- Only what is pending comes back, and it does so once. -/
def step (requests : Requests α) : Traffic α → Option (Requests α)
  | .issue =>
      some { requests with
        issued := requests.issued + 1
        pending := requests.pending ++ [requests.issued] }
  | .answer number value =>
      if number ∈ requests.pending then
        some { requests with pending := requests.pending.erase number, shown := some value }
      else none
  | .fail number =>
      if number ∈ requests.pending then
        some { requests with pending := requests.pending.erase number }
      else none

end Requests

/-- The answer that this is, with its number. -/
def Traffic.answered : Traffic α → Option (ℕ × α)
  | .answer number value => some (number, value)
  | _ => none

/-- The answers in the order of their arrival. -/
def answers (traffic : List (Traffic α)) : List (ℕ × α) :=
  traffic.filterMap Traffic.answered

/-- What holds after any traffic. -/
structure Requests.After (traffic : List (Traffic α)) (requests : Requests α) : Prop where
  shown : requests.shown = (answers traffic).getLast?.map Prod.snd
  distinct : requests.pending.Nodup
  known : ∀ number ∈ requests.pending, number < requests.issued
  returned : ∀ number < requests.issued, number ∉ requests.pending →
    .fail number ∈ traffic ∨ ∃ value, (answers traffic).lookup number = some value

namespace Requests

variable {traffic : List (Traffic α)} {requests after : Requests α}

theorem After.step {event : Traffic α} (kept : After traffic requests)
    (taken : requests.step event = some after) : After (traffic ++ [event]) after := by
  have later : ∀ number < requests.issued, number ∉ requests.pending →
      .fail number ∈ traffic ++ [event] ∨
        ∃ value, (answers (traffic ++ [event])).lookup number = some value := by
    intro number lt notPending
    rcases kept.returned number lt notPending with failed | ⟨value, found⟩
    · exact .inl (List.mem_append_left _ failed)
    · refine .inr ⟨value, ?_⟩
      rw [answers, List.filterMap_append, List.lookup_append]
      exact congrArg (Option.or · _) found
  have others : ∀ {number other : ℕ}, other ∉ requests.pending.erase number →
      other ∉ requests.pending ∨ other = number := by
    intro number other gone
    by_cases same : other = number
    · exact .inr same
    · exact .inl fun mem => gone ((List.mem_erase_of_ne same).mpr mem)
  cases event with
  | issue =>
      cases taken
      have fresh : requests.issued ∉ requests.pending :=
        fun mem => Nat.lt_irrefl _ (kept.known _ mem)
      refine ⟨?_, ?_, ?_, ?_⟩
      · simpa [answers, Traffic.answered] using kept.shown
      · exact kept.distinct.append (List.nodup_singleton _) (List.disjoint_singleton.mpr fresh)
      · intro number mem
        rcases List.mem_append.mp mem with old | new
        · exact Nat.lt_succ_of_lt (kept.known number old)
        · rw [List.mem_singleton.mp new]
          exact Nat.lt_succ_self _
      · intro number lt notPending
        have old : number ∉ requests.pending :=
          fun mem => notPending (List.mem_append_left _ mem)
        have differs : number ≠ requests.issued := by
          rintro rfl
          exact notPending (List.mem_append_right _ (List.mem_singleton.mpr rfl))
        exact later number (Nat.lt_of_le_of_ne (Nat.le_of_lt_succ lt) differs) old
  | answer number value =>
      rw [Requests.step] at taken
      split at taken
      · cases taken
        refine ⟨?_, kept.distinct.erase number, fun other mem => ?_, fun other lt gone => ?_⟩
        · simp [answers, Traffic.answered]
        · exact kept.known other (List.mem_of_mem_erase mem)
        · rcases others gone with old | rfl
          · exact later other lt old
          · right
            rw [answers, List.filterMap_append, List.lookup_append]
            cases (List.filterMap Traffic.answered traffic).lookup other with
            | none => exact ⟨value, by simp [Traffic.answered]⟩
            | some first => exact ⟨first, rfl⟩
      · cases taken
  | fail number =>
      rw [Requests.step] at taken
      split at taken
      · cases taken
        refine ⟨?_, kept.distinct.erase number, fun other mem => ?_, fun other lt gone => ?_⟩
        · simpa [answers, Traffic.answered] using kept.shown
        · exact kept.known other (List.mem_of_mem_erase mem)
        · rcases others gone with old | rfl
          · exact later other lt old
          · exact .inl (List.mem_append_right _ (List.mem_singleton.mpr rfl))
      · cases taken

theorem issued_le_of_run {before : Requests α}
    (run : traffic.foldlM Requests.step before = some requests) :
    before.issued ≤ requests.issued := by
  apply foldlM_invariant (fun _ state => before.issued ≤ state.issued) _ (Nat.le_refl _) run
  intro seen event state next kept taken
  cases event with
  | issue =>
      cases taken
      exact Nat.le_succ_of_le kept
  | answer number value =>
      rw [Requests.step] at taken
      split at taken
      · cases taken
        exact kept
      · cases taken
  | fail number =>
      rw [Requests.step] at taken
      split at taken
      · cases taken
        exact kept
      · cases taken

theorem after_of_run (run : traffic.foldlM Requests.step .idle = some requests) :
    After traffic requests := by
  apply foldlM_invariant After _ _ run
  · intro seen event before after kept taken
    exact kept.step taken
  · exact ⟨rfl, List.nodup_nil, fun _ mem => absurd mem List.not_mem_nil,
      fun _ lt => absurd lt (Nat.not_lt_zero _)⟩

/-- When all have been answered, the newest was, and the answer that came last is shown. -/
theorem shown_of_answered (run : traffic.foldlM Requests.step .idle = some requests)
    (some : requests.issued ≠ 0) (answered : requests.pending = [])
    (successful : ∀ number, .fail number ∉ traffic) :
    ∃ newest arrived, (answers traffic).lookup (requests.issued - 1) = .some newest ∧
      (answers traffic).getLast?.map Prod.snd = .some arrived ∧ requests.shown = .some arrived := by
  have kept := after_of_run run
  have newest : ∃ newest, (answers traffic).lookup (requests.issued - 1) = .some newest := by
    have gone : requests.issued - 1 ∉ requests.pending := by
      rw [answered]
      exact List.not_mem_nil
    rcases kept.returned _ (Nat.sub_one_lt some) gone with failed | found
    · exact absurd failed (successful _)
    · exact found
  rcases newest with ⟨newest, found⟩
  have nonempty : answers traffic ≠ [] := by
    intro empty
    rw [empty] at found
    cases found
  have last := List.getLast?_eq_some_getLast nonempty
  refine ⟨newest, ((answers traffic).getLast nonempty).2, found, ?_, ?_⟩
  · rw [last]
    rfl
  · rw [kept.shown, last]
    rfl

end Requests

end Foundation
