import Mathlib.Data.List.Basic

/-!
# Loops that can fail

A loop over a list that threads a state and may give up is a `foldlM` in `Option`.
Its rule is the usual one for loops: an invariant of the items already seen, kept
by every step that succeeds. Steps that raise have their outcome in `Except`.
-/

namespace Foundation

variable {α σ : Type}

/-- The rule for a loop over a list, with an invariant of the items seen so far. -/
theorem foldlM_invariant {body : σ → α → Option σ} (invariant : List α → σ → Prop)
    (step : ∀ seen item state after, invariant seen state → body state item = some after →
      invariant (seen ++ [item]) after)
    {items : List α} {state final : σ} (initially : invariant [] state)
    (loop : items.foldlM body state = some final) : invariant items final := by
  suffices general : ∀ rest seen middle, invariant seen middle →
      rest.foldlM body middle = some final → invariant (seen ++ rest) final by
    simpa using general items [] state initially loop
  intro rest
  induction rest with
  | nil =>
      intro seen middle holds ends
      cases ends
      simpa using holds
  | cons item rest ih =>
      intro seen middle holds continues
      rw [List.foldlM_cons, Option.bind_eq_bind, Option.bind_eq_some_iff] at continues
      rcases continues with ⟨after, taken, later⟩
      simpa using ih (seen ++ [item]) after (step seen item middle after holds taken) later

/-- A loop completes when every step from a state that fits the items seen so far does. -/
theorem foldlM_isSome {body : σ → α → Option σ} (invariant : List α → σ → Prop)
    {items : List α} {state : σ} (initially : invariant [] state)
    (step : ∀ seen item rest state, items = seen ++ item :: rest → invariant seen state →
      ∃ after, body state item = some after ∧ invariant (seen ++ [item]) after) :
    ∃ final, items.foldlM body state = some final ∧ invariant items final := by
  suffices general : ∀ rest seen middle, items = seen ++ rest → invariant seen middle →
      ∃ final, rest.foldlM body middle = some final ∧ invariant (seen ++ rest) final by
    simpa using general items [] state rfl initially
  intro rest
  induction rest with
  | nil =>
      intro seen middle _ holds
      exact ⟨middle, rfl, by simpa using holds⟩
  | cons item rest ih =>
      intro seen middle split holds
      rcases step seen item rest middle split holds with ⟨after, taken, kept⟩
      rcases ih (seen ++ [item]) after (by simpa using split) kept with ⟨final, later, ends⟩
      refine ⟨final, ?_, by simpa using ends⟩
      rw [List.foldlM_cons, taken]
      exact later

/-! ## Steps that raise -/

section

variable {ε β : Type}

/-- Two steps in a row that end well. -/
theorem ok_of_bind {first : Except ε α} {rest : α → Except ε β} {result : β}
    (run : first >>= rest = .ok result) :
    ∃ value, first = .ok value ∧ rest value = .ok result := by
  cases first with
  | error failure => cases run
  | ok value => exact ⟨value, rfl, run⟩

/-- A loop with a state that ends well has done so in every round. -/
theorem ok_of_foldlM {body : σ → α → Except ε σ} {items : List α} {state final : σ}
    (run : items.foldlM body state = .ok final) :
    ∀ item ∈ items, ∃ before after, body before item = .ok after := by
  induction items generalizing state with
  | nil => exact fun item mem => absurd mem List.not_mem_nil
  | cons first items ih =>
      rw [List.foldlM_cons] at run
      rcases ok_of_bind run with ⟨next, taken, later⟩
      exact List.forall_mem_cons.mpr ⟨⟨state, next, taken⟩, ih later⟩

theorem foldlM_ok {body : σ → α → Except ε σ} {items : List α}
    (each : ∀ item ∈ items, ∀ state, ∃ after, body state item = .ok after) (state : σ) :
    ∃ final, items.foldlM body state = .ok final := by
  induction items generalizing state with
  | nil => exact ⟨state, rfl⟩
  | cons first items ih =>
      rcases each first List.mem_cons_self state with ⟨next, taken⟩
      rcases ih (fun item mem => each item (List.mem_cons_of_mem _ mem)) next with ⟨final, later⟩
      refine ⟨final, ?_⟩
      rw [List.foldlM_cons, taken]
      exact later

/-- Rounds that change nothing. -/
theorem foldlM_idle {body : σ → α → Except ε σ} {items : List α} {state : σ}
    (idle : ∀ item ∈ items, body state item = .ok state) :
    items.foldlM body state = .ok state := by
  induction items with
  | nil => rfl
  | cons first items ih =>
      rw [List.foldlM_cons, idle first List.mem_cons_self]
      exact ih fun item mem => idle item (List.mem_cons_of_mem _ mem)

/-- The results of such a loop, where each of them holds its item. -/
theorem results_of_mapM {body : α → Except ε β} {own : β → α} {items : List α} {results : List β}
    (holds : ∀ item result, body item = .ok result → own result = item)
    (run : items.mapM body = .ok results) :
    items = results.map own ∧ ∀ result ∈ results, body (own result) = .ok result := by
  induction items generalizing results with
  | nil =>
      cases run
      exact ⟨rfl, fun result mem => absurd mem List.not_mem_nil⟩
  | cons first items ih =>
      rw [List.mapM_cons] at run
      rcases ok_of_bind run with ⟨result, made, later⟩
      rcases ok_of_bind later with ⟨others, rest, last⟩
      cases last
      rcases ih rest with ⟨same, each⟩
      have isFirst := holds first result made
      rw [← isFirst] at made
      exact ⟨by rw [List.map_cons, isFirst, ← same], List.forall_mem_cons.mpr ⟨made, each⟩⟩

theorem mapM_ok {body : α → Except ε β} {plain : α → β} {items : List α}
    (each : ∀ item ∈ items, body item = .ok (plain item)) :
    items.mapM body = .ok (items.map plain) := by
  induction items with
  | nil => rfl
  | cons first items ih =>
      have rest := ih fun item mem => each item (List.mem_cons_of_mem _ mem)
      rw [List.mapM_cons, each first List.mem_cons_self, rest]
      rfl

end

/-! ## Items and what is before them

A loop that looks back at the items it has already seen leaves a property of each
item and the items before it.
-/

/-- Every item of the list has the property, after the items before it. -/
def EachAfter (holds : List α → α → Prop) (items : List α) : Prop :=
  ∀ before item after, items = before ++ item :: after → holds before item

variable {holds : List α → α → Prop} {items : List α}

theorem eachAfter_nil : EachAfter holds [] := by
  intro before item after split
  simp at split

theorem eachAfter_concat {item : α} :
    EachAfter holds (items ++ [item]) ↔ EachAfter holds items ∧ holds items item := by
  constructor
  · intro each
    refine ⟨?_, each items item [] rfl⟩
    intro before other after split
    exact each before other (after ++ [item]) (by simp [split])
  · rintro ⟨each, last⟩ before other after split
    rcases List.eq_nil_or_concat after with rfl | ⟨init, final, rfl⟩
    · rcases List.append_inj' split rfl with ⟨rfl, same⟩
      cases same
      exact last
    · have both : items ++ [item] = (before ++ other :: init) ++ [final] := by simp [split]
      rcases List.append_inj' both rfl with ⟨rfl, _⟩
      exact each before other init rfl

/-- Of two different items one is before the other. -/
theorem exists_split_of_ne {first second : α} (firstMem : first ∈ items)
    (secondMem : second ∈ items) (different : first ≠ second) :
    (∃ before after, items = before ++ second :: after ∧ first ∈ before) ∨
      ∃ before after, items = before ++ first :: after ∧ second ∈ before := by
  rcases List.append_of_mem secondMem with ⟨before, after, rfl⟩
  rcases List.mem_append.mp firstMem with earlier | later
  · left
    exact ⟨before, after, rfl, earlier⟩
  · rcases List.mem_cons.mp later with same | later
    · exact absurd same different
    · rcases List.append_of_mem later with ⟨middle, rest, rfl⟩
      right
      exact ⟨before ++ second :: middle, rest, by simp, by simp⟩

/-- Items that have the property wherever they stand may follow. -/
theorem EachAfter.append {more : List α} (each : EachAfter holds items)
    (anywhere : ∀ item ∈ more, ∀ before, holds before item) :
    EachAfter holds (items ++ more) := by
  induction more generalizing items with
  | nil => simpa using each
  | cons item more ih =>
      have extended := eachAfter_concat.mpr
        ⟨each, anywhere item List.mem_cons_self items⟩
      have whole := ih extended fun other mem => anywhere other (List.mem_cons_of_mem _ mem)
      simpa using whole

end Foundation
