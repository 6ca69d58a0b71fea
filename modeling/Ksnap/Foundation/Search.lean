import Mathlib.Data.List.Basic
import Mathlib.Data.List.Pairwise

/-!
# Binary search

`bsearch` of the C library, on a list and a comparison with the key. It looks at
the middle of what is left and keeps one half, so it can miss an element of a list
that is not sorted. On a sorted one it finds an element if there is one.
-/

namespace Foundation

variable {α : Type}

/-- The loop of `bsearch` between two positions; the fuel bounds their distance. -/
def searchBetween (order : α → Ordering) (items : List α) : ℕ → ℕ → ℕ → Option α
  | 0, _, _ => none
  | fuel + 1, low, high =>
      if low < high then
        let middle := (low + high) / 2
        match items[middle]? with
        | none => none
        | some item =>
            match order item with
            | .lt => searchBetween order items fuel low middle
            | .gt => searchBetween order items fuel (middle + 1) high
            | .eq => some item
      else none

/-- `bsearch`, where the order of an item is the result of comparing the key with it. -/
def bsearch (order : α → Ordering) (items : List α) : Option α :=
  searchBetween order items (items.length + 1) 0 items.length

/-- The key is above a part of the list, then equal, and below the rest. -/
def SortedFor (order : α → Ordering) (items : List α) : Prop :=
  items.Pairwise fun first second =>
    (order first = .lt → order second = .lt) ∧ (order second = .gt → order first = .gt)

variable {order : α → Ordering} {items : List α}

theorem searchBetween_sound {fuel low high : ℕ} {found : α}
    (search : searchBetween order items fuel low high = some found) :
    found ∈ items ∧ order found = .eq := by
  induction fuel generalizing low high with
  | zero => cases search
  | succ fuel ih =>
      simp only [searchBetween] at search
      split at search
      · split at search
        · cases search
        · rename_i item at_
          split at search
          · exact ih search
          · exact ih search
          · rename_i equal
            cases search
            exact ⟨List.mem_of_getElem? at_, equal⟩
      · cases search

theorem searchBetween_isSome (sorted : SortedFor order items) {fuel low high target : ℕ}
    (inside : target < items.length) (equal : order items[target] = .eq)
    (enough : high - low < fuel) (bound : high ≤ items.length) (lower : low ≤ target)
    (upper : target < high) : (searchBetween order items fuel low high).isSome := by
  induction fuel generalizing low high with
  | zero => omega
  | succ fuel ih =>
      have middleInside : (low + high) / 2 < items.length := by omega
      have pairs := List.pairwise_iff_getElem.mp sorted
      simp only [searchBetween, if_pos (Nat.lt_of_le_of_lt lower upper),
        List.getElem?_eq_getElem middleInside]
      split
      · -- the key is below the middle, hence below everything after it
        rename_i below
        apply ih (by omega) (by omega) lower
        by_contra notBefore
        rcases Nat.lt_or_ge ((low + high) / 2) target with after | before
        · have := (pairs _ _ middleInside inside after).1 below
          rw [equal] at this
          cases this
        · have same : (low + high) / 2 = target := by omega
          simp only [same, equal] at below
          cases below
      · rename_i above
        apply ih (by omega) bound _ upper
        by_contra notAfter
        rcases Nat.lt_or_ge target ((low + high) / 2) with before | after
        · have := (pairs _ _ inside middleInside before).2 above
          rw [equal] at this
          cases this
        · have same : (low + high) / 2 = target := by omega
          simp only [same, equal] at above
          cases above
      · rfl

/-- In a sorted list the search finds an element exactly when there is one. -/
theorem bsearch_isSome_iff (sorted : SortedFor order items) :
    (bsearch order items).isSome ↔ ∃ item ∈ items, order item = .eq := by
  constructor
  · intro some_
    rcases Option.isSome_iff_exists.mp some_ with ⟨found, search⟩
    exact ⟨found, searchBetween_sound search⟩
  · rintro ⟨item, mem, equal⟩
    rcases List.getElem_of_mem mem with ⟨target, inside, rfl⟩
    exact searchBetween_isSome sorted inside equal (by omega) (Nat.le_refl _) (Nat.zero_le _) inside

end Foundation
