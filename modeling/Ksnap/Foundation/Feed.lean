import Mathlib.Data.List.Basic
import Mathlib.Data.Nat.Basic
import Mathlib.Order.Basic
import Mathlib.Data.List.Nodup

/-!
# Numbered feeds

A feed numbers its entries in the order they are pushed and keeps the last ones, as many
as its capacity. Readers look at it from time to time, each for what is newer than what
it was told at its last look, and clearing it does not start the numbers again.

Here is what a reader gets, as a property of the history of the feed alone, the last
event first: what is delivered to a reader is increasing, and an entry that is still kept
at the reader's next look is delivered to it exactly once.
-/

namespace Foundation

inductive FeedEvent (ι ε : Type) : Type where
  | pushed (entry : ε)
  | cleared
  | looked (reader : ι)
  | delivered (reader : ι) (batch : List ε)

variable {ι ε : Type}

namespace Feed

/-! ## What a history says -/

/-- The number of entries that were pushed. -/
def pushCount : List (FeedEvent ι ε) → ℕ
  | [] => 0
  | .pushed _ :: older => pushCount older + 1
  | _ :: older => pushCount older

/-- The last entries, as many as the capacity. -/
def keepLast (capacity : ℕ) (entries : List ε) : List ε :=
  entries.drop (entries.length - capacity)

/-- The entries that are kept. -/
def kept (capacity : ℕ) : List (FeedEvent ι ε) → List ε
  | [] => []
  | .pushed entry :: older => keepLast capacity (kept capacity older ++ [entry])
  | .cleared :: _ => []
  | _ :: older => kept capacity older

/-- Every entry has the next number. -/
def Numbered (seq : ε → ℕ) : List (FeedEvent ι ε) → Prop
  | [] => True
  | .pushed entry :: older => seq entry = pushCount older + 1 ∧ Numbered seq older
  | _ :: older => Numbered seq older

section Readers

variable [DecidableEq ι]

/-- The last number when the reader last looked. -/
def cursorOf (i : ι) : List (FeedEvent ι ε) → ℕ
  | [] => 0
  | .looked j :: older => if j = i then pushCount older else cursorOf i older
  | _ :: older => cursorOf i older

/-- The reader has looked and was not answered yet. -/
def pending (i : ι) : List (FeedEvent ι ε) → Bool
  | [] => false
  | .looked j :: older => if j = i then true else pending i older
  | .delivered j _ :: older => if j = i then false else pending i older
  | _ :: older => pending i older

/-- The answer to the last look of the reader: what was kept then and newer than at the
look before. -/
def expected (seq : ε → ℕ) (capacity : ℕ) (i : ι) : List (FeedEvent ι ε) → List ε
  | [] => []
  | .looked j :: older =>
      if j = i then (kept capacity older).filter fun entry => cursorOf i older < seq entry
      else expected seq capacity i older
  | _ :: older => expected seq capacity i older

/-- Everything that was delivered to the reader. -/
def deliveredTo (i : ι) : List (FeedEvent ι ε) → List ε
  | [] => []
  | .delivered j batch :: older =>
      if j = i then deliveredTo i older ++ batch else deliveredTo i older
  | _ :: older => deliveredTo i older

/-- The reader looks once at a time and gets the answers to its looks. -/
def Served (seq : ε → ℕ) (capacity : ℕ) (i : ι) : List (FeedEvent ι ε) → Prop
  | [] => True
  | .looked j :: older => (j = i → pending i older = false) ∧ Served seq capacity i older
  | .delivered j batch :: older =>
      (j = i → pending i older = true ∧ batch = expected seq capacity i older) ∧
        Served seq capacity i older
  | _ :: older => Served seq capacity i older

end Readers

/-! ## The entries that are kept -/

variable {seq : ε → ℕ} {capacity : ℕ} {history : List (FeedEvent ι ε)}

theorem mem_of_mem_keepLast {entries : List ε} {entry : ε}
    (mem : entry ∈ keepLast capacity entries) : entry ∈ entries :=
  List.mem_of_mem_drop mem

theorem seq_le_of_mem_kept (numbered : Numbered seq history) {entry : ε}
    (mem : entry ∈ kept capacity history) : seq entry ≤ pushCount history := by
  induction history with
  | nil => exact absurd mem List.not_mem_nil
  | cons event older ih =>
      cases event with
      | pushed last =>
          rcases numbered with ⟨isNext, numbered⟩
          rcases List.mem_append.mp (mem_of_mem_keepLast mem) with before | now
          · exact (ih numbered before).trans (Nat.le_succ _)
          · rw [List.mem_singleton.mp now]
            exact isNext.le
      | cleared => exact absurd mem List.not_mem_nil
      | looked reader => exact ih numbered mem
      | delivered reader batch => exact ih numbered mem

theorem increasing_kept (numbered : Numbered seq history) :
    (kept capacity history).Pairwise fun one two => seq one < seq two := by
  induction history with
  | nil => exact List.Pairwise.nil
  | cons event older ih =>
      cases event with
      | pushed last =>
          rcases numbered with ⟨isNext, numbered⟩
          have whole : (kept capacity older ++ [last]).Pairwise
              fun one two => seq one < seq two := by
            rw [List.pairwise_append]
            refine ⟨ih numbered, List.pairwise_singleton _ _, ?_⟩
            intro one before two now
            have bound := seq_le_of_mem_kept numbered before
            rw [List.mem_singleton.mp now]
            omega
          exact whole.sublist (List.drop_sublist _ _)
      | cleared => exact List.Pairwise.nil
      | looked reader => exact ih numbered
      | delivered reader batch => exact ih numbered

/-- The history since a push neither cleared the feed nor filled it up. -/
def Spares (capacity : ℕ) (between : List (FeedEvent ι ε)) : Prop :=
  (∀ event ∈ between, event ≠ .cleared) ∧ pushCount between < capacity

/-- What neither a clear nor the capacity has taken away is kept. -/
theorem mem_kept_of_spares {between before : List (FeedEvent ι ε)} {entry : ε}
    (spares : Spares capacity between) :
    entry ∈ kept capacity (between ++ .pushed entry :: before) := by
  -- as many entries stand behind it as were pushed since
  have placed : ∃ front back, kept capacity (between ++ .pushed entry :: before) =
      front ++ entry :: back ∧ back.length = pushCount between := by
    induction between with
    | nil =>
        rcases spares with ⟨_, room⟩
        refine ⟨(kept capacity before).drop ((kept capacity before).length + 1 - capacity), [], ?_,
          rfl⟩
        have fits :
            (kept capacity before).length + 1 - capacity ≤ (kept capacity before).length := by
          have positive : 0 < capacity := room
          omega
        rw [List.nil_append, kept, keepLast, List.length_append, List.length_singleton,
          List.drop_append_of_le_length fits]
    | cons event between ih =>
        rcases spares with ⟨noClear, room⟩
        have later : ∀ event ∈ between, event ≠ .cleared :=
          fun event mem => noClear event (List.mem_cons_of_mem _ mem)
        cases event with
        | pushed last =>
            have room' : pushCount between + 1 < capacity := room
            rcases ih ⟨later, by omega⟩ with ⟨front, back, whole, length⟩
            refine ⟨front.drop ((front ++ entry :: back).length + 1 - capacity), back ++ [last], ?_,
              ?_⟩
            · have fits : (front ++ entry :: back).length + 1 - capacity ≤ front.length := by
                rw [List.length_append, List.length_cons]
                omega
              rw [List.cons_append, kept, whole, keepLast, List.length_append,
                List.length_singleton, List.append_assoc, List.drop_append_of_le_length fits]
              rfl
            · rw [List.length_append, List.length_singleton, length]
              rfl
        | cleared => exact absurd rfl (noClear .cleared List.mem_cons_self)
        | looked reader => exact ih ⟨later, room⟩
        | delivered reader batch => exact ih ⟨later, room⟩
  rcases placed with ⟨front, back, whole, _⟩
  rw [whole]
  exact List.mem_append_right front List.mem_cons_self

theorem pushCount_append (newer older : List (FeedEvent ι ε)) :
    pushCount (newer ++ older) = pushCount newer + pushCount older := by
  induction newer with
  | nil => simp [pushCount]
  | cons event newer ih => cases event <;> simp [pushCount, ih, Nat.add_right_comm]

theorem Numbered.of_append {newer older : List (FeedEvent ι ε)}
    (numbered : Numbered seq (newer ++ older)) : Numbered seq older := by
  induction newer with
  | nil => exact numbered
  | cons event newer ih =>
      cases event with
      | pushed entry => exact ih numbered.2
      | cleared => exact ih numbered
      | looked reader => exact ih numbered
      | delivered reader batch => exact ih numbered

/-! ## What a reader gets -/

section Readers

variable [DecidableEq ι] {i : ι}

theorem cursorOf_le_pushCount : cursorOf i history ≤ pushCount history := by
  induction history with
  | nil => exact le_rfl
  | cons event older ih =>
      cases event with
      | pushed entry => exact ih.trans (Nat.le_succ _)
      | cleared => exact ih
      | looked reader =>
          rw [cursorOf]
          split
          · exact le_rfl
          · exact ih
      | delivered reader batch => exact ih

theorem seq_le_of_mem_expected (numbered : Numbered seq history) {entry : ε}
    (mem : entry ∈ expected seq capacity i history) : seq entry ≤ cursorOf i history := by
  induction history with
  | nil => exact absurd mem List.not_mem_nil
  | cons event older ih =>
      cases event with
      | pushed last => exact ih numbered.2 mem
      | cleared => exact ih numbered mem
      | looked reader =>
          rw [expected] at mem
          rw [cursorOf]
          split at mem
          · next own =>
            rw [if_pos own]
            exact seq_le_of_mem_kept numbered (List.mem_filter.mp mem).1
          · next other =>
            rw [if_neg other]
            exact ih numbered mem
      | delivered reader batch => exact ih numbered mem

theorem increasing_expected (numbered : Numbered seq history) :
    (expected seq capacity i history).Pairwise fun one two => seq one < seq two := by
  induction history with
  | nil => exact List.Pairwise.nil
  | cons event older ih =>
      cases event with
      | pushed last => exact ih numbered.2
      | cleared => exact ih numbered
      | looked reader =>
          rw [expected]
          split
          · exact (increasing_kept numbered).sublist List.filter_sublist
          · exact ih numbered
      | delivered reader batch => exact ih numbered

/-- The event is a look of the reader or a delivery to it. -/
def Concerns (i : ι) : FeedEvent ι ε → Prop
  | .looked j => j = i
  | .delivered j _ => j = i
  | _ => False

/-- The reader has the same answer to wait for. -/
structure SameView (seq : ε → ℕ) (capacity : ℕ) (i : ι) (before now : List (FeedEvent ι ε)) :
    Prop where
  cursor : cursorOf i now = cursorOf i before
  pending : pending i now = pending i before
  expected : expected seq capacity i now = expected seq capacity i before

theorem SameView.refl : SameView seq capacity i history history :=
  ⟨rfl, rfl, rfl⟩

theorem SameView.trans {first second third : List (FeedEvent ι ε)}
    (one : SameView seq capacity i first second) (two : SameView seq capacity i second third) :
    SameView seq capacity i first third :=
  ⟨two.cursor.trans one.cursor, two.pending.trans one.pending, two.expected.trans one.expected⟩

/-- What concerns other readers only does not change the view. -/
theorem sameView_cons {event : FeedEvent ι ε} (other : ¬ Concerns i event) :
    SameView seq capacity i history (event :: history) := by
  cases event with
  | pushed entry => exact ⟨rfl, rfl, rfl⟩
  | cleared => exact ⟨rfl, rfl, rfl⟩
  | looked reader => exact ⟨if_neg other, if_neg other, if_neg other⟩
  | delivered reader batch => exact ⟨rfl, if_neg other, rfl⟩

theorem served_cons {event : FeedEvent ι ε} (other : ¬ Concerns i event)
    (served : Served seq capacity i history) : Served seq capacity i (event :: history) := by
  cases event with
  | pushed entry => exact served
  | cleared => exact served
  | looked reader => exact ⟨fun own => absurd own other, served⟩
  | delivered reader batch => exact ⟨fun own => absurd own other, served⟩

/-- Where the deliveries to a reader have got to. -/
structure Progress (seq : ε → ℕ) (capacity : ℕ) (i : ι) (history : List (FeedEvent ι ε)) :
    Prop where
  increasing : (deliveredTo i history).Pairwise fun one two => seq one < seq two
  bounded : ∀ entry ∈ deliveredTo i history, seq entry ≤ cursorOf i history
  next : pending i history = true → ∀ one ∈ deliveredTo i history,
    ∀ two ∈ expected seq capacity i history, seq one < seq two

theorem progress_of_served (numbered : Numbered seq history)
    (served : Served seq capacity i history) : Progress seq capacity i history := by
  induction history with
  | nil => exact ⟨List.Pairwise.nil, fun _ mem => absurd mem List.not_mem_nil,
      fun isPending => absurd isPending Bool.false_ne_true⟩
  | cons event older ih =>
      cases event with
      | pushed last =>
          have before := ih numbered.2 served
          exact ⟨before.increasing, before.bounded, before.next⟩
      | cleared =>
          have before := ih numbered served
          exact ⟨before.increasing, before.bounded, before.next⟩
      | looked reader =>
          have before := ih numbered served.2
          by_cases own : reader = i
          · have looks : cursorOf i (.looked reader :: older) = pushCount older := if_pos own
            have answer : expected seq capacity i (.looked reader :: older) =
                (kept capacity older).filter fun entry => cursorOf i older < seq entry :=
              if_pos own
            refine ⟨before.increasing, ?_, ?_⟩
            · intro entry mem
              rw [looks]
              exact (before.bounded entry mem).trans cursorOf_le_pushCount
            · intro _ one oneMem two twoMem
              rw [answer, List.mem_filter] at twoMem
              exact (before.bounded one oneMem).trans_lt (of_decide_eq_true twoMem.2)
          · refine ⟨before.increasing, ?_, ?_⟩
            · intro entry mem
              rw [cursorOf, if_neg own]
              exact before.bounded entry mem
            · rw [pending, if_neg own, expected, if_neg own]
              exact before.next
      | delivered reader batch =>
          have before := ih numbered served.2
          by_cases own : reader = i
          · rcases served.1 own with ⟨isPending, isExpected⟩
            have whole : deliveredTo i (.delivered reader batch :: older) =
                deliveredTo i older ++ expected seq capacity i older := by
              rw [deliveredTo, if_pos own, isExpected]
            refine ⟨?_, ?_, ?_⟩
            · rw [whole, List.pairwise_append]
              exact ⟨before.increasing, increasing_expected numbered, before.next isPending⟩
            · intro entry mem
              rw [whole] at mem
              rcases List.mem_append.mp mem with earlier | now
              · exact before.bounded entry earlier
              · exact seq_le_of_mem_expected numbered now
            · rw [pending, if_pos own]
              exact fun impossible => absurd impossible Bool.false_ne_true
          · have same : deliveredTo i (.delivered reader batch :: older) = deliveredTo i older :=
              if_neg own
            refine ⟨same ▸ before.increasing, same ▸ before.bounded, ?_⟩
            rw [same, pending, if_neg own]
            exact before.next

/-- What is delivered to a reader is strictly increasing. -/
theorem increasing_deliveredTo (numbered : Numbered seq history)
    (served : Served seq capacity i history) :
    (deliveredTo i history).Pairwise fun one two => seq one < seq two :=
  (progress_of_served numbered served).increasing

/-- The next look of the reader came before a clear or the capacity took the entry away,
and it was answered. -/
def AnsweredInTime (capacity : ℕ) (i : ι) (entry : ε) (history : List (FeedEvent ι ε)) : Prop :=
  ∃ later batch middle between before,
    history = later ++ .delivered i batch ::
      (middle ++ .looked i :: (between ++ .pushed entry :: before)) ∧
    .looked i ∉ middle ∧ .looked i ∉ between ∧ Spares capacity between

theorem Served.of_append {newer older : List (FeedEvent ι ε)}
    (served : Served seq capacity i (newer ++ older)) : Served seq capacity i older := by
  induction newer with
  | nil => exact served
  | cons event newer ih =>
      cases event with
      | pushed entry => exact ih served
      | cleared => exact ih served
      | looked reader => exact ih served.2
      | delivered reader batch => exact ih served.2

theorem mem_deliveredTo_append {newer older : List (FeedEvent ι ε)} {entry : ε}
    (mem : entry ∈ deliveredTo i older) : entry ∈ deliveredTo i (newer ++ older) := by
  induction newer with
  | nil => exact mem
  | cons event newer ih =>
      cases event with
      | pushed last => exact ih
      | cleared => exact ih
      | looked reader => exact ih
      | delivered reader batch =>
          rw [List.cons_append, deliveredTo]
          split
          · exact List.mem_append_left _ ih
          · exact ih

theorem cursorOf_append_of_notMem {newer older : List (FeedEvent ι ε)}
    (noLook : .looked i ∉ newer) : cursorOf i (newer ++ older) = cursorOf i older := by
  induction newer with
  | nil => rfl
  | cons event newer ih =>
      rw [List.mem_cons, not_or] at noLook
      cases event with
      | looked reader =>
          have other : reader ≠ i := fun same => noLook.1 (same ▸ rfl)
          rw [List.cons_append, cursorOf, if_neg other]
          exact ih noLook.2
      | _ => exact ih noLook.2

theorem expected_append_of_notMem {newer older : List (FeedEvent ι ε)}
    (noLook : .looked i ∉ newer) :
    expected seq capacity i (newer ++ older) = expected seq capacity i older := by
  induction newer with
  | nil => rfl
  | cons event newer ih =>
      rw [List.mem_cons, not_or] at noLook
      cases event with
      | looked reader =>
          have other : reader ≠ i := fun same => noLook.1 (same ▸ rfl)
          rw [List.cons_append, expected, if_neg other]
          exact ih noLook.2
      | _ => exact ih noLook.2

/-- An entry that is still kept at the next look is in the answer. -/
theorem mem_deliveredTo_of_answeredInTime (numbered : Numbered seq history)
    (served : Served seq capacity i history) {entry : ε}
    (inTime : AnsweredInTime capacity i entry history) : entry ∈ deliveredTo i history := by
  rcases inTime with ⟨later, batch, middle, between, before, rfl, notMiddle, notBetween, spares⟩
  apply mem_deliveredTo_append
  have answered := served.of_append.1 rfl
  rw [deliveredTo, if_pos rfl, answered.2, expected_append_of_notMem notMiddle, expected,
    if_pos rfl]
  apply List.mem_append_right
  rw [List.mem_filter]
  refine ⟨mem_kept_of_spares spares, ?_⟩
  -- the reader last looked before the entry was pushed
  have isNext : seq entry = pushCount before + 1 := by
    have answered := numbered.of_append
    have whole : Numbered seq (middle ++ .looked i :: (between ++ .pushed entry :: before)) :=
      answered
    have looked := whole.of_append
    have since : Numbered seq (between ++ .pushed entry :: before) := looked
    exact since.of_append.1
  have cursor : cursorOf i (between ++ .pushed entry :: before) = cursorOf i before :=
    cursorOf_append_of_notMem notBetween
  have bound : cursorOf i before ≤ pushCount before := cursorOf_le_pushCount
  rw [cursor, isNext, decide_eq_true_eq]
  omega

/-- It is delivered exactly once. -/
theorem count_deliveredTo_of_answeredInTime [DecidableEq ε] (numbered : Numbered seq history)
    (served : Served seq capacity i history) {entry : ε}
    (inTime : AnsweredInTime capacity i entry history) :
    (deliveredTo i history).count entry = 1 := by
  have distinct : (deliveredTo i history).Nodup := by
    refine (increasing_deliveredTo numbered served).imp ?_
    intro one two less same
    rw [same] at less
    exact lt_irrefl _ less
  exact List.count_eq_one_of_mem distinct (mem_deliveredTo_of_answeredInTime numbered served inTime)

end Readers

end Feed

end Foundation
