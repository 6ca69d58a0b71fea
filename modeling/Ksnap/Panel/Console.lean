import Ksnap.Panel.Delivery

/-!
# The console of the page

A poll appends what its response brings and moves the cursor to where the response says.
That is right as long as the cursor is still the one that the request was sent with. The
timer does not wait for earlier polls, so the response of another poll can come first, and
then lines are shown again.
-/

namespace Ksnap.Panel.Logbook

open Foundation

variable {ι : Type} [DecidableEq ι] {capacity : ℕ}

/-- What the page has shown is in order and behind its cursor. -/
structure InOrder (current : Page ι) (count : ℕ) : Prop where
  shown : current.shown.Pairwise fun one two => one.seq < two.seq
  bounded : ∀ entry ∈ current.shown, (entry.seq : ℤ) ≤ current.logCursor
  behind : current.logCursor ≤ count
  console : current.console <:+ current.shown

/-- No other response has moved the cursor since the request of this one was sent. -/
def Overtaken (i : ι) (state : LogState ι) : Prop :=
  state.page.asked i ≠ some state.page.logCursor

/-- Responses arrive only where no other one came first. -/
def notOvertaken : (logSystem ι capacity).Condition :=
  fun i state request reply =>
    match request, reply with
    | .receive _ _, true => ¬ Overtaken i state
    | _, _ => True

omit [DecidableEq ι] in
theorem inOrder_receive {current : Page ι} {count : ℕ} {reply : List LogEntry × ℤ}
    (inOrder : InOrder current count) (fresh : Fresh current.logCursor reply)
    (bounded : reply.2 ≤ count) : InOrder (current.receive reply.1 reply.2) count := by
  refine ⟨?_, ?_, bounded, ?_⟩
  · rw [Page.receive, List.pairwise_append]
    refine ⟨inOrder.shown, fresh.increasing, ?_⟩
    intro one old two new
    have before := inOrder.bounded one old
    have after := fresh.newer two new
    omega
  · intro entry mem
    rcases List.mem_append.mp mem with old | new
    · exact (inOrder.bounded entry old).trans fresh.forward
    · exact fresh.bounded entry new
  · exact List.suffix_append_self_iff.mpr inOrder.console

theorem pageLaw_inOrder :
    PageLaw (InOrder : Page ι → ℕ → Prop) (notOvertaken : (logSystem ι capacity).Condition) where
  growing := by
    intro current count more inOrder longer
    exact ⟨inOrder.shown, inOrder.bounded, inOrder.behind.trans (Int.ofNat_le.mpr longer),
      inOrder.console⟩
  behind := fun current count inOrder => inOrder.behind
  asks := by
    intro current count asked inOrder
    exact ⟨inOrder.shown, inOrder.bounded, inOrder.behind, inOrder.console⟩
  clears := by
    intro current count inOrder
    exact ⟨inOrder.shown, inOrder.bounded, inOrder.behind, List.nil_suffix⟩
  receives := by
    intro i now since reply condition inOrder asked fresh bounded
    have upToDate : now.page.asked i = some now.page.logCursor := not_not.mp condition
    have same : since = now.page.logCursor := Option.some_inj.mp (asked.symm.trans upToDate)
    subst same
    exact inOrder_receive inOrder fresh bounded

/-- In every run in which no response is overtaken by another one, the console shows entries
with increasing numbers, and the page never shows one again. -/
theorem console_in_order (users : ι → LogUser) {pool : Pool (logSystem ι capacity) Unit}
    (reaches : Pool.Reaches notOvertaken (logStart capacity users) pool) :
    pool.shared.page.console.Pairwise (fun one two => one.seq < two.seq) ∧
      pool.shared.page.shown.Pairwise (fun one two => one.seq < two.seq) := by
  have initially : InOrder (logStart capacity users).shared.page 0 :=
    ⟨List.Pairwise.nil, fun _ mem => absurd mem List.not_mem_nil, le_rfl, List.suffix_rfl⟩
  have inOrder := (orderly_of_reaches pageLaw_inOrder initially reaches).page
  exact ⟨inOrder.shown.sublist inOrder.console.sublist, inOrder.shown⟩

/-- A worker that appends a line, and two ticks of the timer. -/
def twoTicks : Fin 3 → LogUser
  | 0 => .worker [.append (text "a") .info (text "api")]
  | _ => .tick

/-- The answers when no response is overtaken. -/
def promptAnswer (capacity : ℕ) (i : ι) (state : LogState ι) :
    (request : LogCall) → Option (request.Reply × LogState ι)
  | .receive entries cursor =>
      if state.page.asked i = some state.page.logCursor then
        logAnswer capacity i state (.receive entries cursor)
      else none
  | request => logAnswer capacity i state request

theorem allowed_of_promptAnswer {i : ι} {state after : LogState ι} {request : LogCall}
    {reply : request.Reply}
    (answered : promptAnswer capacity i state request = some (reply, after)) :
    logStep capacity i state request reply after ∧
      (notOvertaken : (logSystem ι capacity).Condition) i state request reply := by
  cases request with
  | receive entries cursor =>
      rw [promptAnswer] at answered
      split at answered
      · next upToDate =>
          refine ⟨step_of_logAnswer answered, ?_⟩
          cases answered
          exact not_not.mpr upToDate
      · cases answered
  | _ => exact ⟨step_of_logAnswer answered, trivial⟩

theorem console_in_order_twoTicks : ∃ pool : Pool (logSystem (Fin 3) 2000) Unit,
    pool.shared.page.console = [⟨1, [], .info, text "api", text "a"⟩] ∧
      pool.shared.page.console.Pairwise (fun one two => one.seq < two.seq) ∧
      pool.shared.page.shown.Pairwise (fun one two => one.seq < two.seq) := by
  have scheduled : Pool.schedule (promptAnswer 2000)
      (List.replicate 7 0 ++ List.replicate 6 1 ++ List.replicate 6 2)
      (logStart 2000 twoTicks) = some _ := rfl
  have reaches := Pool.reaches_of_schedule
    (fun _ _ _ _ _ answered => allowed_of_promptAnswer answered) scheduled
  exact ⟨_, rfl, console_in_order twoTicks reaches⟩

/-- Both ticks ask before the first of them is answered. -/
theorem not_console_in_order :
    ¬ ∀ (users : Fin 3 → LogUser) (pool : Pool (logSystem (Fin 3) 2000) Unit),
      Pool.Reaches anyLogCall (logStart 2000 users) pool →
      pool.shared.page.console.Pairwise (fun one two => one.seq < two.seq) := by
  have scheduled : Pool.schedule (logAnswer 2000)
      (List.replicate 7 0 ++ [1, 2] ++ List.replicate 5 1 ++ List.replicate 5 2)
      (logStart 2000 twoTicks) = some _ := rfl
  intro claimed
  have reaches := Pool.reaches_of_schedule
    (fun _ _ _ _ _ answered => ⟨step_of_logAnswer answered, trivial⟩) scheduled
  have inOrder := claimed twoTicks _ reaches
  revert inOrder
  decide

end Ksnap.Panel.Logbook
