import Ksnap.Foundation.Requests
import Ksnap.Frontend.Processes

/-!
# Answers of the page's requests

Each answer is shown when it comes, and nothing is kept of the request it belongs to. So
when all have come the page shows the one that came last, which is the answer to the newest
request if and only if it lists the same processes.
-/

namespace Ksnap.Frontend

open Foundation

/-- The table and `state.processes` hold this answer. -/
structure Page.Shows (page : Page) (payload : ProcessesPayload) : Prop where
  processes : page.processes = payload.processes
  table : page.table = renderProcesses page.selectedPid payload.processes

/-- The answers that came, each with the number of its request. -/
def PageEvent.response : PageEvent → Option (ℕ × ProcessesPayload)
  | .answer number (.ok payload) => some (number, payload)
  | _ => none

def responses (events : List PageEvent) : List (ℕ × ProcessesPayload) :=
  events.filterMap PageEvent.response

/-- The page as whoever shows the answer that came last. -/
structure Page.Follows (page : Page) (requests : Requests ProcessesPayload) : Prop where
  issued : requests.issued = page.issued
  pending : requests.pending = page.pending.map Prod.fst
  shown : ∀ payload, requests.shown = some payload → page.Shows payload

/-! ## Steps -/

section Steps

variable {page after : Page} {requests : Requests ProcessesPayload} {payload : ProcessesPayload}

/-- What is shown is in three parts of the page. -/
theorem Page.Shows.of_same {other : Page} (shows : page.Shows payload)
    (processes : other.processes = page.processes) (table : other.table = page.table)
    (selected : other.selectedPid = page.selectedPid) : other.Shows payload :=
  ⟨processes.trans shows.processes, by rw [table, selected, shows.table]⟩

/-- A request is made, or its address cannot be written. -/
theorem Page.Follows.refreshProcesses (follows : page.Follows requests) :
    ∃ traffic next, traffic.foldlM Requests.step requests = some next ∧
      page.refreshProcesses.Follows next ∧ answers traffic = [] ∧
        ∀ number, .fail number ∉ traffic := by
  rw [Page.refreshProcesses]
  split
  · refine ⟨[], requests, rfl, ⟨follows.issued, follows.pending, ?_⟩, rfl, by simp⟩
    exact fun payload shown => (follows.shown payload shown).of_same rfl rfl rfl
  · refine ⟨[.issue], _, rfl, ⟨congrArg (· + 1) follows.issued, ?_, ?_⟩, rfl, by simp⟩
    · rw [follows.issued, follows.pending, List.map_append]
      rfl
    · exact fun payload shown => (follows.shown payload shown).of_same rfl rfl rfl

theorem shows_receive (page : Page) (payload : ProcessesPayload) :
    (page.receive payload).Shows payload :=
  ⟨rfl, rfl⟩

/-- Another row is checked, as the table would be rendered with it. -/
theorem check_renderRow (selected : Option ℤ) (pid : ℤ) (process : ListedProcess) :
    { renderRow selected process with checked := (renderRow selected process).pid = pid } =
      renderRow (some pid) process := by
  simp only [renderRow, TableRow.mk.injEq, true_and, and_true]
  exact decide_eq_decide.mpr (Option.some_inj (α := ℤ)).symm

theorem table_check {selected : Option ℤ} {processes : List ListedProcess}
    (rendered : page.table = renderProcesses selected processes) (pid : ℤ) :
    (page.check pid).table = renderProcesses (some pid) processes := by
  rw [Page.check, rendered]
  cases processes with
  | nil => exact rendered
  | cons first others =>
      dsimp only [renderProcesses]
      rw [List.map_map]
      refine congrArg TableBody.rows (List.map_congr_left fun process _ => ?_)
      exact check_renderRow selected pid process

/-- A row that is offered belongs to a process of the table. -/
theorem exists_of_offers {selected : Option ℤ} {processes : List ListedProcess} {pid : ℤ}
    (rendered : page.table = renderProcesses selected processes)
    (offered : page.offers pid = true) : ∃ process ∈ processes, process.row.pid = pid := by
  rw [Page.offers, rendered] at offered
  cases processes with
  | nil => cases offered
  | cons first others =>
      rcases List.any_eq_true.mp offered with ⟨row, mem, clickable⟩
      rcases List.mem_map.mp mem with ⟨process, own, rfl⟩
      rw [Bool.and_eq_true, decide_eq_true_eq] at clickable
      exact ⟨process, own, clickable.1⟩

/-- All but the row and the button stays with a click. -/
theorem select_frame (page : Page) (pid : ℤ) :
    ((page.check pid).selectProcess pid).processes = page.processes ∧
      ((page.check pid).selectProcess pid).table = (page.check pid).table ∧
      ((page.check pid).selectProcess pid).issued = page.issued ∧
      ((page.check pid).selectProcess pid).pending = page.pending := by
  have checked : (page.check pid).processes = page.processes ∧
      (page.check pid).issued = page.issued ∧ (page.check pid).pending = page.pending := by
    rw [Page.check]
    split <;> exact ⟨rfl, rfl, rfl⟩
  rw [Page.selectProcess]
  split <;> exact ⟨checked.1, rfl, checked.2.1, checked.2.2⟩

/-- An answer goes on to be shown when one of its rows is selected. -/
theorem Page.Shows.select {pid : ℤ} (shows : page.Shows payload)
    (offered : page.offers pid = true) : ((page.check pid).selectProcess pid).Shows payload := by
  rcases select_frame page pid with ⟨processes, table, -, -⟩
  rcases exists_of_offers shows.table offered with ⟨process, own, same⟩
  have selected : ((page.check pid).selectProcess pid).selectedPid = some pid := by
    have kept : (page.check pid).processes = payload.processes := by
      rw [Page.check]
      split <;> exact shows.processes
    have found : (payload.processes.find? (·.row.pid = pid)).isSome :=
      List.find?_isSome.mpr ⟨process, own, decide_eq_true same⟩
    rcases Option.isSome_iff_exists.mp found with ⟨first, found⟩
    rw [Page.selectProcess, kept, found]
  refine ⟨processes.trans shows.processes, ?_⟩
  rw [table, selected]
  exact table_check shows.table pid

/-- What is answered is no longer pending. -/
theorem Page.Follows.erase {number : ℕ} (follows : page.Follows requests) :
    requests.pending.erase number = (page.pending.eraseP (·.1 = number)).map Prod.fst := by
  rw [follows.pending, List.erase_eq_eraseP', List.eraseP_map]
  rfl

theorem Page.Follows.receive {number : ℕ} (follows : page.Follows requests)
    (asked : number ∈ page.pending.map Prod.fst) (payload : ProcessesPayload) :
    ∃ next, [Traffic.answer number payload].foldlM Requests.step requests = some next ∧
      ({ page with pending := page.pending.eraseP (·.1 = number) }.receive payload).Follows
        next := by
  have known : number ∈ requests.pending := follows.pending ▸ asked
  refine ⟨{ requests with pending := requests.pending.erase number, shown := some payload },
    ?_, follows.issued, follows.erase, ?_⟩
  · rw [List.foldlM_cons, Requests.step, if_pos known]
    rfl
  · rintro other ⟨⟩
    exact shows_receive _ _

theorem Page.Follows.fail {number : ℕ} (follows : page.Follows requests)
    (asked : number ∈ page.pending.map Prod.fst) (message : Text) :
    ∃ next, [Traffic.fail number].foldlM Requests.step requests = some next ∧
      ({ page with pending := page.pending.eraseP (·.1 = number) }.showError message).Follows
        next := by
  have known : number ∈ requests.pending := follows.pending ▸ asked
  refine ⟨{ requests with pending := requests.pending.erase number },
    ?_, follows.issued, follows.erase, ?_⟩
  · rw [List.foldlM_cons, Requests.step, if_pos known]
    rfl
  · exact fun payload shown => (follows.shown payload shown).of_same rfl rfl rfl

/-- What happens to the page is traffic, of at most one request. -/
theorem Page.Follows.step {event : PageEvent} (follows : page.Follows requests)
    (taken : page.step event = some after) :
    ∃ traffic next, traffic.foldlM Requests.step requests = some next ∧ after.Follows next ∧
      answers traffic = event.response.toList ∧
      ∀ number, .fail number ∈ traffic → ∃ message, event = .answer number (.error message) := by
  have quiet : ∀ other : Page, other.processes = page.processes → other.table = page.table →
      other.selectedPid = page.selectedPid → other.issued = page.issued →
      other.pending = page.pending → other.Follows requests := by
    intro other processes table selected issued pending
    refine ⟨follows.issued.trans issued.symm, ?_, ?_⟩
    · rw [pending]
      exact follows.pending
    · exact fun payload shown => (follows.shown payload shown).of_same processes table selected
  have refreshed : ∀ other : Page, other.Follows requests → ∃ traffic next,
      traffic.foldlM Requests.step requests = some next ∧ other.refreshProcesses.Follows next ∧
        answers traffic = [] ∧ ∀ number, .fail number ∈ traffic →
          ∃ message, event = .answer number (.error message) := by
    intro other follows
    rcases follows.refreshProcesses with ⟨traffic, next, run, follows, none, never⟩
    exact ⟨traffic, next, run, follows, none, fun number mem => absurd mem (never number)⟩
  cases event with
  | input value =>
      cases taken
      exact ⟨[], requests, rfl, quiet _ rfl rfl rfl rfl rfl, rfl, by simp⟩
  | timeout =>
      rw [Page.step] at taken
      split at taken
      · cases taken
        exact refreshed _ (quiet _ rfl rfl rfl rfl rfl)
      · cases taken
  | showAll =>
      cases taken
      exact refreshed _ (quiet _ rfl rfl rfl rfl rfl)
  | refresh =>
      cases taken
      exact refreshed _ follows
  | killed =>
      cases taken
      exact refreshed _ follows
  | select pid =>
      rw [Page.step] at taken
      split at taken
      · next offered =>
          cases taken
          rcases select_frame page pid with ⟨-, -, issued, pending⟩
          refine ⟨[], requests, rfl, ⟨follows.issued.trans issued.symm, ?_, ?_⟩, rfl, by simp⟩
          · rw [pending]
            exact follows.pending
          · exact fun payload shown => (follows.shown payload shown).select offered
      · cases taken
  | answer number reply =>
      rw [Page.step] at taken
      split at taken
      · next asked =>
          cases reply with
          | ok payload =>
              cases taken
              rcases follows.receive asked payload with ⟨next, run, follows⟩
              exact ⟨[.answer number payload], next, run, follows, rfl, by simp⟩
          | error message =>
              cases taken
              rcases follows.fail asked message with ⟨next, run, follows⟩
              refine ⟨[.fail number], next, run, follows, rfl, fun other mem => ?_⟩
              cases List.mem_singleton.mp mem
              exact ⟨message, rfl⟩
      · cases taken

end Steps

/-! ## Runs -/

section Runs

/-- A run of the page is traffic with the same answers. -/
theorem Page.Follows.run {events : List PageEvent} {page final : Page}
    {requests : Requests ProcessesPayload} (follows : page.Follows requests)
    (run : events.foldlM Page.step page = some final) :
    ∃ traffic next, traffic.foldlM Requests.step requests = some next ∧ final.Follows next ∧
      answers traffic = responses events ∧ requests.issued ≤ next.issued ∧
      ∀ number, .fail number ∈ traffic → ∃ message, .answer number (.error message) ∈ events := by
  induction events generalizing page requests with
  | nil =>
      cases run
      exact ⟨[], requests, rfl, follows, rfl, le_rfl, by simp⟩
  | cons event events ih =>
      rw [List.foldlM_cons, Option.bind_eq_bind, Option.bind_eq_some_iff] at run
      rcases run with ⟨after, taken, later⟩
      rcases follows.step taken with ⟨first, middle, moved, follows, same, failed⟩
      rcases ih follows later with ⟨rest, next, moves, follows, others, grows, failures⟩
      refine ⟨first ++ rest, next, ?_, follows, ?_, ?_, ?_⟩
      · rw [List.foldlM_append, moved]
        exact moves
      · rw [answers, List.filterMap_append]
        change answers first ++ answers rest = _
        rw [same, others, responses, responses]
        cases shape : event.response with
        | none => rw [List.filterMap_cons_none shape]; rfl
        | some response => rw [List.filterMap_cons_some shape]; rfl
      · exact (Requests.issued_le_of_run moved).trans grows
      · intro number mem
        rcases List.mem_append.mp mem with now | later
        · rcases failed number now with ⟨message, rfl⟩
          exact ⟨message, List.mem_cons_self⟩
        · rcases failures number later with ⟨message, mem⟩
          exact ⟨message, List.mem_cons_of_mem _ mem⟩

/-- The first request is made when the page is loaded. -/
theorem follows_boot (showAll : Bool) :
    (Page.boot showAll).Follows { issued := 1, pending := [0], shown := none } :=
  ⟨rfl, rfl, fun _ none => absurd none (by simp)⟩

/-- Once every request has been answered well, the page shows the answer to the newest of
them if and only if the answer that came last lists the same processes. -/
theorem shows_newest_iff {showAll : Bool} {events : List PageEvent} {page : Page}
    (run : events.foldlM Page.step (.boot showAll) = some page) (answered : page.pending = [])
    (successful : ∀ number message, .answer number (.error message) ∉ events) :
    ∃ newest arrived, (responses events).lookup (page.issued - 1) = some newest ∧
      (responses events).getLast?.map Prod.snd = some arrived ∧
      (page.Shows newest ↔ arrived.processes = newest.processes) := by
  rcases (follows_boot showAll).run run with
    ⟨traffic, requests, moves, follows, same, grows, failures⟩
  have none : requests.pending = [] := by
    rw [follows.pending, answered]
    rfl
  have never : ∀ number, .fail number ∉ Traffic.issue :: traffic := by
    intro number mem
    rcases List.mem_cons.mp mem with impossible | later
    · cases impossible
    · rcases failures number later with ⟨message, mem⟩
      exact successful number message mem
  rcases @Requests.shown_of_answered _ (.issue :: traffic) requests moves
      (Nat.one_le_iff_ne_zero.mp grows) none never with ⟨newest, arrived, found, last, shown⟩
  have shows := follows.shown arrived shown
  have all : answers (.issue :: traffic) = responses events := same
  rw [all] at found last
  rw [follows.issued] at found
  refine ⟨newest, arrived, found, last, fun other => ?_, fun equal => ⟨?_, ?_⟩⟩
  · exact shows.processes.symm.trans other.processes
  · exact shows.processes.trans equal
  · rw [← equal]
    exact shows.table

/-- A process that the engine refuses. -/
def refusedProcess : ListedProcess where
  row := {
    pid := 7
    name := text "a"
    cmdline := text "a"
    user := text "root"
    state := text "sleeping"
    threads := 2
    rssKb := 4 }
  level := .blocked
  reasons := [⟨text "multi_threaded", text "2 threads"⟩]

/-- Without "Show all" it is left out. -/
def shownAnswer : ProcessesPayload where
  processes := []
  counts := ⟨0, 0, 1, 0⟩
  kernelThreads := 0

def fullAnswer : ProcessesPayload :=
  { shownAnswer with processes := [refusedProcess] }

/-- "Show all" is switched on and off, and the answers come in the order of their requests. -/
def inOrder : List PageEvent :=
  [.answer 0 (.ok shownAnswer), .showAll, .showAll, .answer 1 (.ok fullAnswer),
    .answer 2 (.ok shownAnswer)]

theorem shows_newest_iff_inOrder :
    ∃ page, inOrder.foldlM Page.step (.boot false) = some page ∧
      ∃ newest arrived, (responses inOrder).lookup (page.issued - 1) = some newest ∧
        (responses inOrder).getLast?.map Prod.snd = some arrived ∧
        (page.Shows newest ↔ arrived.processes = newest.processes) :=
  ⟨_, rfl, @shows_newest_iff false inOrder _ rfl rfl (by simp [inOrder])⟩

/-- The same with the last two answers the other way round. -/
def overtaken : List PageEvent :=
  [.answer 0 (.ok shownAnswer), .showAll, .showAll, .answer 2 (.ok shownAnswer),
    .answer 1 (.ok fullAnswer)]

/-- The refused process is shown, and "Show all" is off. -/
theorem not_shows_newest :
    ¬ ∀ (showAll : Bool) (events : List PageEvent) (page : Page) (newest : ProcessesPayload),
      events.foldlM Page.step (.boot showAll) = some page → page.pending = [] →
      (∀ number message, .answer number (.error message) ∉ events) →
      (responses events).lookup (page.issued - 1) = some newest → page.Shows newest := by
  intro all
  have shows := all false overtaken _ shownAnswer rfl rfl (by simp [overtaken]) rfl
  cases shows.processes

end Runs

end Ksnap.Frontend
