import Ksnap.Foundation.Feed
import Ksnap.Foundation.Interleaving
import Ksnap.Panel.Calls

/-!
# The logbook and who uses it

The logbook is shared by all requests of the panel. Every line of a message is appended
under the lock on its own, `since` and `clear` take the lock once. The console of the
browser shares `state.logCursor` and its lines between the polls of its timer.

Threads share the state of the logbook, of the page, and the history of the feed. What a
thread relies on is that nobody else looks or is answered in its place, and that nobody
changes the entries while it owns the lock.
-/

namespace Ksnap.Panel

open Foundation

/-- An entry of `_entries`. -/
structure LogEntry where
  seq : ℕ
  ts : Text
  level : Level
  source : Text
  message : Text
  deriving DecidableEq

inductive LogCall : Type where
  /-- `_lock.acquire()` -/
  | acquire
  | release
  | readNextSeq
  | writeNextSeq (nextSeq : ℕ)
  /-- `datetime.now(timezone.utc).isoformat()` -/
  | now
  /-- `_entries.append(entry)` -/
  | push (entry : LogEntry)
  | readEntries
  | clearEntries
  /-- A client gets the entries of its reply. -/
  | deliver (entries : List LogEntry)
  /-- `state.logCursor` in the request of a poll -/
  | readCursor
  /-- The response to a poll, or the failure of `api`. -/
  | receive (entries : List LogEntry) (cursor : ℤ)
  /-- `element("console").innerHTML = …` -/
  | clearConsole

def LogCall.Reply : LogCall → Type
  | .readNextSeq => ℕ
  | .now => Text
  | .readEntries => List LogEntry
  | .readCursor => ℤ
  | .receive _ _ => Bool
  | _ => Unit

abbrev LogInterface : Interface where
  Call := LogCall
  Reply := LogCall.Reply

def LogCall.perform (request : LogCall) : Program LogInterface request.Reply :=
  .call request .done

/-! ## `Logbook` -/

namespace Logbook

/-- `with self._lock` -/
def locked {α : Type} (body : Program LogInterface α) : Program LogInterface α := do
  let _ ← LogCall.acquire.perform
  let result ← body
  let _ ← LogCall.release.perform
  return result

/-- What `append` does under the lock. -/
def appendLine (level : Level) (source line : Text) : Program LogInterface LogEntry := do
  let seq : ℕ ← LogCall.readNextSeq.perform
  let ts : Text ← LogCall.now.perform
  let entry : LogEntry :=
    { seq := seq, ts := ts, level := level, source := source, message := line }
  let nextSeq : ℕ ← LogCall.readNextSeq.perform
  let _ ← (LogCall.writeNextSeq (nextSeq + 1)).perform
  let _ ← (LogCall.push entry).perform
  return entry

/-- `str(message).splitlines() or [""]` -/
def linesOf (message : Text) : List Text :=
  match splitlines message with
  | [] => [[]]
  | lines => lines

/-- The entry of the last line is returned. -/
def append (message : Text) (level : Level) (source : Text) :
    Program LogInterface (Option LogEntry) :=
  (linesOf message).foldlM
    (fun _ line => do
      let entry ← locked (appendLine level source line)
      return some entry)
    none

/-- `[entry for entry in self._entries if entry["seq"] > seq]` -/
def newer (entries : List LogEntry) (seq : ℤ) : List LogEntry :=
  entries.filter fun entry => seq < entry.seq

def since (seq : ℤ) : Program LogInterface (List LogEntry × ℤ) :=
  locked do
    let entries : List LogEntry ← LogCall.readEntries.perform
    let nextSeq : ℕ ← LogCall.readNextSeq.perform
    return (newer entries seq, (nextSeq : ℤ) - 1)

def clear : Program LogInterface Unit :=
  locked LogCall.clearEntries.perform

/-- The entries that were put into the buffer. -/
def pushed (record : List (Event LogInterface)) : List LogEntry :=
  record.filterMap fun event =>
    match event.request with
    | .push entry => some entry
    | _ => none

theorem pushed_lockedLine {level : Level} {source line : Text} {entry : LogEntry}
    {before after : List (Event LogInterface)}
    (run : (locked (appendLine level source line)).Exec (Program.recording LogInterface) before
      entry after) :
    pushed after = pushed before ++ [entry] ∧ entry.level = level ∧ entry.source = source ∧
      entry.message = line := by
  rcases run with ⟨_, _, rfl, seq, _, rfl, ts, _, rfl, nextSeq, _, rfl, _, _, rfl, _, _, rfl, _, _,
    rfl, rfl, rfl⟩
  refine ⟨?_, rfl, rfl, rfl⟩
  simp [pushed]

/-- An append puts one entry into the buffer for every line, in their order, and returns the
last one. -/
theorem pushed_append {message source : Text} {level : Level} {result : Option LogEntry}
    {record : List (Event LogInterface)}
    (run : (append message level source).Exec (Program.recording LogInterface) [] result record) :
    (pushed record).map (fun entry => (entry.level, entry.source, entry.message)) =
        (linesOf message).map (fun line => (level, source, line)) ∧
      result = (pushed record).getLast? := by
  have loop : ∀ (lines : List Text) before current, current = (pushed before).getLast? →
      ∀ final, (lines.foldlM
        (fun _ line => do
          let entry ← locked (appendLine level source line)
          return some entry)
        current).Exec (Program.recording LogInterface) before result final →
      (pushed final).map (fun entry => (entry.level, entry.source, entry.message)) =
          (pushed before).map (fun entry => (entry.level, entry.source, entry.message)) ++
            lines.map (fun line => (level, source, line)) ∧
        result = (pushed final).getLast? := by
    intro lines
    induction lines with
    | nil =>
        intro before current isLast final run
        rw [List.foldlM_nil, Program.exec_pure] at run
        rcases run with ⟨rfl, rfl⟩
        exact ⟨(List.append_nil _).symm, isLast⟩
    | cons line lines ih =>
        intro before current _ final run
        rw [List.foldlM_cons, Program.exec_bind] at run
        rcases run with ⟨next, middle, first, rest⟩
        rw [Program.exec_bind] at first
        rcases first with ⟨entry, _, first, rfl, rfl⟩
        rcases pushed_lockedLine first with ⟨grown, sameLevel, sameSource, sameLine⟩
        rcases ih middle (some entry) (by rw [grown, List.getLast?_concat]) final rest with
          ⟨others, last⟩
        refine ⟨?_, last⟩
        rw [others, grown]
        simp [sameLevel, sameSource, sameLine]
  exact loop (linesOf message) [] none rfl record run

end Logbook

/-! ## Users -/

/-- What the modules of the backend do with the logbook. -/
inductive LogRequest : Type where
  | append (message : Text) (level : Level) (source : Text)
  | since (seq : ℤ)
  | clear

def LogRequest.serve : LogRequest → Program LogInterface Unit
  | .append message level source => do let _ ← Logbook.append message level source
  | .since seq => do let _ ← Logbook.since seq
  | .clear => Logbook.clear

/-- A client that passes back the cursor of its previous reply, one poll at a time. -/
def pollRounds : ℕ → ℤ → Program LogInterface Unit
  | 0, _ => pure ()
  | polls + 1, cursor => do
      let reply ← Logbook.since cursor
      let _ ← (LogCall.deliver reply.1).perform
      pollRounds polls reply.2

/-- `pollLogs` of the page, with the request that the backend answers in between. -/
def pollLogs : Program LogInterface Unit := do
  let since : ℤ ← LogCall.readCursor.perform
  let payload ← Logbook.since since
  let _ ← (LogCall.receive payload.1 payload.2).perform

/-- `clearLogs` of the page. -/
def clearLogs : Program LogInterface Unit := do
  let _ ← Logbook.clear
  let _ ← LogCall.clearConsole.perform

/-- A thread is a client, a worker of the backend, one tick of the page's timer, or a click
on the page's button. -/
inductive LogUser : Type where
  | client (polls : ℕ)
  | worker (requests : List LogRequest)
  | tick
  | clearButton

def LogUser.run : LogUser → Program LogInterface Unit
  | .client polls => pollRounds polls 0
  | .worker requests => requests.foldlM (fun _ request => request.serve) ()
  | .tick => pollLogs
  | .clearButton => clearLogs

def LogUser.isClient : LogUser → Prop
  | .client _ => True
  | _ => False

/-! ## The shared state -/

/-- The page: its cursor, the lines of its console, and all lines it ever got. -/
structure Page (ι : Type) where
  logCursor : ℤ
  console : List LogEntry
  shown : List LogEntry
  /-- The cursors in the requests that were sent. -/
  asked : ι → Option ℤ

/-- `appendLogs` and the cursor that goes with it. -/
def Page.receive {ι : Type} (page : Page ι) (entries : List LogEntry) (cursor : ℤ) : Page ι :=
  { page with
    logCursor := cursor
    console := page.console ++ entries
    shown := page.shown ++ entries }

structure LogState (ι : Type) where
  owner : Option ι
  nextSeq : ℕ
  entries : List LogEntry
  feed : List (FeedEvent ι LogEntry)
  page : Page ι

variable {ι : Type} [DecidableEq ι]

/-- What a call of a thread does. `deque(maxlen=capacity)` drops from the front. -/
def logStep (capacity : ℕ) (i : ι) (state : LogState ι) :
    (request : LogCall) → request.Reply → LogState ι → Prop
  | .acquire, _, after => state.owner = none ∧ after = { state with owner := some i }
  | .release, _, after => after = { state with owner := none }
  | .readNextSeq, nextSeq, after => nextSeq = state.nextSeq ∧ after = state
  | .writeNextSeq nextSeq, _, after => after = { state with nextSeq := nextSeq }
  | .now, _, after => after = state
  | .push entry, _, after =>
      after = { state with
        entries := Feed.keepLast capacity (state.entries ++ [entry])
        feed := .pushed entry :: state.feed }
  | .readEntries, entries, after =>
      entries = state.entries ∧ after = { state with feed := .looked i :: state.feed }
  | .clearEntries, _, after =>
      after = { state with entries := [], feed := .cleared :: state.feed }
  | .deliver entries, _, after =>
      after = { state with feed := .delivered i entries :: state.feed }
  | .readCursor, cursor, after =>
      cursor = state.page.logCursor ∧
        after = { state with
          page := { state.page with asked := Function.update state.page.asked i (some cursor) } }
  | .receive entries cursor, true, after =>
      after = { state with page := state.page.receive entries cursor }
  | .receive _ _, false, after => after = state
  | .clearConsole, _, after =>
      after = { state with page := { state.page with console := [] } }

abbrev logSystem (ι : Type) [DecidableEq ι] (capacity : ℕ) : System LogInterface ι where
  State := LogState ι
  step := logStep capacity
  drift := fun _ _ => False

/-- A new logbook and a page that was just loaded, before any of the threads has begun. -/
def logStart (capacity : ℕ) (users : ι → LogUser) : Pool (logSystem ι capacity) Unit where
  shared := { owner := none, nextSeq := 1, entries := [], feed := [],
              page := { logCursor := 0, console := [], shown := [], asked := fun _ => none } }
  thread := fun i => (users i).run

/-- The one answer to each call, when every response arrives. -/
def logAnswer (capacity : ℕ) (i : ι) (state : LogState ι) :
    (request : LogCall) → Option (request.Reply × LogState ι)
  | .acquire =>
      match state.owner with
      | none => some ((), { state with owner := some i })
      | some _ => none
  | .release => some ((), { state with owner := none })
  | .readNextSeq => some (state.nextSeq, state)
  | .writeNextSeq nextSeq => some ((), { state with nextSeq := nextSeq })
  | .now => some (([] : Text), state)
  | .push entry =>
      some ((), { state with
        entries := Feed.keepLast capacity (state.entries ++ [entry])
        feed := .pushed entry :: state.feed })
  | .readEntries => some (state.entries, { state with feed := .looked i :: state.feed })
  | .clearEntries => some ((), { state with entries := [], feed := .cleared :: state.feed })
  | .deliver entries => some ((), { state with feed := .delivered i entries :: state.feed })
  | .readCursor =>
      some (state.page.logCursor, { state with
        page := { state.page with
          asked := Function.update state.page.asked i (some state.page.logCursor) } })
  | .receive entries cursor =>
      some (true, { state with page := state.page.receive entries cursor })
  | .clearConsole => some ((), { state with page := { state.page with console := [] } })

theorem step_of_logAnswer {capacity : ℕ} {i : ι} {state after : LogState ι} {request : LogCall}
    {reply : request.Reply} (answered : logAnswer capacity i state request = some (reply, after)) :
    logStep capacity i state request reply after := by
  cases request with
  | acquire =>
      simp only [logAnswer] at answered
      split at answered
      · next free =>
          cases answered
          exact ⟨free, rfl⟩
      · cases answered
  | readNextSeq =>
      cases answered
      exact ⟨rfl, rfl⟩
  | readEntries =>
      cases answered
      exact ⟨rfl, rfl⟩
  | readCursor =>
      cases answered
      exact ⟨rfl, rfl⟩
  | _ =>
      cases answered
      rfl

end Ksnap.Panel
