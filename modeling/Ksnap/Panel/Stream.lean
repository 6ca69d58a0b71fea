import Ksnap.Foundation.Raising
import Ksnap.Foundation.Stream
import Ksnap.Panel.Calls

/-!
# The output of a restore

`_stream_output` of `engine.py`: the thread that pumps the output of the engine and of the
restored program into the console, and ends the session when the output is closed. The
pipe hands the output out in pieces of any size, and is decoded strictly.

The thread gets to the end of the session exactly on output that is UTF-8 from its first
byte to its last. On any other it dies of an exception that nobody sees.
-/

namespace Ksnap.Panel

open Foundation Foundation.Program

/-! ## The thread -/

inductive StreamCall : Type where
  /-- A read of the pipe, which waits until there is something, or the end -/
  | read
  /-- `logbook.append` -/
  | log (message : Text) (level : Level) (source : Text)
  /-- `session.process.wait()` -/
  | wait
  | setReturncode (returncode : ℤ)
  /-- `datetime.now(timezone.utc).isoformat()` -/
  | now
  | setFinishedAt (finishedAt : Text)

def StreamCall.Reply : StreamCall → Type
  | .read => Bytes
  | .wait => ℤ
  | .now => Text
  | _ => Unit

abbrev StreamInterface : Interface where
  Call := StreamCall
  Reply := StreamCall.Reply

abbrev Streaming (α : Type) : Type := Raising StreamInterface PythonError α

def StreamCall.perform (request : StreamCall) : Streaming request.Reply :=
  @Raising.perform StreamInterface PythonError request

/-- `line.rstrip("\n")` -/
def rstripNewline (line : Text) : Text :=
  line.rdropWhile (· = 10)

/-- The call that records a line. -/
def recordLine (line : Text) : StreamCall :=
  .log (rstripNewline line) .output (text "restore")

/-- The call that records how the restore ended. -/
def recordEnd (name : Text) (returncode : ℤ) : StreamCall :=
  if returncode = 0 then
    .log (text "Restored process from " ++ name ++ text " exited normally") .success
      (text "restore")
  else
    .log (text "Restore of " ++ name ++ text " ended with code " ++ decimal returncode) .error
      (text "restore")

/-- A call whose reply is not looked at. -/
def effect (request : StreamCall) : Streaming Unit := do
  let _ ← request.perform

/-- What comes of one piece of the output, with what follows. -/
def takePiece (reader : TextReader) (more : TextReader → Streaming Unit) (piece : Bytes) :
    Streaming Unit :=
  if piece = [] then
    match reader.finish with
    | none => throw .unicodeDecodeError
    | some lines => lines.forM fun line => effect (recordLine line)
  else
    match reader.feed piece with
    | none => throw .unicodeDecodeError
    | some (lines, next) => do
        lines.forM fun line => effect (recordLine line)
        more next

/-- `for line in session.process.stdout`, with so many reads of the pipe. -/
def pumpLines : ℕ → TextReader → Streaming Unit
  | 0, _ => ExceptT.mk .unfinished
  | reads + 1, reader => do
      let piece : Bytes ← StreamCall.read.perform
      takePiece reader (pumpLines reads) piece

/-- `_stream_output` for the session of a snapshot with this name. -/
def streamOutput (name : Text) (reads : ℕ) : Streaming Unit := do
  pumpLines reads .fresh
  let returncode : ℤ ← StreamCall.wait.perform
  effect (.setReturncode returncode)
  let finishedAt : Text ← StreamCall.now.perform
  effect (.setFinishedAt finishedAt)
  effect (recordEnd name returncode)

/-! ## The pipe -/

/-- The output that is still in the pipe or not written yet, and what the thread did with
the logbook and the session, in order. -/
structure StreamState where
  unread : Bytes
  effects : List StreamCall

/-- A read gets some of the output, and nothing at its end only. -/
def StreamStep (before : StreamState) :
    (request : StreamCall) → request.Reply → StreamState → Prop
  | .read, (piece : Bytes), after =>
      (piece = [] → before.unread = []) ∧ before.unread = piece ++ after.unread ∧
        after.effects = before.effects
  | .wait, _, after | .now, _, after => after = before
  | request, _, after => after = { before with effects := before.effects ++ [request] }

abbrev pipe : Environment StreamInterface where
  State := StreamState
  step := StreamStep

/-- The whole output is read, every line of it recorded in order, and then the session ended
with the code and the time. -/
def StreamedTo (name : Text) (lines : List Text) (outcome : Except PythonError Unit)
    (final : StreamState) : Prop :=
  outcome = .ok () ∧ final.unread = [] ∧ ∃ returncode finishedAt,
    final.effects = lines.map recordLine ++
      [.setReturncode returncode, .setFinishedAt finishedAt, recordEnd name returncode]

/-- Whatever pieces the output comes in, the thread comes to an end behind it. -/
def Streams (name : Text) (output : Bytes) : Prop :=
  ∀ reads, output.length < reads → (streamOutput name reads).run.Finishes pipe
    (StreamedTo name (streamLines (decodeReplace output))) ⟨output, []⟩

/-! ## Pieces and lines -/

section

variable {post : Except PythonError Unit → StreamState → Prop} {state : StreamState}

theorem finishes_effect {request : StreamCall}
    (acts : ∀ before reply after, StreamStep before request reply after →
      after = { before with effects := before.effects ++ [request] })
    (holds : post (.ok ()) { state with effects := state.effects ++ [request] }) :
    (effect request).run.Finishes pipe post state := by
  intro reply after step
  rw [acts state reply after step]
  exact holds

/-- Lines are recorded in their order. -/
theorem finishes_records {lines : List Text}
    (holds : post (.ok ()) { state with effects := state.effects ++ lines.map recordLine }) :
    (lines.forM fun line => effect (recordLine line)).run.Finishes pipe post state := by
  induction lines generalizing state with
  | nil =>
      rw [List.map_nil, List.append_nil] at holds
      exact holds
  | cons line lines ih =>
      refine finishes_raising_bind.mpr (finishes_effect ?_ ?_)
      · intro _ _ _ step
        exact step
      · apply ih
        rw [List.append_assoc]
        exact holds

/-- A piece of the output leaves fewer bytes than there are reads. -/
theorem unread_lt_reads {unread piece rest : Bytes} {reads : ℕ} (split : unread = piece ++ rest)
    (nonempty : piece ≠ []) (enough : unread.length < reads + 1) : rest.length < reads := by
  have length := congrArg List.length split
  have positive := List.length_pos_iff.mpr nonempty
  rw [List.length_append] at length
  omega

/-- The lines of the rest of the output are recorded. -/
theorem pumpLines_finishes {reads : ℕ} {reader : TextReader} {lines : List Text}
    (whole : reader.linesOf state.unread = some lines) (enough : state.unread.length < reads) :
    (pumpLines reads reader).run.Finishes pipe (fun outcome final => outcome = .ok () ∧
      final = ⟨[], state.effects ++ lines.map recordLine⟩) state := by
  induction reads generalizing reader state lines with
  | zero => exact absurd enough (Nat.not_lt_zero _)
  | succ reads ih =>
      intro (piece : Bytes) middle step
      rcases step with ⟨atEnd, split, effects⟩
      change (takePiece reader (pumpLines reads) piece).run.Finishes pipe _ middle
      by_cases isEnd : piece = []
      · have nothing := atEnd isEnd
        have unread : middle.unread = [] := by
          rw [nothing] at split
          exact (List.append_eq_nil_iff.mp split.symm).2
        rw [nothing, reader.linesOf_nil] at whole
        rw [takePiece, if_pos isEnd, whole]
        apply finishes_records
        refine ⟨rfl, ?_⟩
        rw [unread, effects]
      · rw [split, reader.linesOf_append] at whole
        rcases Option.bind_eq_some_iff.mp whole with ⟨⟨first, next⟩, feeds, later⟩
        rcases Option.map_eq_some_iff.mp later with ⟨rest, restLines, rfl⟩
        rw [takePiece, if_neg isEnd, feeds]
        refine finishes_raising_bind.mpr (finishes_records ?_)
        have shorter := unread_lt_reads split isEnd enough
        refine (@ih { middle with effects := middle.effects ++ first.map recordLine } next rest
          restLines shorter).mono ?_
        rintro outcome final ⟨success, rfl⟩
        refine ⟨success, ?_⟩
        rw [effects, List.map_append, List.append_assoc]

/-- On output that is malformed somewhere in the rest, the thread dies before the session
is ended. -/
theorem pumpLines_raises {reads : ℕ} {reader : TextReader}
    (malformed : reader.linesOf state.unread = none) (enough : state.unread.length < reads) :
    (pumpLines reads reader).run.Finishes pipe (fun outcome final =>
      outcome = .error .unicodeDecodeError ∧ ∃ recorded : List Text,
        final.effects = state.effects ++ recorded.map recordLine) state := by
  induction reads generalizing reader state with
  | zero => exact absurd enough (Nat.not_lt_zero _)
  | succ reads ih =>
      intro (piece : Bytes) middle step
      rcases step with ⟨atEnd, split, effects⟩
      change (takePiece reader (pumpLines reads) piece).run.Finishes pipe _ middle
      by_cases isEnd : piece = []
      · rw [atEnd isEnd, reader.linesOf_nil] at malformed
        rw [takePiece, if_pos isEnd, malformed]
        exact ⟨rfl, [], by rw [effects]; simp⟩
      · rw [split, reader.linesOf_append] at malformed
        rw [takePiece, if_neg isEnd]
        cases feeds : reader.feed piece with
        | none => exact ⟨rfl, [], by rw [effects]; simp⟩
        | some fed =>
            rcases fed with ⟨first, next⟩
            rw [feeds, Option.bind_some, Option.map_eq_none_iff] at malformed
            refine finishes_raising_bind.mpr (finishes_records ?_)
            have shorter := unread_lt_reads split isEnd enough
            refine (@ih { middle with effects := middle.effects ++ first.map recordLine } next
              malformed shorter).mono ?_
            rintro outcome final ⟨fails, recorded, all⟩
            refine ⟨fails, first ++ recorded, ?_⟩
            rw [all, effects, List.map_append, List.append_assoc]

end

/-! ## The whole output -/

/-- On malformed output every run of the thread ends in an exception, and the session is left
without its end. -/
theorem streamOutput_raises {name : Text} {output : Bytes} {reads : ℕ}
    (malformed : decodeStrict output = none) (enough : output.length < reads) :
    (streamOutput name reads).run.Finishes pipe (fun outcome final =>
      outcome = .error .unicodeDecodeError ∧
        ∃ recorded : List Text, final.effects = recorded.map recordLine)
      ⟨output, []⟩ := by
  have none_ : TextReader.fresh.linesOf output = none := by rw [linesOf_fresh, malformed]; rfl
  refine finishes_raising_bind.mpr ((@pumpLines_raises ⟨output, []⟩ reads _ none_ enough).mono ?_)
  rintro outcome final ⟨rfl, recorded, effects⟩
  exact ⟨rfl, recorded, effects⟩

theorem acts_recordEnd (name : Text) (returncode : ℤ) (before : StreamState)
    (reply : (recordEnd name returncode).Reply) (after : StreamState)
    (step : StreamStep before (recordEnd name returncode) reply after) :
    after = { before with effects := before.effects ++ [recordEnd name returncode] } := by
  have isLog : ∃ message level source,
      recordEnd name returncode = .log message level source := by
    unfold recordEnd
    split
    · exact ⟨_, _, _, rfl⟩
    · exact ⟨_, _, _, rfl⟩
  rcases isLog with ⟨message, level, source, same⟩
  generalize recordEnd name returncode = request at reply step same ⊢
  subst same
  exact step

/-- Every call of the thread is answered. -/
theorem pipe_answers (state : StreamState) (request : StreamCall) :
    ∃ reply after, StreamStep state request reply after := by
  cases request with
  | read => exact ⟨state.unread, { state with unread := [] }, id, by simp, rfl⟩
  | wait => exact ⟨(0 : ℤ), state, rfl⟩
  | now => exact ⟨([] : Text), state, rfl⟩
  | log message level source => exact ⟨(), _, rfl⟩
  | setReturncode returncode => exact ⟨(), _, rfl⟩
  | setFinishedAt finishedAt => exact ⟨(), _, rfl⟩

/-- The thread drains the pipe, records every line and ends the session exactly on output
that is UTF-8. -/
theorem streams_iff (name : Text) (output : Bytes) :
    Streams name output ↔ (decodeStrict output).isSome := by
  constructor
  · intro streams
    by_contra malformed
    rw [Option.not_isSome_iff_eq_none] at malformed
    have raises := @streamOutput_raises name output _ malformed (Nat.lt_succ_self _)
    rcases raises.exists_run pipe_answers with ⟨outcome, final, run, fails, _⟩
    have success := ((streams _ (Nat.lt_succ_self _)).exec run).1
    rw [fails] at success
    cases success
  · intro valid reads enough
    rcases Option.isSome_iff_exists.mp valid with ⟨whole, decoded⟩
    have lines : TextReader.fresh.linesOf output = some (streamLines whole) := by
      rw [linesOf_fresh, decoded]
      rfl
    rw [decodeReplace_of_decodeStrict decoded]
    refine finishes_raising_bind.mpr
      ((@pumpLines_finishes ⟨output, []⟩ reads _ _ lines enough).mono ?_)
    rintro outcome final ⟨rfl, rfl⟩
    intro returncode waited same
    subst same
    refine finishes_raising_bind.mpr (finishes_effect (fun _ _ _ step => step) ?_)
    intro finishedAt timed same
    subst same
    refine finishes_raising_bind.mpr (finishes_effect (fun _ _ _ step => step) ?_)
    exact finishes_effect (acts_recordEnd name returncode)
      ⟨rfl, rfl, returncode, finishedAt, by simp⟩

/-- A byte that is no UTF-8 stops the thread. -/
theorem not_streams : ¬∀ (name : Text) (output : Bytes), Streams name output := by
  intro always
  have raises := @streamOutput_raises (text "a.ksnap") [0xFF, 10] 3 rfl (by decide)
  rcases raises.exists_run pipe_answers with ⟨outcome, final, run, fails, _⟩
  have success := ((always _ [0xFF, 10] 3 (by decide)).exec run).1
  rw [fails] at success
  cases success

end Ksnap.Panel
