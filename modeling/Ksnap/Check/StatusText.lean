import Ksnap.Check.Agreement
import Ksnap.Foundation.Printed

/-!
# What Check reads of `status`

The kernel prints `/proc/<pid>/status` with the name of the process on its first line, and a
process gives itself any name. Other lines are longer than the buffer of the loop, which then
sees them in several pieces. Neither is taken for a field: every field comes from the line
that the kernel prints it on.
-/

namespace Ksnap

open Foundation

/-! ## The kernel's lines -/

/-- A line that Check does not read. What does not fit into the buffer of 512 bytes (groups,
processors) is numbers. -/
structure OtherStatusLine where
  body : Bytes
  unbroken : 10 ∉ body
  other : ∀ field ∈ statusFields, startsWith body field.name = false
  later : ∀ byte ∈ body.drop 511, byte < 65 ∨ 90 < byte

/-- A number of a field, with the blanks in front of it and the text behind it. -/
structure StatusNumber (limit : ℕ) where
  padding : ℕ
  number : ℕ
  rest : Bytes
  small : number < limit
  narrow : padding + rest.length ≤ 400
  stops : Starts (isDigitOf 10 · = false) rest
  unbroken : 10 ∉ rest
  nulFree : 0 ∉ rest

/-- The state of a process: its letter, and the word for it. -/
structure StatusLetter where
  letter : UInt8
  rest : Bytes
  narrow : rest.length ≤ 400
  visible : isSpace letter = false
  notNul : letter ≠ 0
  unbroken : 10 ∉ rest
  nulFree : 0 ∉ rest

/-- The name of a process as it is printed, with its newlines escaped. -/
structure StatusName where
  printed : Bytes
  narrow : printed.length ≤ 400
  unbroken : 10 ∉ printed
  nulFree : 0 ∉ printed

/-- One line of `/proc/<pid>/status`. -/
inductive StatusLine where
  | name (shown : StatusName)
  | state (shown : StatusLetter)
  | uid (shown : StatusNumber (2 ^ 32))
  | threads (shown : StatusNumber (2 ^ 31))
  | tracerPid (shown : StatusNumber (2 ^ 31))
  | rss (shown : StatusNumber (2 ^ 64))
  | other (shown : OtherStatusLine)

/-- The text behind the tab. -/
def StatusNumber.text {limit : ℕ} (shown : StatusNumber limit) : Bytes :=
  List.replicate shown.padding 32 ++ (printNumber 10 1 shown.number ++ shown.rest)

/-- What `%63[^\n]` reads of a name, behind white space. -/
def StatusName.visible (shown : StatusName) : Bytes :=
  (skipSpace shown.printed).take 63

namespace StatusLine

/-- The line without its newline. -/
def body : StatusLine → Bytes
  | .name shown => ascii "Name:" ++ 9 :: shown.printed
  | .state shown => ascii "State:" ++ 9 :: shown.letter :: shown.rest
  | .uid shown => ascii "Uid:" ++ 9 :: shown.text
  | .threads shown => ascii "Threads:" ++ 9 :: shown.text
  | .tracerPid shown => ascii "TracerPid:" ++ 9 :: shown.text
  | .rss shown => ascii "VmRSS:" ++ 9 :: shown.text
  | .other shown => shown.body

/-- What the line tells. A name of blanks tells nothing. -/
def record (report : CheckReport) : StatusLine → CheckReport
  | .name shown => if shown.visible = [] then report else { report with comm := shown.visible }
  | .state shown => { report with state := shown.letter }
  | .uid shown => { report with uid := .ofNat shown.number }
  | .threads shown => { report with threads := (UInt32.ofNat shown.number).toInt32 }
  | .tracerPid shown => { report with tracerPid := (UInt32.ofNat shown.number).toInt32 }
  | .rss shown => { report with rssKb := .ofNat shown.number }
  | .other _ => report

end StatusLine

/-- The file with these lines. -/
def statusText (lines : List StatusLine) : Bytes :=
  lines.flatMap fun line => line.body ++ [10]

/-! ## One piece -/

/-- A piece that starts with a field, behind which the conversion finds a value. -/
theorem readStatusLine_field {field : StatusField} {tail : Bytes} {value : Field}
    (first : (statusFields.find? fun field_ => startsWith (field.name ++ tail) field_.name) =
      some field)
    (noNul : 0 ∉ field.name) (nulFree : 0 ∉ tail)
    (scanned : sscanf [.space, field.conversion] tail = [value]) (report : CheckReport) :
    readStatusLine report (field.name ++ tail) = field.store value report := by
  have whole : cString (field.name ++ tail) = field.name ++ tail :=
    cString_of_notMem fun mem => (List.mem_append.mp mem).elim noNul nulFree
  simp only [readStatusLine, whole, first, sscanf_literals, scanned]

/-- A piece that starts with a field, behind which the conversion finds nothing. -/
theorem readStatusLine_unscanned {field : StatusField} {tail : Bytes}
    (first : (statusFields.find? fun field_ => startsWith (field.name ++ tail) field_.name) =
      some field)
    (noNul : 0 ∉ field.name) (nulFree : 0 ∉ tail)
    (scanned : sscanf [.space, field.conversion] tail = []) (report : CheckReport) :
    readStatusLine report (field.name ++ tail) = report := by
  have whole : cString (field.name ++ tail) = field.name ++ tail :=
    cString_of_notMem fun mem => (List.mem_append.mp mem).elim noNul nulFree
  simp only [readStatusLine, whole, first, sscanf_literals, scanned]

/-- A piece that starts with no field. -/
theorem readStatusLine_other {piece : Bytes}
    (other : ∀ field ∈ statusFields, startsWith piece field.name = false) (report : CheckReport) :
    readStatusLine report piece = report := by
  have none_ : (statusFields.find? fun field => startsWith (cString piece) field.name) = none := by
    rw [List.find?_eq_none]
    intro field mem starts
    have inside : cString piece <+: piece := List.takeWhile_prefix _
    have whole := (List.isPrefixOf_iff_prefix.mp starts).trans inside
    exact Bool.eq_false_iff.mp (other field mem) (List.isPrefixOf_iff_prefix.mpr whole)
  simp only [readStatusLine, none_]

theorem toLong_of_lt {number : ℕ} (lt : number < 2 ^ 31) : toLong true false number = number := by
  rw [toLong, if_pos rfl, if_neg Bool.false_ne_true]
  omega

/-- A number on its line is read. -/
theorem sscanf_statusNumber {limit bits : ℕ} {signed : Bool} (shown : StatusNumber limit)
    (enough : limit ≤ 2 ^ bits) (fits : toLong signed false shown.number = shown.number) :
    sscanf [.space, .integer 10 bits signed] (9 :: (shown.text ++ [10])) =
      [.number shown.number] := by
  have blank : ∀ byte ∈ List.replicate shown.padding (32 : UInt8), isSpace byte = true := by
    intro byte mem
    rw [List.eq_of_mem_replicate mem]
    rfl
  have isWord : IsWord (printNumber 10 1 shown.number) :=
    isWord_printNumber (by decide) (by decide) (by decide)
  have stops : Starts (isDigitOf 10 · = false) (shown.rest ++ [10]) := by
    have own := shown.stops
    cases rest : shown.rest with
    | nil => exact starts_cons rfl
    | cons byte others => exact starts_cons (own byte (by rw [rest]; rfl))
  have skips : skipSpace (9 :: (shown.text ++ [10])) =
      printNumber 10 1 shown.number ++ (shown.rest ++ [10]) := by
    have tab : ∀ byte ∈ 9 :: List.replicate shown.padding (32 : UInt8), isSpace byte = true := by
      intro byte mem
      rcases List.mem_cons.mp mem with rfl | mem
      · rfl
      · exact blank byte mem
    have text : 9 :: (shown.text ++ [10]) = (9 :: List.replicate shown.padding (32 : UInt8)) ++
        (printNumber 10 1 shown.number ++ (shown.rest ++ [10])) := by
      simp [StatusNumber.text]
    rw [text, skipSpace_append tab]
    exact isWord.skipSpace _
  have noBlank : ∀ byte ∈ ([] : Bytes), isSpace byte = true := by simp
  have scanned := @scanInteger_decimal bits _ _ _ _ noBlank fits stops
  rw [List.nil_append, Nat.mod_eq_of_lt (shown.small.trans_le enough)] at scanned
  simp only [sscanf, skips, scanned]

theorem zero_notMem_text {limit : ℕ} (shown : StatusNumber limit) :
    0 ∉ 9 :: (shown.text ++ [10]) := by
  have digits : 0 ∉ printNumber 10 1 shown.number := by
    intro mem
    rcases exists_digit_of_mem (by decide) mem with ⟨digit, lt, same⟩
    exact (printedDigit_spec digit (by omega)).2.2.2.2.2.2.1 same.symm
  simp [StatusNumber.text, List.mem_replicate, digits, shown.nulFree]

theorem unbroken_text {limit : ℕ} (shown : StatusNumber limit) : 10 ∉ shown.text := by
  have digits : 10 ∉ printNumber 10 1 shown.number := by
    intro mem
    rcases exists_digit_of_mem (by decide) mem with ⟨digit, lt, same⟩
    exact (printedDigit_spec digit (by omega)).2.2.2.2.2.2.2 same.symm
  simp [StatusNumber.text, List.mem_replicate, digits, shown.unbroken]

theorem length_text_le {limit : ℕ} (shown : StatusNumber limit) (enough : limit ≤ 10 ^ 20) :
    shown.text.length ≤ 420 := by
  have digits : (printNumber 10 1 shown.number).length ≤ 20 :=
    length_printNumber_le (by decide) (by decide) (shown.small.trans_le enough)
  have narrow := shown.narrow
  simp only [StatusNumber.text, List.length_append, List.length_replicate]
  omega

/-- The name is read without the white space in front of it. -/
theorem sscanf_statusName (shown : StatusName) :
    sscanf [.space, .line 63] (9 :: (shown.printed ++ [10])) =
      if shown.visible = [] then [] else [.text shown.visible] := by
  have skips : skipSpace (9 :: (shown.printed ++ [10])) = skipSpace (shown.printed ++ [10]) := rfl
  have value : ((skipSpace (shown.printed ++ [10])).takeWhile (· ≠ 10)).take 63 =
      shown.visible := by
    rw [StatusName.visible]
    by_cases blank : ∀ byte ∈ shown.printed, isSpace byte = true
    · have empty : skipSpace shown.printed = [] := List.dropWhile_eq_nil_iff.mpr blank
      rw [skipSpace_append blank, empty]
      rfl
    · have some_ : (skipSpace shown.printed) ≠ [] := by
        intro empty
        exact blank (List.dropWhile_eq_nil_iff.mp empty)
      have behind : skipSpace (shown.printed ++ [10]) = skipSpace shown.printed ++ [10] := by
        rw [skipSpace, List.dropWhile_append, if_neg (by simpa [skipSpace] using some_)]
        rfl
      have unbroken : ∀ byte ∈ skipSpace shown.printed, decide (byte ≠ 10) = true := by
        intro byte mem
        refine decide_eq_true fun same => shown.unbroken ?_
        exact (List.dropWhile_sublist _).subset (same ▸ mem)
      rw [behind, List.takeWhile_append_of_pos unbroken]
      simp
  simp only [sscanf, skips, value]

/-! ## One line -/

/-- A field's line fits into one piece. -/
theorem fgetsLines_short {body : Bytes} (unbroken : 10 ∉ body) (short : body.length ≤ 510) :
    fgetsLines 512 (body ++ [10]) = [body ++ [10]] := by
  rw [fgetsLines_line unbroken, List.take_of_length_le (by simp; omega),
    List.drop_eq_nil_of_le (by simp; omega)]
  rfl

theorem unbroken_body (line : StatusLine) : 10 ∉ line.body := by
  cases line with
  | name shown => simpa [StatusLine.body, ascii] using shown.unbroken
  | state shown =>
      have notNewline : shown.letter ≠ 10 := by
        rintro same
        have visible := shown.visible
        rw [same] at visible
        cases visible
      simp [StatusLine.body, ascii, notNewline.symm, shown.unbroken]
  | uid shown => simpa [StatusLine.body, ascii] using unbroken_text shown
  | threads shown => simpa [StatusLine.body, ascii] using unbroken_text shown
  | tracerPid shown => simpa [StatusLine.body, ascii] using unbroken_text shown
  | rss shown => simpa [StatusLine.body, ascii] using unbroken_text shown
  | other shown => exact shown.unbroken

/-- The fields start with a capital letter. -/
theorem name_of_mem_statusFields {field : StatusField} (mem : field ∈ statusFields) :
    10 ∉ field.name ∧ ∃ first rest, field.name = first :: rest ∧ 65 ≤ first ∧ first ≤ 90 := by
  simp only [statusFields, List.mem_cons, List.not_mem_nil, or_false] at mem
  rcases mem with rfl | rfl | rfl | rfl | rfl | rfl
  all_goals exact ⟨by decide, _, _, rfl, by decide, by decide⟩

/-- No piece of a line that Check does not read starts with a field. -/
theorem not_startsWith_piece (shown : OtherStatusLine) {piece : Bytes}
    (mem : piece ∈ fgetsLines 512 (shown.body ++ [10])) {field : StatusField}
    (isField : field ∈ statusFields) : startsWith piece field.name = false := by
  rcases name_of_mem_statusFields isField with ⟨noNewline, first, rest, named, capital⟩
  rw [Bool.eq_false_iff]
  intro starts
  have isPrefix := List.isPrefixOf_iff_prefix.mp starts
  rw [fgetsLines_line shown.unbroken, List.mem_cons] at mem
  rcases mem with rfl | later
  · have whole := isPrefix.trans (List.take_prefix _ _)
    have inBody : field.name <+: shown.body := by
      rcases List.prefix_concat_iff.mp whole with same | inBody
      · exact absurd (same ▸ List.mem_append_right _ (List.mem_singleton_self 10)) noNewline
      · exact inBody
    exact Bool.eq_false_iff.mp (shown.other field isField) (List.isPrefixOf_iff_prefix.mpr inBody)
  · have inPiece : first ∈ piece := isPrefix.subset (named ▸ List.mem_cons_self)
    have inLater : piece ∈ fgetsLines 512 ((shown.body ++ [10]).drop 511) := by
      rcases List.mem_append.mp later with inLater | none_
      · exact inLater
      · cases none_
    have byte := mem_of_mem_fgetsLines inLater inPiece
    rw [List.drop_append] at byte
    rcases List.mem_append.mp byte with inBody | newline
    · rcases shown.later first inBody with low | high
      · exact absurd capital.1 (UInt8.not_le.mpr low)
      · exact absurd capital.2 (UInt8.not_le.mpr high)
    · rw [List.mem_singleton.mp (List.mem_of_mem_drop newline)] at capital
      exact absurd capital.1 (by decide)

theorem foldl_otherLine (shown : OtherStatusLine) (report : CheckReport) :
    (fgetsLines 512 (shown.body ++ [10])).foldl readStatusLine report = report := by
  have pieces := fun piece mem field isField =>
    @not_startsWith_piece shown piece mem field isField
  generalize fgetsLines 512 (shown.body ++ [10]) = lines at pieces
  induction lines with
  | nil => rfl
  | cons piece lines ih =>
      rw [List.foldl_cons, readStatusLine_other fun field => pieces piece List.mem_cons_self field]
      exact ih fun other mem => pieces other (List.mem_cons_of_mem _ mem)

/-- A line tells what it is printed for, and nothing else. -/
theorem foldl_statusLine (line : StatusLine) (report : CheckReport) :
    (fgetsLines 512 (line.body ++ [10])).foldl readStatusLine report = line.record report := by
  have single : ∀ {name tail : Bytes}, 10 ∉ name ++ tail → (name ++ tail).length ≤ 510 →
      (fgetsLines 512 (name ++ tail ++ [10])).foldl readStatusLine report =
        readStatusLine report (name ++ (tail ++ [10])) := by
    intro name tail unbroken short
    rw [fgetsLines_short unbroken short, List.append_assoc]
    rfl
  have unbroken := unbroken_body line
  cases line with
  | name shown =>
      have narrow := shown.narrow
      rw [StatusLine.body, single unbroken (by simp [ascii]; omega), StatusLine.record]
      have scanned := sscanf_statusName shown
      split at scanned
      · next nothing =>
        rw [if_pos nothing]
        exact @readStatusLine_unscanned nameField _ rfl (by decide) (by simp [shown.nulFree])
          scanned report
      · next something =>
        rw [if_neg something]
        exact @readStatusLine_field nameField _ _ rfl (by decide) (by simp [shown.nulFree])
          scanned report
  | state shown =>
      have narrow := shown.narrow
      rw [StatusLine.body, single unbroken (by simp [ascii]; omega), StatusLine.record]
      have scanned : sscanf [.space, .char] (9 :: (shown.letter :: shown.rest ++ [10])) =
          [.text [shown.letter]] := by
        have skips : skipSpace (9 :: (shown.letter :: shown.rest ++ [10])) =
            shown.letter :: (shown.rest ++ [10]) := skipSpace_of_starts (starts_cons shown.visible)
        simp only [sscanf, skips]
      exact @readStatusLine_field stateField _ _ rfl (by decide)
        (by simp [shown.nulFree, shown.notNul.symm]) scanned report
  | uid shown =>
      have short := length_text_le shown (by decide)
      rw [StatusLine.body, single unbroken (by simp [ascii]; omega)]
      exact @readStatusLine_field uidField _ _ rfl (by decide) (zero_notMem_text shown)
        (sscanf_statusNumber shown le_rfl (if_pos (shown.small.trans (by decide)))) report
  | threads shown =>
      have short := length_text_le shown (by decide)
      rw [StatusLine.body, single unbroken (by simp [ascii]; omega)]
      exact @readStatusLine_field threadsField _ _ rfl (by decide) (zero_notMem_text shown)
        (sscanf_statusNumber shown (by decide) (toLong_of_lt shown.small)) report
  | tracerPid shown =>
      have short := length_text_le shown (by decide)
      rw [StatusLine.body, single unbroken (by simp [ascii]; omega)]
      exact @readStatusLine_field tracerPidField _ _ rfl (by decide) (zero_notMem_text shown)
        (sscanf_statusNumber shown (by decide) (toLong_of_lt shown.small)) report
  | rss shown =>
      have short := length_text_le shown (by decide)
      rw [StatusLine.body, single unbroken (by simp [ascii]; omega)]
      exact @readStatusLine_field rssField _ _ rfl (by decide) (zero_notMem_text shown)
        (sscanf_statusNumber shown le_rfl (if_pos shown.small)) report
  | other shown => exact foldl_otherLine shown report

/-! ## The file -/

theorem foldl_statusText (lines : List StatusLine) (report : CheckReport) :
    (fgetsLines 512 (statusText lines)).foldl readStatusLine report =
      lines.foldl StatusLine.record report := by
  induction lines generalizing report with
  | nil => rfl
  | cons line lines ih =>
      have ends : EndsLine (line.body ++ [10]) := by
        intro byte last
        simpa [eq_comm] using last
      rw [statusText, List.flatMap_cons, fgetsLines_append ends 510, List.foldl_append,
        foldl_statusLine, List.foldl_cons]
      exact ih _

/-- `/proc/<pid>/status` of a process, whose fields the kernel prints in this order. A kernel
thread has no memory and no line for it. -/
structure ShownStatus where
  name : StatusName
  toState : List OtherStatusLine
  state : StatusLetter
  toTracer : List OtherStatusLine
  tracerPid : StatusNumber (2 ^ 31)
  toUid : List OtherStatusLine
  uid : StatusNumber (2 ^ 32)
  toRss : List OtherStatusLine
  rss : Option (StatusNumber (2 ^ 64))
  toThreads : List OtherStatusLine
  threads : StatusNumber (2 ^ 31)
  toEnd : List OtherStatusLine

namespace ShownStatus

variable (shown : ShownStatus)

def lines : List StatusLine :=
  .name shown.name :: (shown.toState.map .other ++ .state shown.state ::
    (shown.toTracer.map .other ++ .tracerPid shown.tracerPid ::
      (shown.toUid.map .other ++ .uid shown.uid ::
        (shown.toRss.map .other ++ ((shown.rss.map .rss).toList ++
          (shown.toThreads.map .other ++ .threads shown.threads ::
            shown.toEnd.map .other))))))

/-- The report of a process with this status, before anything else is read. -/
def reported (pid : Int32) : CheckReport :=
  { CheckReport.initial pid with
    comm := shown.name.visible
    state := shown.state.letter
    tracerPid := (UInt32.ofNat shown.tracerPid.number).toInt32
    uid := .ofNat shown.uid.number
    rssKb := (shown.rss.map fun rss => UInt64.ofNat rss.number).getD 0
    threads := (UInt32.ofNat shown.threads.number).toInt32 }

end ShownStatus

theorem foldl_others (others : List OtherStatusLine) (report : CheckReport) :
    (others.map StatusLine.other).foldl StatusLine.record report = report := by
  induction others with
  | nil => rfl
  | cons other others ih => exact ih

theorem reported_of_shown (shown : ShownStatus) {process : CheckedProcess}
    (status : process.status = .ok (statusText shown.lines)) :
    readStatusFields process (.initial process.pid) = .ok (shown.reported process.pid) := by
  have name : (StatusLine.name shown.name).record (.initial process.pid) =
      { CheckReport.initial process.pid with comm := shown.name.visible } := by
    rw [StatusLine.record]
    split
    · next blank => rw [blank]; rfl
    · rfl
  have memory : ∀ report : CheckReport, (shown.rss.map StatusLine.rss).toList.foldl
      StatusLine.record report = { report with
        rssKb := (shown.rss.map fun rss => UInt64.ofNat rss.number).getD report.rssKb } := by
    intro report
    cases shown.rss with
    | none => rfl
    | some rss => rfl
  simp only [readStatusFields, status, foldl_statusText, ShownStatus.lines, List.foldl_cons,
    List.foldl_append, foldl_others, name, memory, ShownStatus.reported]
  rfl

/-- Every field of the status is taken from the line that the kernel prints it on, whatever the
name of the process and however long the other lines are. -/
theorem readStatusFields_shown (shown : ShownStatus) {process : CheckedProcess}
    (status : process.status = .ok (statusText shown.lines)) :
    readStatusFields process (.initial process.pid) = .ok (shown.reported process.pid) :=
  reported_of_shown shown status

/-! ## A name that looks like the file -/

/-- A number alone on its line. -/
def plainNumber {limit : ℕ} (number : ℕ) (small : number < limit) : StatusNumber limit :=
  ⟨0, number, [], small, by decide, by simp [Starts], by decide, by decide⟩

/-- A line with more groups than fit into the buffer. -/
def manyGroups : OtherStatusLine where
  body := ascii "Groups:\t" ++ (List.replicate 200 (ascii "1000 ")).flatten
  unbroken := by decide +kernel
  other := by decide +kernel
  later := by decide +kernel

/-- A sleeping process that calls itself after a line of the superuser, in many groups. -/
def namedStatus : ShownStatus where
  name := ⟨ascii "\\nUid:\t0\\nState:", by decide, by decide, by decide⟩
  toState := [⟨ascii "Umask:\t0022", by decide, by decide, List.forall_mem_nil _⟩]
  state := ⟨83, ascii " (sleeping)", by decide, by decide, by decide, by decide, by decide⟩
  toTracer := []
  tracerPid := plainNumber 0 (by decide)
  toUid := []
  uid := plainNumber 1000 (by decide)
  toRss := [manyGroups]
  rss := none
  toThreads := []
  threads := plainNumber 1 (by decide)
  toEnd := []

def namedProcess : CheckedProcess :=
  { smallestProcess with status := .ok (statusText namedStatus.lines) }

theorem readStatusFields_shown_named :
    readStatusFields namedProcess (.initial 7) = .ok (namedStatus.reported 7) :=
  @readStatusFields_shown namedStatus namedProcess rfl

end Ksnap
