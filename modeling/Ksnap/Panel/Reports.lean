import Ksnap.Panel.Listing
import Ksnap.Panel.ReportReading

/-!
# The reports of the engine in the panel

The engine prints one report a line, and `check` reads the lines that `splitlines` makes of
the output. The two agree on where a report ends unless one of its texts holds a character
that breaks lines and is not escaped, and on what it says unless its state is a character
that JSON has another use for.
-/

namespace Ksnap.Panel

open Foundation Raising

/-! ## What a line needs -/

/-- No character above the ones that are escaped breaks a line. -/
def Unbroken (value : Bytes) : Prop :=
  ∀ c ∈ decodeReplace value, c ≠ 0x85 ∧ c ≠ 0x2028 ∧ c ≠ 0x2029

/-- The report stays on its line, and its state is a character of a string. -/
structure KeepsLine (report : CheckReport) : Prop where
  comm : Unbroken report.comm
  exePath : Unbroken report.exePath
  details : ∀ reason ∈ report.reasons, Unbroken reason.detail
  state_ge : 0x20 ≤ report.state
  state_lt : report.state < 0x80
  state_ne : report.state ≠ 34 ∧ report.state ≠ 92

theorem isLineBoundary_iff_of_plain {c : CodePoint} (plain : isPlainChar c = true) :
    isLineBoundary c = false ↔ c ≠ 0x85 ∧ c ≠ 0x2028 ∧ c ≠ 0x2029 := by
  have values : (0x85 : CodePoint).val = 0x85 ∧ (0x2028 : CodePoint).val = 0x2028 ∧
      (0x2029 : CodePoint).val = 0x2029 := ⟨rfl, rfl, rfl⟩
  simp only [isPlainChar, Bool.and_eq_true, decide_eq_true_eq] at plain
  have visible := plain.2
  simp only [isLineBoundary, Bool.or_eq_false_iff, Bool.and_eq_false_iff, decide_eq_false_iff_not,
    beq_eq_false_iff_ne, ne_eq, Fin.ext_iff]
  omega

/-- The characters that are printed as they are do not break the line. -/
theorem unbroken_iff {value : Bytes} :
    Unbroken value ↔
      ∀ c ∈ decodeReplace value, isPlainChar c = true → isLineBoundary c = false := by
  constructor
  · exact fun unbroken c mem plain => (isLineBoundary_iff_of_plain plain).mpr (unbroken c mem)
  · intro inner c mem
    cases plain : isPlainChar c with
    | true => exact (isLineBoundary_iff_of_plain plain).mp (inner c mem plain)
    | false => refine ⟨?_, ?_, ?_⟩ <;> rintro rfl <;> cases plain

theorem isPlainChar_state (state : UInt8) :
    isPlainChar (codePoint state.toNat) = true ↔ 0x20 ≤ state ∧ state ≠ 34 ∧ state ≠ 92 := by
  have values : (34 : CodePoint).val = 34 ∧ (92 : CodePoint).val = 92 := ⟨rfl, rfl⟩
  simp only [isPlainChar, Bool.and_eq_true, bne_iff_ne, decide_eq_true_eq, ne_eq, Fin.ext_iff,
    val_codePoint_byte, values, UInt8.le_iff_toNat_le, ← UInt8.toNat_inj]
  exact and_comm

/-! ## The output as a text -/

/-- The state, behind the carriage return that becomes a newline. -/
def unifiedState (state : UInt8) : CodePoint :=
  if state = 13 then 10 else codePoint state.toNat

def unifiedLine (report : CheckReport) : Text :=
  beforeState report ++ unifiedState report.state :: behindState report

def outputText (reports : List CheckReport) : Text :=
  reports.flatMap fun report => lineText report ++ [10]

theorem noReturn_line (report : CheckReport) :
    (∀ c ∈ beforeState report, c ≠ 13) ∧ ∀ c ∈ behindState report, c ≠ 13 := by
  have plainOnly : ∀ value : Text, ∀ c ∈ value, isPlainChar c = true → c ≠ 13 := by
    rintro value c _ plain rfl
    cases plain
  apply forall_mem_line
  · rintro c printable rfl
    exact absurd printable.1 (by decide)
  · exact plainOnly _
  · exact plainOnly _
  · exact fun reason _ => plainOnly _

theorem universalNewlines_line (report : CheckReport) (rest : Text) :
    universalNewlines (lineText report ++ 10 :: rest) =
      unifiedLine report ++ 10 :: universalNewlines rest := by
  have noReturn := noReturn_line report
  have before : 13 ∉ beforeState report := fun mem => noReturn.1 13 mem rfl
  have behind : 13 ∉ behindState report := fun mem => noReturn.2 13 mem rfl
  have later : universalNewlines (behindState report ++ 10 :: rest) =
      behindState report ++ 10 :: universalNewlines rest := by
    rw [universalNewlines_append behind, universalNewlines_cons (by decide)]
  rw [lineText, List.append_assoc, universalNewlines_append before, unifiedLine, List.append_assoc,
    List.cons_append, List.cons_append, ← later, unifiedState]
  split
  · next isReturn =>
      rw [isReturn]
      rfl
  · next other =>
      have notReturn : codePoint report.state.toNat ≠ 13 := by
        intro same
        apply other
        rw [← UInt8.toNat_inj, ← val_codePoint_byte, same]
        rfl
      rw [universalNewlines_cons notReturn]

theorem readerLines_output (reports : List CheckReport) :
    readerLines (outputText reports) =
      reports.flatMap fun report => splitlines (unifiedLine report ++ [10]) := by
  rw [readerLines]
  induction reports with
  | nil => rfl
  | cons report reports ih =>
      rw [outputText, List.flatMap_cons, List.append_assoc, List.singleton_append,
        universalNewlines_line, splitlines_newline, List.flatMap_cons]
      exact congrArg _ ih

/-! ## The bytes of the output -/

/-- The texts of a report can be written as UTF-8. -/
theorem encodable_line {report : CheckReport} (wellFormed : WellFormed report)
    (small : report.state.toNat < 0x80) : Encodable (lineText report) := by
  have printable : ∀ c : CodePoint, 0x20 ≤ c.val ∧ c.val < 0x80 → isSurrogate c = false := by
    intro c inRange
    simp only [isSurrogate, Bool.and_eq_false_iff, decide_eq_false_iff_not]
    omega
  have state : isSurrogate (codePoint report.state.toNat) = false := by
    simp only [isSurrogate, val_codePoint_byte, Bool.and_eq_false_iff, decide_eq_false_iff_not]
    omega
  have sides := forall_mem_line printable (fun c mem _ => wellFormed.comm.encodable c mem)
    (fun c mem _ => wellFormed.exePath.encodable c mem)
    fun reason own c mem _ => (wellFormed.details reason own).encodable c mem
  rw [lineText]
  exact List.forall_mem_append.mpr ⟨sides.1, List.forall_mem_cons.mpr ⟨state, sides.2⟩⟩

theorem decodeStrict_output {reports : List CheckReport}
    (wellFormed : ∀ report ∈ reports, WellFormed report)
    (small : ∀ report ∈ reports, report.state.toNat < 0x80) :
    decodeStrict (reports.flatMap printReport) = some (outputText reports) := by
  have printed : reports.flatMap printReport = utf8 (outputText reports) := by
    rw [outputText, utf8, List.flatMap_assoc]
    exact List.flatMap_congr fun report mem => printReport_eq (wellFormed report mem)
      (small report mem)
  have encodable : Encodable (outputText reports) := by
    intro c mem
    rcases List.mem_flatMap.mp mem with ⟨report, own, inLine⟩
    rcases List.mem_append.mp inLine with inText | newline
    · exact encodable_line (wellFormed report own) (small report own) c inText
    · cases List.mem_singleton.mp newline
      rfl
  rw [printed]
  exact decodeStrict_utf8 encodable

/-- A byte above ASCII on its own is no text. -/
theorem decodeStrict_singleton {byte : UInt8} (notAscii : 0x80 ≤ byte.toNat) :
    decodeStrict [byte] = none := by
  have begins : beginChar byte.toNat = .inl none ∨
      ∃ pending, beginChar byte.toNat = .inr pending := by
    rw [beginChar, if_neg (not_lt.mpr notAscii)]
    split_ifs <;> simp
  rw [decodeStrict, decodeFrom_none_cons]
  rcases begins with none | ⟨pending, waits⟩
  · rw [none]
    rfl
  · rw [waits]
    rfl

/-- The state stands between its quotes. -/
theorem state_infix (report : CheckReport) : [34, report.state, 34] <:+: printReport report := by
  have own : ∀ front : Bytes, [34, report.state, 34] <:+:
      front ++ ascii ",\"state\":\"" ++ [report.state] ++ ascii "\"" := by
    intro front
    refine ⟨front ++ ascii ",\"state\":", [], ?_⟩
    simp only [List.append_assoc, List.append_nil]
    rfl
  unfold printReport
  iterate 18 apply List.IsInfix.trans _ (List.prefix_append _ _).isInfix
  exact own _

theorem small_of_decodeStrict {reports : List CheckReport} {whole : Text}
    (decoded : decodeStrict (reports.flatMap printReport) = some whole) :
    ∀ report ∈ reports, report.state.toNat < 0x80 := by
  intro report mem
  have quote : (34 : UInt8).toNat < 0x80 := by decide
  rcases List.append_of_mem mem with ⟨before, after, rfl⟩
  rcases state_infix report with ⟨front, rest, same⟩
  have output : (before ++ report :: after).flatMap printReport =
      before.flatMap printReport ++ front ++
        34 :: ([report.state] ++ 34 :: (rest ++ after.flatMap printReport)) := by
    rw [List.flatMap_append, List.flatMap_cons, ← same]
    simp
  rw [output] at decoded
  rcases (decodeStrict_append_ascii quote).mp decoded with ⟨_, behind, _, isBehind, _⟩
  rcases (decodeStrict_append_ascii quote).mp isBehind with ⟨state, _, isState, _, _⟩
  by_contra notSmall
  rw [decodeStrict_singleton (not_lt.mp notSmall)] at isState
  cases isState

/-! ## The lines of a report -/

section Lines

variable {depth : ℕ} {report : CheckReport} {pid : ℤ} {line : Text}

/-- What is read as a report is an object with a pid. -/
theorem exists_members_of_readAs (readAs : ReadAs depth pid line) :
    ∃ members given, loads (.python depth) (strip line) = .ok (.dict members) ∧
      member (text "pid") members = some given ∧ toInt given = .ok pid := by
  rcases readAs with ⟨json, read⟩
  cases loaded : loads (.python depth) (strip line) with
  | error why =>
      rw [readReport, jsonLoads, loaded] at read
      cases why <;> cases read
  | ok value =>
      cases found : readPid value with
      | error error =>
          rw [readReport_eq loaded, found] at read
          cases read
      | ok given =>
          rcases readPid_eq_ok found with ⟨members, rfl, isMember⟩
          rw [readReport_of_member loaded isMember] at read
          cases number : toInt given with
          | error error =>
              rw [number] at read
              cases read
          | ok other =>
              rw [number] at read
              cases read
              exact ⟨members, given, rfl, isMember, number⟩

theorem not_readAs_of_insideString {rest : Text} (inside : InsideString rest)
    (isPrefix : line <+: rest) : ¬ ReadAs depth pid line := by
  intro readAs
  rcases exists_members_of_readAs readAs with ⟨members, given, read, isMember, _⟩
  have none : members = [] := memberless_of_strip inside isPrefix read
  rw [none] at isMember
  cases isMember

/-- Behind the first line of a report there is none that is read as a report. -/
theorem not_readAs_of_behindBoundary (behind : BehindBoundary line (unifiedLine report ++ [10])) :
    ¬ ReadAs depth pid line := by
  rcases behind with ⟨front, c, rest, whole, boundary, isPrefix⟩
  rcases List.eq_nil_or_concat rest with rfl | ⟨inner, last, rfl⟩
  · rw [List.prefix_nil] at isPrefix
    rintro ⟨json, read⟩
    rw [isPrefix] at read
    cases read
  · rw [List.concat_eq_append] at whole isPrefix
    rw [← List.cons_append, ← List.append_assoc] at whole
    have split := List.append_inj_left' whole rfl
    have inside : InsideString inner := cut_line report _ front c inner split boundary
    exact not_readAs_of_insideString (inside.append [last]) isPrefix

theorem strip_prefix (isPrefix : line <+: unifiedLine report) :
    strip line <+: unifiedLine report := by
  have visible : (unifiedLine report).dropWhile isWhitespace = unifiedLine report := rfl
  have front := @dropWhile_prefix_dropWhile _ isWhitespace _ _ isPrefix
  rw [visible] at front
  exact (List.rdropWhile_prefix isWhitespace _).trans front

theorem unifiedLine_of_ne (notReturn : report.state ≠ 13) :
    unifiedLine report = lineText report := by
  rw [unifiedLine, unifiedState, if_neg notReturn]
  rfl

theorem unifiedLine_of_plain (plain : isPlainChar (unifiedState report.state) = true) :
    unifiedLine report = lineText report ∧
      isPlainChar (codePoint report.state.toNat) = true := by
  have notReturn : report.state ≠ 13 := by
    intro isReturn
    rw [isReturn] at plain
    cases plain
  rw [unifiedState, if_neg notReturn] at plain
  exact ⟨unifiedLine_of_ne notReturn, plain⟩

theorem keepsLine_of_inner (small : report.state.toNat < 0x80)
    (plain : isPlainChar (codePoint report.state.toNat) = true)
    (inner : ∀ c ∈ lineText report, isLineBoundary c = false) : KeepsLine report := by
  have printed : ∀ value : Bytes, ∀ c ∈ decodeReplace value, isPlainChar c = true →
      c ∈ (decodeReplace value).flatMap escapeChar := by
    intro value c mem plain
    refine List.mem_flatMap.mpr ⟨c, mem, ?_⟩
    rw [escapeChar_of_plain plain]
    exact List.mem_singleton_self c
  rw [lineText, List.forall_mem_append, List.forall_mem_cons, beforeState_eq, behindState_eq]
    at inner
  simp only [List.forall_mem_append] at inner
  rcases inner with ⟨⟨_, reasons, _, comm, _⟩, _, _, exePath, _⟩
  rcases (isPlainChar_state report.state).mp plain with ⟨state_ge, state_ne⟩
  have state_lt : report.state < 0x80 := UInt8.lt_iff_toNat_lt.mpr small
  refine ⟨?_, ?_, ?_, state_ge, state_lt, state_ne⟩
  · exact unbroken_iff.mpr fun c mem plain => comm c (printed _ c mem plain)
  · exact unbroken_iff.mpr fun c mem plain => exePath c (printed _ c mem plain)
  · intro reason own
    refine unbroken_iff.mpr fun c mem plain => reasons c (mem_separated own ?_)
    rw [reasonText_eq]
    simp only [List.mem_append]
    exact .inr (.inr (.inr (.inl (printed _ c mem plain))))

theorem plain_of_keepsLine (keeps : KeepsLine report) :
    isPlainChar (codePoint report.state.toNat) = true :=
  (isPlainChar_state report.state).mpr ⟨keeps.state_ge, keeps.state_ne⟩

theorem inner_of_keepsLine (keeps : KeepsLine report) :
    ∀ c ∈ lineText report, isLineBoundary c = false := by
  have state : isLineBoundary (codePoint report.state.toNat) = false := by
    apply isLineBoundary_of_printable
    rw [val_codePoint_byte]
    exact ⟨UInt8.le_iff_toNat_le.mp keeps.state_ge, UInt8.lt_iff_toNat_lt.mp keeps.state_lt⟩
  have sides := forall_mem_line (fun _ => isLineBoundary_of_printable)
    (unbroken_iff.mp keeps.comm) (unbroken_iff.mp keeps.exePath)
    fun reason own => unbroken_iff.mp (keeps.details reason own)
  rw [lineText]
  exact List.forall_mem_append.mpr ⟨sides.1, List.forall_mem_cons.mpr ⟨state, sides.2⟩⟩

/-- A front of the line that is an object is the line. -/
theorem eq_lineText_of_loads {piece : Text} {members others : List (Text × Json)}
    (read : loads (.python depth) piece = .ok (.dict members))
    (whole : loads (.python depth) (lineText report) = .ok (.dict others))
    (isPrefix : piece <+: lineText report) : piece = lineText report := by
  rcases isPrefix with ⟨rest, same⟩
  rcases loads_eq_ok_iff.mp whole with ⟨final, ran, _⟩
  rw [← same] at ran
  have blank := (run_of_loads_dict read ran).2
  rcases List.eq_nil_or_concat rest with rfl | ⟨inner, last, rfl⟩
  · rwa [List.append_nil] at same
  · have ends : ∃ front, lineText report = front ++ [125] :=
      ⟨beforeState report ++ codePoint report.state.toNat ::
        (34 :: laterMembers (laterFacts report) ++ [125]), by simp [lineText, behindState]⟩
    rcases ends with ⟨front, ends⟩
    rw [List.concat_eq_append] at same blank
    rw [ends, ← List.append_assoc] at same
    have isBrace := List.append_inj_right' same rfl
    cases isBrace
    cases blank 125 (List.mem_append_right _ (List.mem_singleton_self 125))

/-- What is read of a report at all is read of its whole line. -/
theorem keepsLine_of_readAs (room : 3 ≤ depth) (wellFormed : WellFormed report)
    (small : report.state.toNat < 0x80) (mem : line ∈ splitlines (unifiedLine report ++ [10]))
    (readAs : ReadAs depth pid line) : KeepsLine report ∧ pid = report.pid.toInt := by
  have inner := inner_of_mem_splitlines mem
  cases split : splitlines (unifiedLine report ++ [10]) with
  | nil =>
      rw [split] at mem
      cases mem
  | cons first others =>
      rcases splitlines_shape split with ⟨isPrefix, behind⟩
      rw [split] at mem
      rcases List.mem_cons.mp mem with rfl | other
      · rcases exists_members_of_readAs readAs with ⟨members, given, read, isMember, number⟩
        rcases List.prefix_concat_iff.mp isPrefix with rfl | isPrefix
        · cases inner 10 (List.mem_append_right _ (List.mem_singleton_self 10))
        · have front := strip_prefix isPrefix
          cases plain : isPlainChar (unifiedState report.state) with
          | false => exact absurd read (not_loads_of_escaped room plain front)
          | true =>
              rcases unifiedLine_of_plain plain with ⟨same, statePlain⟩
              have whole := loads_lineText room wellFormed statePlain
              rw [same] at front isPrefix
              have complete := eq_lineText_of_loads read whole front
              have length : (strip line).length ≤ line.length :=
                (List.rdropWhile_prefix _ _).length_le.trans (List.length_dropWhile_le _ _)
              rw [complete] at length
              rw [isPrefix.eq_of_length_le length] at inner
              refine ⟨keepsLine_of_inner small statePlain inner, ?_⟩
              rw [complete, whole] at read
              cases read
              cases isMember
              cases number
              rfl
      · exact absurd readAs (not_readAs_of_behindBoundary (behind line other))

end Lines

/-! ## Listed reports -/

/-- The entry of a report, with everything it says. -/
def reportEntry (report : CheckReport) : ℤ × Json :=
  (report.pid.toInt, .dict (reportMembers report))

/-- `check` yields one entry for each of the reports and nothing else. -/
def ListsAll (config : Config) (depth : ℕ) (timeout : Text) (pid : Option ℤ)
    (completed : Completed Bytes) (reports : List CheckReport) : Prop :=
  ∀ outcome trace,
    (check config depth timeout pid).run.Exec (answering (EngineWrote completed)) [] outcome
      trace → outcome = .ok (reports.map reportEntry)

/-- What an engine leaves behind that has printed these reports and answered. -/
structure Printed (completed : Completed Bytes) (reports : List CheckReport) : Prop where
  answered : completed.returncode = 0 ∨ completed.returncode = checkExitBlocked
  stdout : completed.stdout = reports.flatMap printReport
  stderr : ∃ errors, decodeStrict completed.stderr = some errors

section Listed

variable {config : Config} {depth : ℕ} {timeout : Text} {pid : Option ℤ}
  {completed : Completed Bytes} {reports : List CheckReport}

theorem listsAll_iff_outcome (printed : Printed completed reports) :
    ListsAll config depth timeout pid completed reports ↔
      checkOutcome depth completed = .ok (reports.map reportEntry) := by
  have yields := yields_check config depth timeout pid printed.answered
  constructor
  · intro lists
    rcases yields.completes [] with ⟨trace, run⟩
    exact lists _ trace run
  · intro same outcome trace run
    exact (yields.only _ outcome trace run).trans same

theorem putReport_new {entries : List (ℤ × Json)} {key : ℤ} {json : Json}
    (fresh : ∀ entry ∈ entries, entry.1 ≠ key) :
    putReport entries key json = entries ++ [(key, json)] := by
  rw [putReport, if_neg]
  intro present
  rcases List.any_eq_true.mp present with ⟨entry, mem, same⟩
  exact fresh entry mem (of_decide_eq_true same)

theorem gatherLine_lineText (room : 3 ≤ depth) {report : CheckReport}
    (wellFormed : WellFormed report) (keeps : KeepsLine report) (entries : List (ℤ × Json)) :
    gatherLine depth entries (lineText report) =
      .ok (putReport entries report.pid.toInt (.dict (reportMembers report))) := by
  have read := loads_strip (loads_lineText room wellFormed (plain_of_keepsLine keeps))
  have some : strip (lineText report) ≠ [] := by
    intro nothing
    rw [nothing] at read
    cases read
  have isMember : member (text "pid") (reportMembers report) =
      Option.some (.integer report.pid.toInt) := rfl
  rw [gatherLine, if_neg some, readReport_of_member read isMember]
  rfl

/-- Lines of processes that have no entry yet. -/
theorem gather_lines (room : 3 ≤ depth) (wellFormed : ∀ report ∈ reports, WellFormed report)
    (keeps : ∀ report ∈ reports, KeepsLine report)
    (distinct : (reports.map CheckReport.pid).Nodup) (entries : List (ℤ × Json))
    (fresh : ∀ report ∈ reports, ∀ entry ∈ entries, entry.1 ≠ report.pid.toInt) :
    (reports.map lineText).foldlM (gatherLine depth) entries =
      .ok (entries ++ reports.map reportEntry) := by
  induction reports generalizing entries with
  | nil => rw [List.map_nil, List.map_nil, List.append_nil]; rfl
  | cons report reports ih =>
      rw [List.forall_mem_cons] at wellFormed keeps fresh
      rw [List.map_cons, List.nodup_cons] at distinct
      have own := gatherLine_lineText room wellFormed.1 keeps.1 entries
      rw [putReport_new fresh.1] at own
      have others : ∀ other ∈ reports, ∀ entry ∈ entries ++ [reportEntry report],
          entry.1 ≠ other.pid.toInt := by
        intro other mem entry isEntry
        rcases List.mem_append.mp isEntry with old | new
        · exact fresh.2 other mem entry old
        · rw [List.mem_singleton.mp new]
          intro same
          exact distinct.1 (Int32.toInt_inj.mp same ▸ List.mem_map_of_mem mem)
      have later := ih wellFormed.2 keeps.2 distinct.2 (entries ++ [reportEntry report]) others
      rw [List.append_assoc] at later
      rw [List.map_cons, List.foldlM_cons, own]
      exact later

theorem readerLines_of_keepsLine (keeps : ∀ report ∈ reports, KeepsLine report) :
    readerLines (outputText reports) = reports.map lineText := by
  rw [readerLines_output, List.map_eq_flatMap]
  apply List.flatMap_congr
  intro report mem
  have some : lineText report ≠ [] := List.cons_ne_nil _ _
  have notReturn : report.state ≠ 13 := by
    intro isReturn
    have visible := (keeps report mem).state_ge
    rw [isReturn] at visible
    exact absurd visible (by decide)
  rw [unifiedLine_of_ne notReturn]
  exact (splitlines_inner (inner_of_keepsLine (keeps report mem)) some []).2

theorem listsAll_of_keepsLine (room : 3 ≤ depth) (printed : Printed completed reports)
    (wellFormed : ∀ report ∈ reports, WellFormed report)
    (distinct : (reports.map CheckReport.pid).Nodup)
    (keeps : ∀ report ∈ reports, KeepsLine report) :
    ListsAll config depth timeout pid completed reports := by
  rcases printed.stderr with ⟨errors, isErrors⟩
  have small : ∀ report ∈ reports, report.state.toNat < 0x80 :=
    fun report mem => UInt8.lt_iff_toNat_lt.mp (keeps report mem).state_lt
  have decoded := decodeStrict_output wellFormed small
  rw [← printed.stdout] at decoded
  rw [listsAll_iff_outcome printed, checkOutcome_eq decoded isErrors,
    readerLines_of_keepsLine keeps,
    gather_lines room wellFormed keeps distinct [] fun _ _ entry mem => absurd mem List.not_mem_nil]
  rfl

theorem keepsLine_of_listsAll (room : 3 ≤ depth) (printed : Printed completed reports)
    (wellFormed : ∀ report ∈ reports, WellFormed report)
    (distinct : (reports.map CheckReport.pid).Nodup)
    (lists : ListsAll config depth timeout pid completed reports) :
    ∀ report ∈ reports, KeepsLine report := by
  intro report mem
  rw [listsAll_iff_outcome printed] at lists
  rcases checkOutcome_eq_ok lists with ⟨stdout, errors, decoded, isErrors⟩
  rw [checkOutcome_eq decoded isErrors] at lists
  have small : ∀ report ∈ reports, report.state.toNat < 0x80 := by
    rw [printed.stdout] at decoded
    exact small_of_decodeStrict decoded
  have output := decodeStrict_output wellFormed small
  rw [← printed.stdout, decoded, Option.some.injEq] at output
  have entry : ∃ found, (report.pid.toInt, found) ∈ reports.map reportEntry :=
    ⟨_, List.mem_map_of_mem mem⟩
  rcases gather_cases depth (readerLines stdout) [] with ⟨_, error, failed⟩ |
    ⟨_, more, gathered, others⟩
  · rw [lists] at failed
    cases failed
  · rw [lists] at gathered
    cases gathered
    rcases (others _).mp entry with ⟨line, isLine, readAs⟩ | ⟨found, impossible⟩
    · rw [output, readerLines_output] at isLine
      rcases List.mem_flatMap.mp isLine with ⟨other, isOther, inBlock⟩
      rcases keepsLine_of_readAs room (wellFormed other isOther) (small other isOther) inBlock
        readAs with ⟨keeps, samePid⟩
      have same : other = report := by
        have pids : other.pid = report.pid := Int32.toInt_inj.mp samePid.symm
        exact List.inj_on_of_nodup_map distinct isOther mem pids
      rwa [same] at keeps
    · exact absurd impossible List.not_mem_nil

end Listed

/-- Distinct processes are all listed, each with what was printed of it, exactly if no text of
a report holds U+0085, U+2028 or U+2029 and no state is a control character, a quote, a
backslash or no ASCII. -/
theorem listsAll_iff (config : Config) (depth : ℕ) (timeout : Text) (pid : Option ℤ)
    (completed : Completed Bytes) (reports : List CheckReport) (room : 3 ≤ depth)
    (printed : Printed completed reports) (wellFormed : ∀ report ∈ reports, WellFormed report)
    (distinct : (reports.map CheckReport.pid).Nodup) :
    ListsAll config depth timeout pid completed reports ↔ ∀ report ∈ reports, KeepsLine report :=
  ⟨keepsLine_of_listsAll room printed wellFormed distinct,
    listsAll_of_keepsLine room printed wellFormed distinct⟩

/-! ## Runs -/

/-- A sleeping process with an executable at this path. -/
def sleeping (pid : Int32) (exePath : Text) : CheckReport :=
  { CheckReport.initial pid with
    comm := ascii "counter"
    state := 83
    threads := 1
    argc := 1
    exePath := utf8 exePath
    reasons := [⟨.gone, goneDetail⟩] }

/-- The end of an engine that printed these reports. -/
def printing (reports : List CheckReport) : Completed Bytes where
  returncode := 0
  stdout := reports.flatMap printReport
  stderr := []

theorem printed_printing (reports : List CheckReport) : Printed (printing reports) reports :=
  ⟨.inl rfl, rfl, [], rfl⟩

theorem wellFormed_sleeping (pid : Int32) {exePath : Text} (isText : IsText (utf8 exePath)) :
    WellFormed (sleeping pid exePath) where
  comm := isText_of_all rfl
  exePath := isText
  details := List.forall_mem_singleton.mpr (isText_of_all rfl)
  argc := (by decide : 1 < 2 ^ 31)
  openFds := (by decide : 0 < 2 ^ 31)
  volatileFds := (by decide : 0 < 2 ^ 31)
  dumpableFds := (by decide : 0 < 2 ^ 31)
  children := (by decide : 0 < 2 ^ 31)

/-- Two processes, each on its own line. -/
def twoReports : List CheckReport :=
  [sleeping 7 (text "/opt/counter"), sleeping 9 (text "/opt/a\"b\nc")]

theorem listsAll_iff_twoReports :
    ListsAll exampleConfig 900 (text "15") none (printing twoReports) twoReports ↔
      ∀ report ∈ twoReports, KeepsLine report := by
  refine listsAll_iff exampleConfig 900 (text "15") none (printing twoReports) twoReports
    (by decide) (printed_printing twoReports) ?_ (by decide)
  simp only [twoReports, List.forall_mem_cons]
  exact ⟨wellFormed_sleeping 7 (isText_of_all rfl), wellFormed_sleeping 9 (isText_of_all rfl),
    fun report mem => absurd mem List.not_mem_nil⟩

/-- An executable with a line separator in its name. -/
def separatorPath : Text := text "/opt/a\u2028b"

/-- The line separator is printed as it is, and `splitlines` breaks the line there. -/
theorem not_listsAll :
    ¬ ∀ (completed : Completed Bytes) (reports : List CheckReport), Printed completed reports →
      (∀ report ∈ reports, WellFormed report) → (reports.map CheckReport.pid).Nodup →
      ListsAll exampleConfig 900 (text "15") none completed reports := by
  intro claimed
  have encodable : Encodable separatorPath := by
    have all : separatorPath.all (!isSurrogate ·) = true := rfl
    intro c mem
    simpa using List.all_eq_true.mp all c mem
  have isText : IsText (utf8 separatorPath) := ⟨by decide, separatorPath, encodable, rfl⟩
  have wellFormed : ∀ report ∈ [sleeping 7 separatorPath], WellFormed report :=
    List.forall_mem_singleton.mpr (wellFormed_sleeping 7 isText)
  have distinct : ([sleeping 7 separatorPath].map CheckReport.pid).Nodup := List.nodup_singleton _
  have lists := claimed _ _ (printed_printing [sleeping 7 separatorPath]) wellFormed distinct
  have keeps := keepsLine_of_listsAll (by decide) (printed_printing _) wellFormed distinct lists
    (sleeping 7 separatorPath) (List.mem_singleton_self _)
  have own : (0x2028 : CodePoint) ∈ decodeReplace (utf8 separatorPath) := by
    rw [decodeReplace_utf8 encodable]
    decide
  exact (keeps.exePath 0x2028 own).2.1 rfl

end Ksnap.Panel
