import Ksnap.Panel.ReportLine

/-!
# Reading the line of a report

`json.loads` makes the report of its line, if the state is a character that a string can
hold. Otherwise no piece of the line is an object. And wherever the line is broken, the
pieces behind the first one begin within one of its strings.
-/

namespace Ksnap.Panel

open Foundation

/-! ## Reading it back -/

section Reading

variable {depth : ℕ}

theorem spelled_string {levels : ℕ} (name : String) (value : Bytes)
    (plain : (text name).all isPlainChar = true) :
    (stringMember name value).Spelled (.python depth) levels where
  name := isPlain_of_all plain
  value := spells_string escapes_escapeChar (decodeReplace value)

theorem spelled_boolean {levels : ℕ} (name : String) (value : Bool)
    (plain : (text name).all isPlainChar = true) :
    (booleanMember name value).Spelled (.python depth) levels where
  name := isPlain_of_all plain
  value := spells_boolean value

theorem spelled_number {levels : ℕ} (name : String) {number : ℤ} (small : number.natAbs < 2 ^ 64)
    (plain : (text name).all isPlainChar = true) :
    (numberMember name number).Spelled (.python depth) levels where
  name := isPlain_of_all plain
  value := by
    have short : number.natAbs < 10 ^ (19 + 1) := small.trans (by decide)
    exact spells_integer short rfl

theorem spells_reason (reason : CheckReason) :
    Spells (.python depth) 1 (reasonText reason) (reasonJson reason) := by
  apply @spells_object (.python depth) 0
  intro member mem
  simp only [List.mem_cons, List.not_mem_nil, or_false] at mem
  rcases mem with rfl | rfl
  · exact spelled_string "code" reason.code.text rfl
  · exact spelled_string "detail" reason.detail rfl

theorem spelled_reasons (reasons : List CheckReason) :
    (reasonsMember reasons).Spelled (.python depth) 2 where
  name := isPlain_of_all rfl
  value := by
    have items : ∀ item ∈ reasons.map fun reason => (reasonText reason, reasonJson reason),
        Spells (.python depth) 1 item.1 item.2 := by
      intro item mem
      rcases List.mem_map.mp mem with ⟨reason, _, rfl⟩
      exact spells_reason reason
    have spells := spells_list items
    rwa [List.map_map, List.map_map] at spells

theorem spelled_laterFacts {report : CheckReport} (wellFormed : WellFormed report) :
    ∀ member ∈ laterFacts report, member.Spelled (.python depth) 1 := by
  have word32 : ∀ word : UInt32, (word.toNat : ℤ).natAbs < 2 ^ 64 :=
    fun word => word.toNat_lt.trans (by decide)
  have int32 : ∀ word : Int32, word.toInt.natAbs < 2 ^ 64 := by
    intro word
    have low := word.le_toInt
    have high := word.toInt_lt
    omega
  have counter : ∀ number : ℕ, number < 2 ^ 31 → (number : ℤ).natAbs < 2 ^ 64 :=
    fun number small => small.trans (by decide)
  simp only [laterFacts, List.forall_mem_cons]
  refine ⟨spelled_number _ (int32 _) rfl, spelled_number _ (int32 _) rfl,
    spelled_number _ (word32 _) rfl, spelled_number _ (UInt64.toNat_lt _) rfl,
    spelled_number _ (counter _ wellFormed.argc) rfl, spelled_string _ _ rfl,
    spelled_number _ (counter _ wellFormed.openFds) rfl,
    spelled_number _ (counter _ wellFormed.volatileFds) rfl,
    spelled_number _ (counter _ wellFormed.dumpableFds) rfl,
    spelled_number _ (counter _ wellFormed.children) rfl, spelled_number _ (word32 _) rfl,
    spelled_number _ (word32 _) rfl, spelled_number _ (word32 _) rfl,
    spelled_number _ (word32 _) rfl, spelled_number _ (UInt64.toNat_lt _) rfl,
    spelled_boolean _ _ rfl, spelled_boolean _ _ rfl, ?_⟩
  exact fun member mem => absurd mem List.not_mem_nil

/-- The members that are complete where the state stands. -/
def stateFrames (report : CheckReport) : List JsonFrame :=
  [.dict [(text "comm", stringJson report.comm)] (text "state"),
    .dict [(text "pid", .integer report.pid.toInt),
      (text "dumpable", .boolean (report.reasons.length = 0)),
      (text "reasons", .list (report.reasons.map reasonJson))] (text "facts")]

variable {report : CheckReport}

/-- What is in front of the state is read whatever the state is. -/
theorem run_beforeState (room : 3 ≤ depth) :
    (JsonState.value []).run (.python depth) (beforeState report) =
      .ok (.string .start (stateFrames report)) := by
  have small : report.pid.toInt.natAbs < 2 ^ 64 := by
    have low := report.pid.le_toInt
    have high := report.pid.toInt_lt
    omega
  have front : ∀ member ∈ numberMember "pid" report.pid.toInt :: frontMembers report,
      member.Spelled (.python depth) 2 := by
    simp only [frontMembers, List.forall_mem_cons]
    refine ⟨spelled_number _ small rfl, spelled_boolean _ _ rfl, spelled_reasons _, ?_⟩
    exact fun member mem => absurd mem List.not_mem_nil
  have comm : ∀ member ∈ [stringMember "comm" report.comm], member.Spelled (.python depth) 1 :=
    List.forall_mem_singleton.mpr (spelled_string _ _ rfl)
  have isFacts : IsPlain (text "facts") := isPlain_of_all rfl
  have isState : IsPlain (text "state") := isPlain_of_all rfl
  rcases @run_openObject (.python depth) 2 [] _ _ front (decide_eq_true room) with
    ⟨outer, ranOuter, behindOuter⟩
  rcases @run_openObject (.python depth) 1 [.dict _ (text "facts")] _ _ comm
    (decide_eq_true room) with ⟨inner, ranInner, behindInner⟩
  have begun : laterMembers [] = [] := rfl
  rw [begun, List.append_nil] at ranInner
  rw [beforeState, run_append_of_ok ranOuter, run_append_of_ok (behindOuter.run_nameText isFacts),
    run_append_of_ok ranInner, run_append_of_ok (behindInner.run_nameText isState)]
  rfl

theorem run_string_plain {c : CodePoint} {frames : List JsonFrame} (plain : isPlainChar c = true) :
    (JsonState.string .start frames).run (.python depth) [c] = .ok (.string (.upTo [c]) frames) :=
  run_string (feed_plain plain [])

/-- With a state that a string can hold, the line is the report. -/
theorem loads_lineText (room : 3 ≤ depth) (wellFormed : WellFormed report)
    (plain : isPlainChar (codePoint report.state.toNat) = true) :
    loads (.python depth) (lineText report) = .ok (.dict (reportMembers report)) := by
  have stateRead : (JsonState.string (.upTo [codePoint report.state.toNat])
      (stateFrames report)).step (.python depth) 34 =
        .ok (.done (.string [codePoint report.state.toNat]) (stateFrames report)) := rfl
  have behindComm : OpenBehind (.python depth)
      (.done (.string [codePoint report.state.toNat]) (stateFrames report)) _ _ :=
    ⟨_, _, _, holds_done, rfl⟩
  rcases run_laterMembers behindComm (spelled_laterFacts wellFormed) (decide_eq_true room) with
    ⟨inner, ranInner, behindInner⟩
  rw [loads_eq_ok_iff]
  refine ⟨.done (.dict (reportMembers report)) [], ?_, rfl⟩
  rw [lineText, run_append_of_ok (run_beforeState room), ← List.singleton_append,
    run_append_of_ok (run_string_plain plain), behindState, List.cons_append,
    run_cons_of_ok stateRead, run_append_of_ok ranInner, run_cons_of_ok behindInner.step_close]
  rfl

/-- A state that a string cannot hold spoils the line, wherever it is cut. -/
theorem not_loads_of_escaped {c : CodePoint} {piece : Text} {members : List (Text × Json)}
    (room : 3 ≤ depth) (escaped : isPlainChar c = false)
    (isPrefix : piece <+: beforeState report ++ c :: behindState report) :
    loads (.python depth) piece ≠ .ok (.dict members) := by
  intro read
  have before := @run_beforeState depth report room
  rcases List.prefix_or_prefix_of_prefix isPrefix (List.prefix_append _ _) with
    ⟨rest, whole⟩ | ⟨behind, rfl⟩
  · rw [← whole] at before
    cases (run_of_loads_dict read before).1
  · rcases loads_eq_ok_iff.mp read with ⟨final, ran, ended⟩
    rw [run_append_of_ok before] at ran
    have stuck : (JsonState.string .start (stateFrames report)).strands (.python depth)
        [c, 34, 44, 34, 116] = true := by
      rcases escaped_cases escaped with rfl | rfl | ⟨number, lt, rfl⟩
      · rfl
      · rfl
      · interval_cases number <;> rfl
    have more : ∃ more, behindState report = [34, 44, 34, 116] ++ more := ⟨_, rfl⟩
    rcases more with ⟨more, same⟩
    have behindPrefix : behind <+: c :: behindState report :=
      (List.prefix_append_right_inj _).mp isPrefix
    rw [same] at behindPrefix
    exact not_finish_of_strands stuck behindPrefix ran ended

end Reading

/-! ## The parts of the line -/

/-- ASCII from the space on. -/
def IsPrintable (value : Text) : Prop :=
  ∀ c ∈ value, 0x20 ≤ c.val ∧ c.val < 0x80

theorem isPrintable_of_all {value : Text}
    (all : value.all (fun c => 0x20 ≤ c.val ∧ c.val < 0x80) = true) : IsPrintable value :=
  fun c mem => of_decide_eq_true (List.all_eq_true.mp all c mem)

theorem IsPrintable.append {first second : Text} (one : IsPrintable first)
    (two : IsPrintable second) : IsPrintable (first ++ second) :=
  List.forall_mem_append.mpr ⟨one, two⟩

theorem IsPrintable.inner {value : Text} (printable : IsPrintable value) :
    ∀ c ∈ value, isLineBoundary c = false :=
  fun c mem => isLineBoundary_of_printable (printable c mem)

theorem printable_number {name : String} (number : ℤ)
    (literal : IsPrintable (nameText (text name))) :
    IsPrintable (numberMember name number).text :=
  literal.append (printable_decimal number)

theorem printable_boolean {name : String} (value : Bool)
    (literal : IsPrintable (nameText (text name))) :
    IsPrintable (booleanMember name value).text := by
  apply literal.append
  cases value <;> exact isPrintable_of_all rfl

theorem printable_laterMembers {members : List WrittenMember}
    (each : ∀ member ∈ members, IsPrintable member.text) : IsPrintable (laterMembers members) := by
  intro c mem
  rcases List.mem_flatMap.mp mem with ⟨member, own, inText⟩
  rcases List.mem_cons.mp inText with rfl | inText
  · decide
  · exact each member own c inText

/-- The line up to the reasons. -/
def reasonsFront (report : CheckReport) : Text :=
  123 :: (numberMember "pid" report.pid.toInt).text ++
    laterMembers [booleanMember "dumpable" (report.reasons.length = 0)] ++
      (44 :: nameText (text "reasons") ++ [91])

/-- From the reasons to the command. -/
def commFront : Text :=
  93 :: 44 :: nameText (text "facts") ++ 123 :: nameText (text "comm") ++ [34]

/-- From the command to the state. -/
def stateFront : Text :=
  34 :: 44 :: nameText (text "state") ++ [34]

/-- From the state to the executable. -/
def exeFront (report : CheckReport) : Text :=
  34 :: laterMembers ((laterFacts report).take 5) ++ (44 :: nameText (text "exe") ++ [34])

/-- From the executable to the end. -/
def lineEnd (report : CheckReport) : Text :=
  34 :: laterMembers ((laterFacts report).drop 6) ++ [125, 125]

theorem beforeState_eq (report : CheckReport) :
    beforeState report = reasonsFront report ++ (separated (report.reasons.map reasonText) ++
      (commFront ++ ((decodeReplace report.comm).flatMap escapeChar ++ stateFront))) := by
  simp [beforeState, reasonsFront, commFront, stateFront, frontMembers, reasonsMember, listText,
    laterMembers, WrittenMember.text, stringMember, stringText]

theorem behindState_eq (report : CheckReport) :
    behindState report = exeFront report ++
      ((decodeReplace report.exePath).flatMap escapeChar ++ lineEnd report) := by
  simp [behindState, exeFront, lineEnd, laterFacts, laterMembers, WrittenMember.text,
    stringMember, stringText]

/-- A reason with its two strings. -/
theorem reasonText_eq (reason : CheckReason) :
    reasonText reason = 123 :: nameText (text "code") ++ [34] ++
      ((decodeReplace reason.code.text).flatMap escapeChar ++
        (34 :: 44 :: nameText (text "detail") ++ [34] ++
          ((decodeReplace reason.detail).flatMap escapeChar ++ [34, 125]))) := by
  simp [reasonText, objectText, laterMembers, WrittenMember.text, stringMember, stringText]

theorem printable_reasonsFront (report : CheckReport) : IsPrintable (reasonsFront report) := by
  have pid : IsPrintable (numberMember "pid" report.pid.toInt).text :=
    printable_number _ (isPrintable_of_all rfl)
  have dumpable : IsPrintable (laterMembers [booleanMember "dumpable"
      (report.reasons.length = 0)]) := by
    apply printable_laterMembers
    exact List.forall_mem_singleton.mpr (printable_boolean _ (isPrintable_of_all rfl))
  have reasons : IsPrintable (44 :: nameText (text "reasons") ++ [91]) := isPrintable_of_all rfl
  exact (((@isPrintable_of_all [123] rfl).append pid).append dumpable).append reasons

theorem printable_exeFront (report : CheckReport) : IsPrintable (exeFront report) := by
  have members : IsPrintable (laterMembers ((laterFacts report).take 5)) := by
    apply printable_laterMembers
    simp only [laterFacts, List.take_succ_cons, List.take_zero, List.forall_mem_cons]
    refine ⟨?_, ?_, ?_, ?_, ?_, fun member mem => absurd mem List.not_mem_nil⟩ <;>
      exact printable_number _ (isPrintable_of_all rfl)
  exact ((@isPrintable_of_all [34] rfl).append members).append (isPrintable_of_all rfl)

theorem printable_lineEnd (report : CheckReport) : IsPrintable (lineEnd report) := by
  have members : IsPrintable (laterMembers ((laterFacts report).drop 6)) := by
    apply printable_laterMembers
    simp only [laterFacts, List.drop_succ_cons, List.drop_zero, List.forall_mem_cons]
    refine ⟨?_, ?_, ?_, ?_, ?_, ?_, ?_, ?_, ?_, ?_, ?_,
      fun member mem => absurd mem List.not_mem_nil⟩
    iterate 9 exact printable_number _ (isPrintable_of_all rfl)
    · exact printable_boolean _ (isPrintable_of_all rfl)
    · exact printable_boolean _ (isPrintable_of_all rfl)
  exact ((@isPrintable_of_all [34] rfl).append members).append (isPrintable_of_all rfl)

theorem forall_mem_separated {P : CodePoint → Prop} (comma : P 44) {reasons : List CheckReason}
    (each : ∀ reason ∈ reasons, ∀ c ∈ reasonText reason, P c) :
    ∀ c ∈ separated (reasons.map reasonText), P c := by
  have later : ∀ others : List CheckReason, (∀ reason ∈ others, ∀ c ∈ reasonText reason, P c) →
      ∀ c ∈ (others.map reasonText).flatMap (44 :: ·), P c := by
    intro others each c mem
    rcases List.mem_flatMap.mp mem with ⟨item, isItem, mem⟩
    rcases List.mem_map.mp isItem with ⟨reason, own, rfl⟩
    exact List.forall_mem_cons.mpr ⟨comma, each reason own⟩ c mem
  cases reasons with
  | nil => exact fun c mem => absurd mem List.not_mem_nil
  | cons reason reasons =>
      rw [List.forall_mem_cons] at each
      exact List.forall_mem_append.mpr ⟨each.1, later reasons each.2⟩

theorem mem_separated {reasons : List CheckReason} {reason : CheckReason}
    (own : reason ∈ reasons) {c : CodePoint} (mem : c ∈ reasonText reason) :
    c ∈ separated (reasons.map reasonText) := by
  cases reasons with
  | nil => cases own
  | cons first reasons =>
      rcases List.mem_cons.mp own with rfl | later
      · exact List.mem_append_left _ mem
      · apply List.mem_append_right
        exact List.mem_flatMap.mpr ⟨_, List.mem_map_of_mem later, List.mem_cons_of_mem 44 mem⟩

theorem printable_code (code : ReasonCode) :
    ∀ c ∈ decodeReplace code.text, isPlainChar c = true → 0x20 ≤ c.val ∧ c.val < 0x80 := by
  have small := fun byte mem => (bytes_of_all (isAscii_code code) byte mem).2
  rw [decodeReplace_map small]
  intro c mem plain
  rcases List.mem_map.mp mem with ⟨byte, own, rfl⟩
  simp only [isPlainChar, Bool.and_eq_true, decide_eq_true_eq] at plain
  refine ⟨plain.2, ?_⟩
  rw [val_codePoint_byte]
  exact small byte own

/-- What holds of whatever is printable and of what the texts of a report are printed as. -/
theorem forall_mem_line {P : CodePoint → Prop} {report : CheckReport}
    (printable : ∀ c : CodePoint, 0x20 ≤ c.val ∧ c.val < 0x80 → P c)
    (comm : ∀ c ∈ decodeReplace report.comm, isPlainChar c = true → P c)
    (exePath : ∀ c ∈ decodeReplace report.exePath, isPlainChar c = true → P c)
    (details : ∀ reason ∈ report.reasons, ∀ c ∈ decodeReplace reason.detail,
      isPlainChar c = true → P c) :
    (∀ c ∈ beforeState report, P c) ∧ ∀ c ∈ behindState report, P c := by
  have whole : ∀ value, IsPrintable value → ∀ c ∈ value, P c :=
    fun value inRange c mem => printable c (inRange c mem)
  have code : ∀ code : ReasonCode, ∀ c ∈ decodeReplace code.text, isPlainChar c = true → P c :=
    fun code c mem plain => printable c (printable_code code c mem plain)
  have reason : ∀ reason ∈ report.reasons, ∀ c ∈ reasonText reason, P c := by
    intro reason mem
    rw [reasonText_eq]
    apply List.forall_mem_append.mpr ⟨whole _ (isPrintable_of_all rfl), _⟩
    apply List.forall_mem_append.mpr ⟨forall_mem_escaped printable (code reason.code), _⟩
    apply List.forall_mem_append.mpr ⟨whole _ (isPrintable_of_all rfl), _⟩
    exact List.forall_mem_append.mpr ⟨forall_mem_escaped printable (details reason mem),
      whole _ (isPrintable_of_all rfl)⟩
  have reasons := forall_mem_separated (printable 44 (by decide)) reason
  rw [beforeState_eq, behindState_eq]
  simp only [List.forall_mem_append]
  exact ⟨⟨whole _ (printable_reasonsFront report), reasons, whole _ (isPrintable_of_all rfl),
    forall_mem_escaped printable comm, whole _ (isPrintable_of_all rfl)⟩,
    whole _ (printable_exeFront report), forall_mem_escaped printable exePath,
    whole _ (printable_lineEnd report)⟩

/-! ## Where it can be broken -/

/-- The rest of the line up to the name of the next member. -/
def NamesNext (rest : Text) : Prop :=
  ∃ between letter more, rest = between ++ 34 :: letter :: more ∧ IsPlain between ∧
    97 ≤ letter.val ∧ letter.val ≤ 122

theorem NamesNext.ends {rest : Text} (names : NamesNext rest) : EndsString (34 :: rest) := by
  rcases names with ⟨between, letter, more, rfl, plain, isLetter⟩
  exact ⟨between, letter, more, rfl, plain, isLetter⟩

theorem NamesNext.cons {rest : Text} {c : CodePoint} (names : NamesNext rest)
    (plain : isPlainChar c = true) : NamesNext (c :: rest) := by
  rcases names with ⟨between, letter, more, rfl, plainBetween, isLetter⟩
  exact ⟨c :: between, letter, more, rfl, List.forall_mem_cons.mpr ⟨plain, plainBetween⟩, isLetter⟩

theorem cut_string {tail : Text} (value : Text) (cut : CutInStrings tail) (names : NamesNext tail) :
    CutInStrings (value.flatMap escapeChar ++ 34 :: tail) := by
  have closed : CutInStrings (34 :: tail) := by
    apply @CutInStrings.append [34] tail cut
    exact List.forall_mem_singleton.mpr rfl
  exact closed.escaped escapesQuotes_escapeChar names.ends value

theorem namesNext_reason (reason : CheckReason) (rest : Text) :
    NamesNext (reasonText reason ++ rest) :=
  ⟨[123], 99, _, rfl, List.forall_mem_singleton.mpr rfl, by decide, by decide⟩

theorem cut_reason {tail : Text} (reason : CheckReason) (cut : CutInStrings tail)
    (names : NamesNext tail) : CutInStrings (reasonText reason ++ tail) := by
  have detail : CutInStrings ((decodeReplace reason.detail).flatMap escapeChar ++
      34 :: 125 :: tail) :=
    cut_string _ (@CutInStrings.append [125] tail cut (List.forall_mem_singleton.mpr rfl))
      (names.cons rfl)
  have named : IsPrintable (44 :: nameText (text "detail") ++ [34]) := isPrintable_of_all rfl
  have code : CutInStrings ((decodeReplace reason.code.text).flatMap escapeChar ++
      34 :: (44 :: nameText (text "detail") ++ [34] ++
        ((decodeReplace reason.detail).flatMap escapeChar ++ 34 :: 125 :: tail))) :=
    cut_string _ (detail.append named.inner)
      ⟨[44], 100, _, rfl, List.forall_mem_singleton.mpr rfl, by decide, by decide⟩
  have begun : IsPrintable (123 :: nameText (text "code") ++ [34]) := isPrintable_of_all rfl
  have whole := code.append begun.inner
  rw [reasonText_eq]
  simpa only [List.append_assoc, List.cons_append, List.nil_append] using whole

theorem cut_laterReasons {tail : Text} (reasons : List CheckReason) (cut : CutInStrings tail)
    (names : NamesNext tail) :
    CutInStrings ((reasons.map reasonText).flatMap (44 :: ·) ++ tail) ∧
      NamesNext ((reasons.map reasonText).flatMap (44 :: ·) ++ tail) := by
  induction reasons with
  | nil => exact ⟨cut, names⟩
  | cons reason reasons ih =>
      have own := cut_reason reason ih.1 ih.2
      rw [List.map_cons, List.flatMap_cons, List.append_assoc, List.cons_append]
      exact ⟨@CutInStrings.append [44] _ own (List.forall_mem_singleton.mpr rfl),
        (namesNext_reason reason _).cons rfl⟩

theorem cut_reasons {tail : Text} (reasons : List CheckReason) (cut : CutInStrings tail)
    (names : NamesNext tail) : CutInStrings (separated (reasons.map reasonText) ++ tail) := by
  cases reasons with
  | nil => exact cut
  | cons reason reasons =>
      have later := cut_laterReasons reasons cut names
      rw [List.map_cons, separated, List.append_assoc]
      exact cut_reason reason later.1 later.2

/-- Whatever the state is, a line that is broken is broken inside of its strings. -/
theorem cut_line (report : CheckReport) (c : CodePoint) :
    CutInStrings (beforeState report ++ c :: behindState report) := by
  have ending : CutInStrings (lineEnd report) := .of_inner (printable_lineEnd report).inner
  have exe : CutInStrings ((decodeReplace report.exePath).flatMap escapeChar ++ lineEnd report) :=
    ending.escaped escapesQuotes_escapeChar
      ⟨[44], 111, _, rfl, List.forall_mem_singleton.mpr rfl, by decide, by decide⟩ _
  have behind : CutInStrings (behindState report) := by
    rw [behindState_eq]
    exact exe.append (printable_exeFront report).inner
  have state : CutInStrings (c :: behindState report) :=
    behind.cons ⟨[44], 116, _, rfl, List.forall_mem_singleton.mpr rfl, by decide, by decide⟩ c
  have stateNamed : IsPrintable stateFront := isPrintable_of_all rfl
  have comm : CutInStrings ((decodeReplace report.comm).flatMap escapeChar ++
      (stateFront ++ c :: behindState report)) :=
    (state.append stateNamed.inner).escaped escapesQuotes_escapeChar
      ⟨[44], 115, _, rfl, List.forall_mem_singleton.mpr rfl, by decide, by decide⟩ _
  have commNamed : IsPrintable commFront := isPrintable_of_all rfl
  have reasons := cut_reasons report.reasons (comm.append commNamed.inner)
    ⟨[93, 44], 102, _, rfl, isPlain_of_all rfl, by decide, by decide⟩
  have whole := reasons.append (printable_reasonsFront report).inner
  rw [beforeState_eq]
  simpa only [List.append_assoc] using whole

end Ksnap.Panel
