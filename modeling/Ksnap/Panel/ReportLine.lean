import Ksnap.Engine.JsonString
import Ksnap.Foundation.JsonPieces
import Ksnap.Panel.Calls

/-!
# The line of a report

What `print_report` prints, as the text that the panel decodes, and what `json.loads` makes
of it. The line is cut where the state stands: what is in front of it and behind it is sound
whatever the report says, while the state is printed as it is.
-/

namespace Ksnap.Panel

open Foundation

/-! ## Characters -/

/-- What the engine prints for a character of a text. -/
def escapeChar (c : CodePoint) : Text :=
  if c.val < 0x80 then (escapeByte (.ofNat c.val)).map fun byte => codePoint byte.toNat else [c]

theorem escaped_cases {c : CodePoint} (escaped : isPlainChar c = false) :
    c = 34 ∨ c = 92 ∨ ∃ number < 32, c = codePoint number := by
  by_cases quote : c = 34
  · exact .inl quote
  by_cases backslash : c = 92
  · exact .inr (.inl backslash)
  simp only [isPlainChar, bne_iff_ne.mpr quote, bne_iff_ne.mpr backslash, Bool.true_and,
    decide_eq_false_iff_not, not_le] at escaped
  exact .inr (.inr ⟨c.val, escaped, Fin.ext (Nat.mod_eq_of_lt c.isLt).symm⟩)

theorem toNat_ofNat_of_lt {number : ℕ} (lt : number < 0x80) : (UInt8.ofNat number).toNat = number :=
  Nat.mod_eq_of_lt (by omega)

theorem escapeByte_of_plain {c : CodePoint} (plain : isPlainChar c = true) (ascii : c.val < 0x80) :
    escapeByte (.ofNat c.val) = [.ofNat c.val] := by
  simp only [isPlainChar, Bool.and_eq_true, bne_iff_ne, decide_eq_true_eq] at plain
  rcases plain with ⟨⟨notQuote, notBackslash⟩, visible⟩
  have toNat := toNat_ofNat_of_lt ascii
  have differs : ∀ byte : UInt8, byte.toNat ≠ c.val → UInt8.ofNat c.val ≠ byte := by
    rintro byte other rfl
    exact other toNat
  apply escapeByte_self
  · exact differs 34 fun same => notQuote (Fin.ext same.symm)
  · exact differs 92 fun same => notBackslash (Fin.ext same.symm)
  · rw [UInt8.le_iff_toNat_le, toNat]
    exact visible

theorem escapeChar_of_plain {c : CodePoint} (plain : isPlainChar c = true) :
    escapeChar c = [c] := by
  rw [escapeChar]
  split
  · next ascii =>
      rw [escapeByte_of_plain plain ascii, List.map_singleton, toNat_ofNat_of_lt ascii]
      exact congrArg (fun other => [other]) (Fin.ext (Nat.mod_eq_of_lt c.isLt))
  · rfl

theorem escapes_escapeChar : Escapes escapeChar := by
  intro c chars
  cases plain : isPlainChar c with
  | true =>
      rw [escapeChar_of_plain plain]
      exact feed_plain plain chars
  | false =>
      rcases escaped_cases plain with rfl | rfl | ⟨number, lt, rfl⟩
      · rfl
      · rfl
      · interval_cases number <;> rfl

/-- An escape is printable and begins with a backslash. -/
theorem escapeChar_of_escaped {c : CodePoint} (escaped : isPlainChar c = false) :
    ∃ more, escapeChar c = 92 :: more ∧ ∀ d ∈ more, 0x20 ≤ d.val ∧ d.val < 0x80 := by
  have all : ∀ more : Text, more.all (fun d => 0x20 ≤ d.val ∧ d.val < 0x80) = true →
      ∀ d ∈ more, 0x20 ≤ d.val ∧ d.val < 0x80 := by
    intro more table d mem
    exact of_decide_eq_true (List.all_eq_true.mp table d mem)
  rcases escaped_cases escaped with rfl | rfl | ⟨number, lt, rfl⟩
  · exact ⟨_, rfl, all _ rfl⟩
  · exact ⟨_, rfl, all _ rfl⟩
  · interval_cases number <;> exact ⟨_, rfl, all _ rfl⟩

theorem isLineBoundary_of_printable {c : CodePoint} (printable : 0x20 ≤ c.val ∧ c.val < 0x80) :
    isLineBoundary c = false := by
  simp [isLineBoundary]
  omega

theorem escapesQuotes_escapeChar : EscapesQuotes escapeChar := by
  intro c
  cases plain : isPlainChar c with
  | true =>
      left
      refine ⟨escapeChar_of_plain plain, ?_⟩
      rintro rfl
      cases plain
  | false =>
      rcases escapeChar_of_escaped plain with ⟨more, same, printable⟩
      exact .inr ⟨more, same, fun d mem => isLineBoundary_of_printable (printable d mem)⟩

/-- What holds of everything that can be printed, and of what is printed as it is. -/
theorem forall_mem_escaped {P : CodePoint → Prop}
    (printable : ∀ c : CodePoint, 0x20 ≤ c.val ∧ c.val < 0x80 → P c) {value : Text}
    (plain : ∀ c ∈ value, isPlainChar c = true → P c) : ∀ d ∈ value.flatMap escapeChar, P d := by
  intro d mem
  rcases List.mem_flatMap.mp mem with ⟨c, own, isEscape⟩
  cases isPlain : isPlainChar c with
  | true =>
      rw [escapeChar_of_plain isPlain, List.mem_singleton] at isEscape
      subst isEscape
      exact plain d own isPlain
  | false =>
      rcases escapeChar_of_escaped isPlain with ⟨more, same, inRange⟩
      rw [same] at isEscape
      rcases List.mem_cons.mp isEscape with rfl | later
      · exact printable 92 (by decide)
      · exact printable d (inRange d later)

/-! ## Bytes -/

theorem utf8_append (first second : Text) : utf8 (first ++ second) = utf8 first ++ utf8 second :=
  List.flatMap_append

theorem val_codePoint_byte (byte : UInt8) : (codePoint byte.toNat).val = byte.toNat :=
  Nat.mod_eq_of_lt (byte.toNat_lt.trans (by decide))

theorem utf8_map {raw : Bytes} (ascii : ∀ byte ∈ raw, byte.toNat < 0x80) :
    utf8 (raw.map fun byte => codePoint byte.toNat) = raw := by
  induction raw with
  | nil => rfl
  | cons byte raw ih =>
      have later := ih fun other mem => ascii other (List.mem_cons_of_mem _ mem)
      have own : utf8Char (codePoint byte.toNat) = [byte] := by
        rw [utf8Char, val_codePoint_byte, if_pos (ascii byte List.mem_cons_self), UInt8.ofNat_toNat]
      rw [List.map_cons, utf8, List.flatMap_cons, own]
      exact congrArg (byte :: ·) later

theorem le_of_mem_utf8Char {c : CodePoint} (notAscii : 0x80 ≤ c.val) :
    ∀ byte ∈ utf8Char c, 0x80 ≤ byte.toNat := by
  have bound := c.isLt
  rw [utf8Char, if_neg (not_lt.mpr notAscii)]
  split_ifs <;> simp <;> omega

theorem escapeByte_of_le {byte : UInt8} (notAscii : 0x80 ≤ byte.toNat) :
    escapeByte byte = [byte] := by
  have differs : ∀ other : UInt8, other.toNat < 0x80 → byte ≠ other := by
    rintro other small rfl
    omega
  apply escapeByte_self (differs 34 (by decide)) (differs 92 (by decide))
  rw [UInt8.le_iff_toNat_le]
  exact le_trans (by decide) notAscii

theorem utf8_escapeChar (c : CodePoint) :
    utf8 (escapeChar c) = (utf8Char c).flatMap escapeByte := by
  by_cases ascii : c.val < 0x80
  · have small : ∀ byte ∈ escapeByte (.ofNat c.val), byte.toNat < 0x80 := by
      intro byte mem
      have printed : codePoint byte.toNat ∈ escapeChar c := by
        rw [escapeChar, if_pos ascii]
        exact List.mem_map_of_mem mem
      rw [← val_codePoint_byte byte]
      cases plain : isPlainChar c with
      | true =>
          rw [escapeChar_of_plain plain, List.mem_singleton] at printed
          rw [printed]
          exact ascii
      | false =>
          rcases escapeChar_of_escaped plain with ⟨more, same, inRange⟩
          rw [same] at printed
          rcases List.mem_cons.mp printed with isBackslash | later
          · rw [isBackslash]
            decide
          · exact (inRange _ later).2
    rw [escapeChar, if_pos ascii, utf8_map small, utf8Char, if_pos ascii, List.flatMap_singleton]
  · have same : (utf8Char c).flatMap escapeByte = (utf8Char c).flatMap fun byte => [byte] :=
      List.flatMap_congr fun byte mem =>
        escapeByte_of_le (le_of_mem_utf8Char (not_lt.mp ascii) byte mem)
    rw [escapeChar, if_neg ascii, same, List.flatMap_singleton', utf8, List.flatMap_singleton]

/-- The bytes are UTF-8 without NUL. -/
def IsText (value : Bytes) : Prop :=
  0 ∉ value ∧ ∃ chars, Encodable chars ∧ value = utf8 chars

/-- A text between quotes, escaped. -/
def stringText (value : Text) : Text :=
  34 :: value.flatMap escapeChar ++ [34]

theorem encodable_map {raw : Bytes} (ascii : ∀ byte ∈ raw, byte.toNat < 0x80) :
    Encodable (raw.map fun byte => codePoint byte.toNat) := by
  intro c mem
  rcases List.mem_map.mp mem with ⟨byte, own, rfl⟩
  have small := ascii byte own
  simp only [isSurrogate, val_codePoint_byte, Bool.and_eq_false_iff, decide_eq_false_iff_not]
  omega

theorem decodeReplace_map {raw : Bytes} (ascii : ∀ byte ∈ raw, byte.toNat < 0x80) :
    decodeReplace raw = raw.map fun byte => codePoint byte.toNat := by
  have decoded := decodeReplace_utf8 (encodable_map ascii)
  rwa [utf8_map ascii] at decoded

theorem IsText.encodable {value : Bytes} (isText : IsText value) :
    Encodable (decodeReplace value) := by
  rcases isText with ⟨_, chars, encodable, rfl⟩
  rw [decodeReplace_utf8 encodable]
  exact encodable

theorem printJsonString_eq {value : Bytes} (isText : IsText value) :
    printJsonString value = utf8 (stringText (decodeReplace value)) := by
  rcases isText with ⟨noNul, chars, encodable, rfl⟩
  have escaped : (utf8 chars).flatMap escapeByte = utf8 (chars.flatMap escapeChar) := by
    rw [utf8, utf8, List.flatMap_assoc, List.flatMap_assoc]
    exact List.flatMap_congr fun c _ => (utf8_escapeChar c).symm
  rw [decodeReplace_utf8 encodable, printJsonString, cString_of_notMem noNul, escaped, stringText,
    utf8_append]
  rfl

theorem isDecimal_or_minus (number : ℤ) : ∀ c ∈ decimal number, c = 45 ∨ isDecimal c = true := by
  intro c mem
  rw [decimal] at mem
  cases number with
  | ofNat number =>
      rw [Int.ofNat_eq_natCast, text_toString_natCast] at mem
      exact .inr (isDecimal_of_mem c mem)
  | negSucc number =>
      rw [text_toString_negSucc] at mem
      rcases List.mem_cons.mp mem with minus | digit
      · exact .inl minus
      · exact .inr (isDecimal_of_mem c digit)

theorem printable_decimal (number : ℤ) : ∀ c ∈ decimal number, 0x20 ≤ c.val ∧ c.val < 0x80 := by
  intro c mem
  rcases isDecimal_or_minus number c mem with rfl | digit
  · decide
  · simp only [isDecimal, Bool.and_eq_true, decide_eq_true_eq] at digit
    omega

theorem ascii_eq_utf8 {literal : String} (ascii_ : ∀ c ∈ text literal, c.val < 0x80) :
    ascii literal = utf8 (text literal) := by
  rw [ascii, utf8, text, List.flatMap_map, ← List.flatMap_singleton' (literal.toList.map _),
    List.flatMap_map]
  apply List.flatMap_congr
  intro character mem
  have small := ascii_ _ (List.mem_map_of_mem mem)
  have whole : (codePoint character.toNat).val = character.toNat :=
    Nat.mod_eq_of_lt (character.valid.elim (fun lt => lt.trans (by decide)) And.right)
  rw [utf8Char, if_pos small, whole]

theorem decimal_eq_utf8 (number : ℤ) : Ksnap.decimal number = utf8 (decimal number) :=
  ascii_eq_utf8 fun c mem => (printable_decimal number c mem).2

/-! ## What the line says -/

def stringJson (value : Bytes) : Json :=
  .string (decodeReplace value)

def reasonJson (reason : CheckReason) : Json :=
  .dict [(text "code", stringJson reason.code.text), (text "detail", stringJson reason.detail)]

/-- The facts of a report. -/
def factsJson (report : CheckReport) : Json :=
  .dict [(text "comm", stringJson report.comm),
    (text "state", .string [codePoint report.state.toNat]),
    (text "threads", .integer report.threads.toInt),
    (text "tracer_pid", .integer report.tracerPid.toInt), (text "uid", .integer report.uid.toNat),
    (text "rss_kb", .integer report.rssKb.toNat), (text "argc", .integer report.argc),
    (text "exe", stringJson report.exePath), (text "open_fds", .integer report.openFds),
    (text "volatile_fds", .integer report.volatileFds),
    (text "dumpable_fds", .integer report.dumpableFds), (text "children", .integer report.children),
    (text "dumpable_vmas", .integer report.dumpableVmas.toNat),
    (text "kernel_maps", .integer report.kernelMaps.toNat),
    (text "shared_vmas", .integer report.sharedVmas.toNat),
    (text "device_vmas", .integer report.deviceVmas.toNat),
    (text "snapshot_bytes", .integer report.snapshotBytes.toNat),
    (text "ptrace_probed", .boolean report.ptraceProbed),
    (text "ptrace_ok", .boolean report.ptraceOk)]

/-- The members of a report as JSON. -/
def reportMembers (report : CheckReport) : List (Text × Json) :=
  [(text "pid", .integer report.pid.toInt), (text "dumpable", .boolean (report.reasons.length = 0)),
    (text "reasons", .list (report.reasons.map reasonJson)), (text "facts", factsJson report)]

/-! ## The line -/

def numberMember (name : String) (number : ℤ) : WrittenMember where
  name := text name
  input := decimal number
  value := .integer number

def stringMember (name : String) (value : Bytes) : WrittenMember where
  name := text name
  input := stringText (decodeReplace value)
  value := stringJson value

def booleanMember (name : String) (value : Bool) : WrittenMember where
  name := text name
  input := text (if value then "true" else "false")
  value := .boolean value

def reasonText (reason : CheckReason) : Text :=
  objectText (stringMember "code" reason.code.text) [stringMember "detail" reason.detail]

def reasonsMember (reasons : List CheckReason) : WrittenMember where
  name := text "reasons"
  input := listText (reasons.map reasonText)
  value := .list (reasons.map reasonJson)

/-- The facts that follow the state. -/
def laterFacts (report : CheckReport) : List WrittenMember :=
  [numberMember "threads" report.threads.toInt, numberMember "tracer_pid" report.tracerPid.toInt,
    numberMember "uid" report.uid.toNat, numberMember "rss_kb" report.rssKb.toNat,
    numberMember "argc" report.argc, stringMember "exe" report.exePath,
    numberMember "open_fds" report.openFds, numberMember "volatile_fds" report.volatileFds,
    numberMember "dumpable_fds" report.dumpableFds, numberMember "children" report.children,
    numberMember "dumpable_vmas" report.dumpableVmas.toNat,
    numberMember "kernel_maps" report.kernelMaps.toNat,
    numberMember "shared_vmas" report.sharedVmas.toNat,
    numberMember "device_vmas" report.deviceVmas.toNat,
    numberMember "snapshot_bytes" report.snapshotBytes.toNat,
    booleanMember "ptrace_probed" report.ptraceProbed, booleanMember "ptrace_ok" report.ptraceOk]

/-- The members in front of the facts. -/
def frontMembers (report : CheckReport) : List WrittenMember :=
  [booleanMember "dumpable" (report.reasons.length = 0), reasonsMember report.reasons]

/-- The line up to the quote in front of the state. -/
def beforeState (report : CheckReport) : Text :=
  123 :: (numberMember "pid" report.pid.toInt).text ++ laterMembers (frontMembers report) ++
    (44 :: nameText (text "facts") ++ (123 :: (stringMember "comm" report.comm).text ++
      (44 :: nameText (text "state") ++ [34])))

/-- The line from the quote behind the state on. -/
def behindState (report : CheckReport) : Text :=
  34 :: laterMembers (laterFacts report) ++ [125, 125]

def lineText (report : CheckReport) : Text :=
  beforeState report ++ codePoint report.state.toNat :: behindState report

/-- A report as the C structure holds it: its texts are UTF-8, its counters are integers. -/
structure WellFormed (report : CheckReport) : Prop where
  comm : IsText report.comm
  exePath : IsText report.exePath
  details : ∀ reason ∈ report.reasons, IsText reason.detail
  argc : report.argc < 2 ^ 31
  openFds : report.openFds < 2 ^ 31
  volatileFds : report.volatileFds < 2 ^ 31
  dumpableFds : report.dumpableFds < 2 ^ 31
  children : report.children < 2 ^ 31

theorem printBool_eq (condition : Bool) :
    printBool condition = utf8 (text (if condition then "true" else "false")) := by
  cases condition <;> rfl

/-- ASCII without NUL. -/
def isAsciiByte (byte : UInt8) : Bool :=
  byte != 0 && byte < 0x80

theorem bytes_of_all {value : Bytes} (all : value.all isAsciiByte = true) :
    ∀ byte ∈ value, byte ≠ 0 ∧ byte.toNat < 0x80 := by
  intro byte mem
  have own := List.all_eq_true.mp all byte mem
  simp only [isAsciiByte, Bool.and_eq_true, bne_iff_ne, decide_eq_true_eq] at own
  exact own

theorem isText_of_all {value : Bytes} (all : value.all isAsciiByte = true) : IsText value := by
  have small := fun byte mem => (bytes_of_all all byte mem).2
  exact ⟨fun mem => (bytes_of_all all 0 mem).1 rfl, _, encodable_map small, (utf8_map small).symm⟩

theorem isAscii_code (code : ReasonCode) : code.text.all isAsciiByte = true := by
  cases code <;> rfl

theorem unescaped_code (code : ReasonCode) : code.text.all (fun byte => escapeByte byte == [byte]) =
    true := by
  cases code <;> rfl

/-- A code is printed without escapes and needs none. -/
theorem printCode_eq (code : ReasonCode) :
    ascii "\"" ++ code.text ++ ascii "\"" = utf8 (stringText (decodeReplace code.text)) := by
  have isText := isText_of_all (isAscii_code code)
  have bare : ∀ byte ∈ code.text, escapeByte byte = [byte] :=
    fun byte mem => eq_of_beq (List.all_eq_true.mp (unescaped_code code) byte mem)
  rw [← printJsonString_eq isText, printJsonString, cString_of_notMem isText.1,
    List.flatMap_congr bare, List.flatMap_singleton']

theorem printFact_eq {name : String} {value : Bytes} {member : WrittenMember}
    (literal : ascii name = utf8 (text name)) (named : member.name = text name)
    (written : value = utf8 member.input) : printFact name value = utf8 (44 :: member.text) := by
  have parts :
      (44 : CodePoint) :: member.text = [44, 34] ++ text name ++ [34, 58] ++ member.input := by
    simp [WrittenMember.text, nameText, named]
  rw [parts, printFact, literal, written, utf8_append, utf8_append, utf8_append]
  rfl

theorem printNumberFact_eq (name : String) (number : ℤ) (literal : ascii name = utf8 (text name)) :
    printFact name (Ksnap.decimal number) = utf8 (44 :: (numberMember name number).text) :=
  printFact_eq literal rfl (decimal_eq_utf8 number)

theorem printStringFact_eq (name : String) {value : Bytes} (isText : IsText value)
    (literal : ascii name = utf8 (text name)) :
    printFact name (printJsonString value) = utf8 (44 :: (stringMember name value).text) :=
  printFact_eq literal rfl (printJsonString_eq isText)

theorem printBooleanFact_eq (name : String) (value : Bool)
    (literal : ascii name = utf8 (text name)) :
    printFact name (printBool value) = utf8 (44 :: (booleanMember name value).text) :=
  printFact_eq literal rfl (printBool_eq value)

theorem printReason_eq {reason : CheckReason} (isText : IsText reason.detail) (index : ℕ) :
    printReason reason index =
      utf8 (text (if index = 0 then "" else ",") ++ reasonText reason) := by
  have comma : ascii (if index = 0 then "" else ",") =
      utf8 (text (if index = 0 then "" else ",")) := by
    split <;> rfl
  have code : ascii "\x7b\"code\":\"" = utf8 (123 :: nameText (text "code")) ++ ascii "\"" := rfl
  have detail : ascii "\",\"detail\":" = ascii "\"" ++ utf8 (44 :: nameText (text "detail")) := rfl
  have closing : ascii "\x7d" = utf8 [125] := rfl
  have written : reasonText reason = 123 :: nameText (text "code") ++
      stringText (decodeReplace reason.code.text) ++ 44 :: nameText (text "detail") ++
        stringText (decodeReplace reason.detail) ++ [125] := by
    simp [reasonText, objectText, laterMembers, WrittenMember.text, stringMember]
  rw [printReason, comma, code, detail, printJsonString_eq isText, closing, written]
  simp only [utf8_append, ← printCode_eq, List.append_assoc]

theorem printLaterReasons_eq {reasons : List CheckReason}
    (texts : ∀ reason ∈ reasons, IsText reason.detail) (index : ℕ) :
    (reasons.zipIdx (index + 1)).flatMap (fun entry => printReason entry.1 entry.2) =
      utf8 ((reasons.map reasonText).flatMap (44 :: ·)) := by
  induction reasons generalizing index with
  | nil => rfl
  | cons reason reasons ih =>
      have first := printReason_eq (texts reason List.mem_cons_self) (index + 1)
      have later := ih (fun other mem => texts other (List.mem_cons_of_mem _ mem)) (index + 1)
      rw [List.zipIdx_cons, List.flatMap_cons, later, first, if_neg (Nat.succ_ne_zero index),
        List.map_cons, List.flatMap_cons, ← utf8_append]
      rfl

theorem printReasons_eq {reasons : List CheckReason}
    (texts : ∀ reason ∈ reasons, IsText reason.detail) :
    reasons.zipIdx.flatMap (fun entry => printReason entry.1 entry.2) =
      utf8 (separated (reasons.map reasonText)) := by
  cases reasons with
  | nil => rfl
  | cons reason reasons =>
      have first := printReason_eq (texts reason List.mem_cons_self) 0
      have later :=
        printLaterReasons_eq (fun other mem => texts other (List.mem_cons_of_mem _ mem)) 0
      rw [List.zipIdx_cons, List.flatMap_cons, later, first, if_pos rfl, List.map_cons,
        separated, ← utf8_append]
      rfl

theorem printReport_eq {report : CheckReport} (wellFormed : WellFormed report)
    (small : report.state.toNat < 0x80) : printReport report = utf8 (lineText report ++ [10]) := by
  have pid : ascii "\x7b\"pid\":" = utf8 (123 :: nameText (text "pid")) := rfl
  have dumpable : ascii ",\"dumpable\":" = utf8 (44 :: nameText (text "dumpable")) := rfl
  have reasons : ascii ",\"reasons\":[" = utf8 (44 :: nameText (text "reasons") ++ [91]) := rfl
  have comm : ascii "],\"facts\":\x7b\"comm\":" =
      utf8 (93 :: 44 :: nameText (text "facts") ++ 123 :: nameText (text "comm")) := rfl
  have state : ascii ",\"state\":\"" = utf8 (44 :: nameText (text "state") ++ [34]) := rfl
  have character : [report.state] = utf8 [codePoint report.state.toNat] := by
    rw [utf8, List.flatMap_singleton, utf8Char, val_codePoint_byte, if_pos small,
      UInt8.ofNat_toNat]
  have quote : ascii "\"" = utf8 [34] := rfl
  have closing : ascii "\x7d\x7d\n" = utf8 [125, 125, 10] := rfl
  unfold printReport
  rw [pid, decimal_eq_utf8, dumpable, printBool_eq, reasons,
    printReasons_eq wellFormed.details, comm, printJsonString_eq wellFormed.comm, state, character,
    quote, printNumberFact_eq "threads" _ rfl, printNumberFact_eq "tracer_pid" _ rfl,
    printNumberFact_eq "uid" _ rfl, printNumberFact_eq "rss_kb" _ rfl,
    printNumberFact_eq "argc" _ rfl, printStringFact_eq "exe" wellFormed.exePath rfl,
    printNumberFact_eq "open_fds" _ rfl, printNumberFact_eq "volatile_fds" _ rfl,
    printNumberFact_eq "dumpable_fds" _ rfl, printNumberFact_eq "children" _ rfl,
    printNumberFact_eq "dumpable_vmas" _ rfl, printNumberFact_eq "kernel_maps" _ rfl,
    printNumberFact_eq "shared_vmas" _ rfl, printNumberFact_eq "device_vmas" _ rfl,
    printNumberFact_eq "snapshot_bytes" _ rfl, printBooleanFact_eq "ptrace_probed" _ rfl,
    printBooleanFact_eq "ptrace_ok" _ rfl, closing]
  simp only [← utf8_append]
  apply congrArg utf8
  simp only [lineText, beforeState, behindState, frontMembers, laterFacts, laterMembers,
    reasonsMember, listText, List.flatMap_cons, List.flatMap_nil, List.append_assoc,
    List.cons_append, List.nil_append, WrittenMember.text]
  rfl

end Ksnap.Panel
