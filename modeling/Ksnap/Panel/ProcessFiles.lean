import Ksnap.Foundation.Loop
import Ksnap.Panel.Processes

/-!
# The files of a process

What the kernel prints into `stat` and `status` of a process, and what the panel makes of
the bytes. In both a name of the process's own choice stands between parts that only the
kernel writes. `stat` has it in parentheses, and what is behind the last of them is sound.
`status` has it on its first line, and the lines behind that one are read as they are.
-/

namespace Ksnap.Panel

open Foundation

/-! ## The kernel's files -/

/-- What the kernel prints on its own lines. -/
def isKernelPrinted (c : CodePoint) : Bool :=
  c = 9 || (0x20 ≤ c.val && c.val < 0x7F)

/-- A line of `status` that is neither that of the user nor that of the memory. -/
structure OtherLine where
  line : Text
  printed : ∀ c ∈ line, isKernelPrinted c = true
  notUid : isUidLine line = false
  notRss : isRssLine line = false

/-- A word of `stat` behind the name. -/
structure StatWord where
  word : Text
  some : word ≠ []
  printed : ∀ c ∈ word, isKernelPrinted c = true
  solid : ∀ c ∈ word, isWhitespace c = false
  notParen : 41 ∉ word

/-- A process as the kernel knows it. Each of its files may be gone by the time it is read. -/
structure KernelProcess where
  pid : UInt32
  comm : Bytes
  short : comm.length ≤ 15
  noNul : 0 ∉ comm
  /-- The state and what stands between it and the number of threads. -/
  statFront : List StatWord
  seventeen : statFront.length = 17
  threads : UInt32
  statBack : List StatWord
  cmdline : Bytes
  statusFront : List OtherLine
  uid : UInt32
  /-- The effective, the saved and the file system's one. -/
  otherUids : List UInt32
  statusMiddle : List OtherLine
  rssKb : Option UInt64
  statusBack : List OtherLine
  unreadable : ProcessFile → Option OsFailure
  owner : Except OsFailure UInt32

/-- How the kernel prints a name in `status`. -/
def escapeNameByte (byte : UInt8) : Bytes :=
  if byte = 10 then [92, 110] else if byte = 92 then [92, 92] else [byte]

/-- The first line of `status`. -/
def nameLine (comm : Bytes) : Bytes :=
  utf8 (text "Name:\t") ++ comm.flatMap escapeNameByte ++ [10]

/-- What the panel finds on it. -/
def nameLines (comm : Bytes) : List Text :=
  splitlines (fileText (nameLine comm))

namespace KernelProcess

variable (process : KernelProcess)

/-- The name of its folder. -/
def folder : Text :=
  decimalDigits process.pid.toNat

def uidLine : Text :=
  text "Uid:" ++ (process.uid :: process.otherUids).flatMap fun uid => 9 :: decimalDigits uid.toNat

/-- The size stands in a field of eight characters. -/
def rssLine (rssKb : UInt64) : Text :=
  let digits := decimalDigits rssKb.toNat
  text "VmRSS:\t" ++ List.replicate (8 - digits.length) 32 ++ digits ++ text " kB"

/-- The lines of `status` behind the name. -/
def statusLines : List Text :=
  process.statusFront.map OtherLine.line ++ process.uidLine ::
    (process.statusMiddle.map OtherLine.line ++ (process.rssKb.map rssLine).toList ++
      process.statusBack.map OtherLine.line)

/-- The words of `stat` behind the name. -/
def statWords : List Text :=
  process.statFront.map StatWord.word ++ decimalDigits process.threads.toNat ::
    process.statBack.map StatWord.word

/-- The bytes of a file. In `stat` the name is printed as it is. -/
def content : ProcessFile → Bytes
  | .stat =>
      utf8 (process.folder ++ text " (") ++ process.comm ++
        41 :: utf8 (process.statWords.flatMap (32 :: ·) ++ [10])
  | .cmdline => process.cmdline
  | .status => nameLine process.comm ++ utf8 (process.statusLines.flatMap (· ++ [10]))

def read (file : ProcessFile) : Except PythonError Bytes :=
  match process.unreadable file with
  | some failure => orRaise (.error failure)
  | none => .ok (process.content file)

def readOwner : Except PythonError ℤ :=
  orRaise (process.owner.map fun uid => (uid.toNat : ℤ))

end KernelProcess

/-! ## What the panel reads -/

section Files

/-- `raw.find(c)` where nothing in front of it is one. -/
theorem findIdx?_split {c : CodePoint} {before : Text} (first : c ∉ before) (after : Text) :
    (before ++ c :: after).findIdx? (· = c) = some before.length := by
  have none : before.findIdx? (fun d => decide (d = c)) = none := by
    rw [List.findIdx?_eq_none_iff]
    intro d mem
    exact decide_eq_false fun same => first (same ▸ mem)
  simp [List.findIdx?_append, none, List.findIdx?_cons]

theorem lastIndexOf_split {c : CodePoint} {after : Text} (last : c ∉ after) (before : Text) :
    lastIndexOf c (before ++ c :: after) = some before.length := by
  have flipped : (before ++ c :: after).reverse = after.reverse ++ c :: before.reverse := by simp
  have found := findIdx?_split (List.mem_reverse.not.mpr last) before.reverse
  rw [lastIndexOf, flipped, found, Option.map_some, List.length_reverse]
  simp only [List.length_append, List.length_cons, Option.some.injEq]
  omega

/-- What `_parse_stat` finds when a space is behind the last parenthesis. -/
theorem parseStat_split {front behind : Text} (first : 40 ∉ front) (last : 41 ∉ behind)
    (name : Text) (spaced : behind.head? = some 32) :
    parseStat (front ++ 40 :: (name ++ 41 :: behind)) = some (name, splitWords behind) := by
  have again : front ++ 40 :: (name ++ 41 :: behind) = (front ++ 40 :: name) ++ 41 :: behind := by
    simp
  have openParen := findIdx?_split first (name ++ 41 :: behind)
  have closeParen := lastIndexOf_split last (front ++ 40 :: name)
  rw [← again] at closeParen
  rw [parseStat, openParen, closeParen]
  dsimp only
  have inside : ((front ++ 40 :: (name ++ 41 :: behind)).take (front ++ 40 :: name).length).drop
      (front.length + 1) = name := by
    rw [again, List.take_left]
    simp
  have rest : (front ++ 40 :: (name ++ 41 :: behind)).drop ((front ++ 40 :: name).length + 2) =
      behind.drop 1 := by
    rw [again, List.drop_append]
    simp
  have words : splitWords (behind.drop 1) = splitWords behind := by
    cases behind with
    | nil => cases spaced
    | cons c behind =>
        cases spaced
        exact (splitWords_space rfl behind).symm
  rw [inside, rest, words]

theorem no_paren_of_numeral {pid : Text} (numeral : ∀ c ∈ pid, isDecimal c = true) :
    40 ∉ pid ++ [32] := by
  intro mem
  rcases List.mem_append.mp mem with digit | space
  · exact absurd (numeral 40 digit) (by decide)
  · exact absurd (List.mem_singleton.mp space) (by decide)

/-- `"%d (%s) %s\n"` of a number, a name and the joined fields. -/
def statLine (pid name : Text) (fields : List Text) : Text :=
  pid ++ text " (" ++ name ++ text ") " ++ List.intercalate [32] fields ++ [10]

/-- The name may hold whatever it likes, since no field has a parenthesis. -/
theorem parseStat_statLine {pid name : Text} {fields : List Text}
    (numeral : ∀ c ∈ pid, isDecimal c = true) (some : ∀ field ∈ fields, field ≠ [])
    (solid : ∀ field ∈ fields, ∀ c ∈ field, isWhitespace c = false)
    (bare : ∀ field ∈ fields, 40 ∉ field ∧ 41 ∉ field) :
    parseStat (statLine pid name fields) = .some (name, fields) := by
  have first : 40 ∉ pid ++ [32] := no_paren_of_numeral numeral
  have last : 41 ∉ 32 :: (List.intercalate [32] fields ++ [10]) := by
    intro mem
    rcases List.mem_cons.mp mem with space | mem
    · exact absurd space (by decide)
    · rcases List.mem_append.mp mem with inside | newline
      · rcases mem_intercalate inside with space | ⟨field, own, mem⟩
        · exact absurd (List.mem_singleton.mp space) (by decide)
        · exact (bare field own).2 mem
      · exact absurd (List.mem_singleton.mp newline) (by decide)
  have cut : statLine pid name fields =
      (pid ++ [32]) ++ 40 :: (name ++ 41 :: 32 :: (List.intercalate [32] fields ++ [10])) := by
    simp [statLine, text]
  rw [cut, parseStat_split first last name rfl, splitWords_space rfl,
    splitWords_intercalate solid some]

theorem parseStat_statLine_brackets :
    parseStat (statLine (text "22") (text "my prog) (x\n(") [text "S", text "-1", text "0"]) =
      some (text "my prog) (x\n(", [text "S", text "-1", text "0"]) :=
  parseStat_statLine (List.all_eq_true.mp rfl) (by decide)
    (by
      simp only [List.forall_mem_cons]
      exact ⟨solid_of_all rfl, solid_of_all rfl, solid_of_all rfl,
        fun _ mem => absurd mem List.not_mem_nil⟩)
    (by decide)

/-- What the panel has of bytes between two parts that are plain. -/
theorem fileText_between {front behind : Text} (encodable : Encodable front)
    (noReturn : 13 ∉ front) (encodableToo : Encodable behind) (noReturnToo : 13 ∉ behind)
    (inside : Bytes) :
    fileText (utf8 front ++ inside ++ 41 :: utf8 behind) =
      front ++ (fileText inside ++ 41 :: behind) := by
  have paren : (41 : UInt8).toNat < 0x80 := by decide
  have decoded : decodeReplace (utf8 front ++ inside) = front ++ decodeReplace inside := by
    rw [decodeReplace, decodeFrom_utf8 encodable, List.map_append, List.map_map]
    exact congrArg (· ++ _) (List.map_id front)
  have same : universalNewlines behind = behind := by
    simpa [universalNewlines] using universalNewlines_append noReturnToo []
  have whole : decodeReplace (utf8 front ++ inside ++ 41 :: utf8 behind) =
      front ++ decodeReplace inside ++ 41 :: behind := by
    rw [decodeReplace_append_ascii paren, decoded, decodeReplace_utf8 encodableToo]
    rfl
  rw [fileText, whole, universalNewlines_solid (by decide), universalNewlines_append noReturn,
    universalNewlines_cons (by decide), same, List.append_assoc, fileText]

theorem isKernelPrinted_of_isDecimal {c : CodePoint} (decimal : isDecimal c = true) :
    isKernelPrinted c = true := by
  simp only [isDecimal, Bool.and_eq_true, decide_eq_true_eq] at decimal
  simp only [isKernelPrinted, Bool.or_eq_true, Bool.and_eq_true, decide_eq_true_eq]
  omega

/-- Nothing on a line of the kernel ends it. -/
theorem inner_of_isKernelPrinted {c : CodePoint} (printed : isKernelPrinted c = true) :
    isLineBoundary c = false := by
  simp only [isKernelPrinted, Bool.or_eq_true, Bool.and_eq_true, decide_eq_true_eq, Fin.ext_iff]
    at printed
  simp only [isLineBoundary, Bool.or_eq_false_iff, Bool.and_eq_false_iff, decide_eq_false_iff_not,
    beq_eq_false_iff_ne]
  omega

theorem not_surrogate_of_isKernelPrinted {c : CodePoint} (printed : isKernelPrinted c = true) :
    isSurrogate c = false := by
  simp only [isKernelPrinted, Bool.or_eq_true, Bool.and_eq_true, decide_eq_true_eq, Fin.ext_iff]
    at printed
  simp only [isSurrogate, Bool.and_eq_false_iff, decide_eq_false_iff_not]
  omega

/-- A text of what the kernel prints and of newlines. -/
theorem encodable_of_printed {whole : Text}
    (printed : ∀ c ∈ whole, c = 10 ∨ isKernelPrinted c = true) :
    Encodable whole ∧ 13 ∉ whole := by
  constructor
  · intro c mem
    rcases printed c mem with rfl | printed
    · rfl
    · exact not_surrogate_of_isKernelPrinted printed
  · intro mem
    rcases printed 13 mem with impossible | impossible
    · exact absurd impossible (by decide)
    · exact absurd impossible (by decide)

/-! ### Stat -/

variable (process : KernelProcess)

/-- The words behind the name, as `StatWord` has them. -/
theorem statWords_cases {word : Text} (mem : word ∈ process.statWords) :
    word ≠ [] ∧ (∀ c ∈ word, isKernelPrinted c = true) ∧ (∀ c ∈ word, isWhitespace c = false) ∧
      41 ∉ word := by
  have others : ∀ words : List StatWord, word ∈ words.map StatWord.word → word ≠ [] ∧
      (∀ c ∈ word, isKernelPrinted c = true) ∧ (∀ c ∈ word, isWhitespace c = false) ∧
        41 ∉ word := by
    intro words mem
    rcases List.mem_map.mp mem with ⟨other, -, rfl⟩
    exact ⟨other.some, other.printed, other.solid, other.notParen⟩
  rcases List.mem_append.mp mem with front | later
  · exact others _ front
  · rcases List.mem_cons.mp later with rfl | back
    · have digits : ∀ c ∈ decimalDigits process.threads.toNat, isDecimal c = true :=
        isDecimal_of_mem
      refine ⟨decimalDigits_ne_nil _, fun c mem => isKernelPrinted_of_isDecimal (digits c mem),
        fun c mem => not_whitespace_of_isDecimal (digits c mem), fun mem => ?_⟩
      exact absurd (digits 41 mem) (by decide)
    · exact others _ back

theorem parseStat_content :
    parseStat (fileText (process.content .stat)) =
      some (fileText process.comm, process.statWords) := by
  have behind : ∀ c ∈ process.statWords.flatMap (32 :: ·) ++ [10],
      (c = 10 ∨ isKernelPrinted c = true) ∧ c ≠ 41 := by
    intro c mem
    rcases List.mem_append.mp mem with inside | newline
    · rcases List.mem_flatMap.mp inside with ⟨word, own, mem⟩
      rcases statWords_cases process own with ⟨-, printed, -, notParen⟩
      rcases List.mem_cons.mp mem with rfl | mem
      · exact ⟨.inr rfl, by decide⟩
      · exact ⟨.inr (printed c mem), fun same => notParen (same ▸ mem)⟩
    · rw [List.mem_singleton.mp newline]
      exact ⟨.inl rfl, by decide⟩
  have front : ∀ c ∈ process.folder ++ text " (", c = 10 ∨ isKernelPrinted c = true := by
    intro c mem
    rcases List.mem_append.mp mem with digit | paren
    · exact .inr (isKernelPrinted_of_isDecimal (isDecimal_of_mem c digit))
    · exact .inr (List.all_eq_true.mp (rfl : (text " (").all isKernelPrinted = true) c paren)
  have noParen : 40 ∉ process.folder ++ [32] := no_paren_of_numeral isDecimal_of_mem
  have spaced : (process.statWords.flatMap (32 :: ·) ++ [10]).head? = some (32 : CodePoint) := by
    have first : process.statFront ≠ [] := by
      rw [← List.length_pos_iff, process.seventeen]
      decide
    rw [KernelProcess.statWords]
    cases front : process.statFront with
    | nil => exact absurd front first
    | cons word words => rfl
  have words : splitWords (process.statWords.flatMap (32 :: ·) ++ [10]) = process.statWords :=
    splitWords_line (fun word mem => (statWords_cases process mem).2.2.1)
      fun word mem => (statWords_cases process mem).1
  have raw : fileText (process.content .stat) = (process.folder ++ [32]) ++
      40 :: (fileText process.comm ++ 41 :: (process.statWords.flatMap (32 :: ·) ++ [10])) := by
    rw [KernelProcess.content, fileText_between (encodable_of_printed front).1
      (encodable_of_printed front).2 (encodable_of_printed fun c mem => (behind c mem).1).1
      (encodable_of_printed fun c mem => (behind c mem).1).2]
    simp [text]
  rw [raw, parseStat_split noParen (fun mem => (behind 41 mem).2 rfl) _ spaced, words]

/-! ### Status -/

theorem printed_uidLine : ∀ c ∈ process.uidLine, isKernelPrinted c = true := by
  intro c mem
  rcases List.mem_append.mp mem with name | field
  · exact List.all_eq_true.mp (rfl : (text "Uid:").all isKernelPrinted = true) c name
  · rcases List.mem_flatMap.mp field with ⟨uid, -, mem⟩
    rcases List.mem_cons.mp mem with rfl | digit
    · rfl
    · exact isKernelPrinted_of_isDecimal (isDecimal_of_mem c digit)

theorem printed_rssLine (rssKb : UInt64) :
    ∀ c ∈ KernelProcess.rssLine rssKb, isKernelPrinted c = true := by
  intro c mem
  rcases List.mem_append.mp mem with front | unit
  · rcases List.mem_append.mp front with padded | digit
    · rcases List.mem_append.mp padded with name | padding
      · exact List.all_eq_true.mp (rfl : (text "VmRSS:\t").all isKernelPrinted = true) c name
      · rw [List.eq_of_mem_replicate padding]
        rfl
    · exact isKernelPrinted_of_isDecimal (isDecimal_of_mem c digit)
  · exact List.all_eq_true.mp (rfl : (text " kB").all isKernelPrinted = true) c unit

theorem printed_statusLines :
    ∀ line ∈ process.statusLines, ∀ c ∈ line, isKernelPrinted c = true := by
  have others : ∀ lines : List OtherLine, ∀ line ∈ lines.map OtherLine.line, ∀ c ∈ line,
      isKernelPrinted c = true := by
    intro lines line mem
    rcases List.mem_map.mp mem with ⟨other, -, rfl⟩
    exact other.printed
  intro line mem
  rcases List.mem_append.mp mem with front | later
  · exact others _ line front
  · rcases List.mem_cons.mp later with rfl | later
    · exact printed_uidLine process
    · rcases List.mem_append.mp later with later | back
      · rcases List.mem_append.mp later with middle | rss
        · exact others _ line middle
        · rcases Option.mem_map.mp (Option.mem_toList.mp rss) with ⟨rssKb, -, rfl⟩
          exact printed_rssLine rssKb
      · exact others _ line back

theorem toInt_decimalDigits {number : ℕ} (small : number < 10 ^ 20) :
    toInt (.string (decimalDigits number)) = .ok (number : ℤ) := by
  have short := (length_decimalDigits small).trans (by decide : 20 ≤ 4300)
  rw [toInt, intOfText_decimalDigits short]

theorem secondNumber_of_words {first rest : Text} {number : ℕ} (small : number < 10 ^ 20)
    (solid : ∀ c ∈ first, isWhitespace c = false) (some : first ≠ []) {spaces : Text}
    (each : ∀ c ∈ spaces, isWhitespace c = true) (apart : spaces ≠ [])
    (ends : ∀ c ∈ rest.head?, isWhitespace c = true) :
    secondNumber (first ++ (spaces ++ (decimalDigits number ++ rest))) = .ok (number : ℤ) := by
  have behindFirst : ∀ c ∈ (spaces ++ (decimalDigits number ++ rest)).head?,
      isWhitespace c = true := by
    cases spaces with
    | nil => exact absurd rfl apart
    | cons space spaces =>
        intro c mem
        cases mem
        exact each space List.mem_cons_self
  have digits : ∀ c ∈ decimalDigits number, isWhitespace c = false :=
    fun c mem => not_whitespace_of_isDecimal (isDecimal_of_mem c mem)
  rw [secondNumber, splitWords_word solid some behindFirst, splitWords_spaces each,
    splitWords_word digits (decimalDigits_ne_nil number) ends]
  exact toInt_decimalDigits small

theorem readStatusLine_other (fields : StatusFields) (other : OtherLine) :
    readStatusLine fields other.line = .ok fields := by
  rw [readStatusLine, other.notUid, other.notRss]
  rfl

theorem readStatusLine_uidLine (fields : StatusFields) :
    readStatusLine fields process.uidLine =
      .ok { fields with uid := some (process.uid.toNat : ℤ) } := by
  have isUid : isUidLine process.uidLine = true :=
    List.isPrefixOf_iff_prefix.mpr (List.prefix_append _ _)
  have small : process.uid.toNat < 10 ^ 20 := process.uid.toNat_lt.trans (by decide)
  have ends : ∀ c ∈ (process.otherUids.flatMap fun uid => 9 :: decimalDigits uid.toNat).head?,
      isWhitespace c = true := by
    intro c mem
    cases others : process.otherUids with
    | nil => simp [others] at mem
    | cons uid uids =>
        simp only [others, List.flatMap_cons, List.cons_append, List.head?_cons,
          Option.mem_some_iff] at mem
        subst mem
        rfl
  have solid : ∀ c ∈ text "Uid:", isWhitespace c = false := solid_of_all rfl
  have number : secondNumber process.uidLine = .ok (process.uid.toNat : ℤ) :=
    secondNumber_of_words small solid (List.cons_ne_nil _ _) (List.forall_mem_singleton.mpr rfl)
      (List.cons_ne_nil 9 []) ends
  rw [readStatusLine, if_pos isUid, number]
  rfl

theorem readStatusLine_rssLine (fields : StatusFields) (rssKb : UInt64) :
    readStatusLine fields (KernelProcess.rssLine rssKb) =
      .ok { fields with rssKb := (rssKb.toNat : ℤ) } := by
  have notUid : isUidLine (KernelProcess.rssLine rssKb) = false := rfl
  have isRss : isRssLine (KernelProcess.rssLine rssKb) = true := rfl
  have small : rssKb.toNat < 10 ^ 20 := rssKb.toNat_lt.trans (by decide)
  have solid : ∀ c ∈ text "VmRSS:", isWhitespace c = false := solid_of_all rfl
  have padding :
      ∀ c ∈ 9 :: List.replicate (8 - (decimalDigits rssKb.toNat).length) (32 : CodePoint),
        isWhitespace c = true := by
    refine List.forall_mem_cons.mpr ⟨rfl, fun c mem => ?_⟩
    rw [List.eq_of_mem_replicate mem]
    rfl
  have ends : ∀ c ∈ (text " kB").head?, isWhitespace c = true := by
    intro c mem
    cases mem
    rfl
  have cut : KernelProcess.rssLine rssKb = text "VmRSS:" ++
      (9 :: List.replicate (8 - (decimalDigits rssKb.toNat).length) 32 ++
        (decimalDigits rssKb.toNat ++ text " kB")) := by
    simp [KernelProcess.rssLine, text]
  have number : secondNumber (KernelProcess.rssLine rssKb) = .ok (rssKb.toNat : ℤ) := by
    rw [cut]
    exact secondNumber_of_words small solid (List.cons_ne_nil _ _) padding (List.cons_ne_nil _ _)
      ends
  rw [readStatusLine, notUid, isRss, number]
  rfl

/-- The kernel's own lines decide on the user, and on the memory where they name its size. -/
theorem foldlM_statusLines (fields : StatusFields) :
    process.statusLines.foldlM readStatusLine fields =
      .ok {
        uid := some (process.uid.toNat : ℤ)
        rssKb := process.rssKb.elim fields.rssKb fun rssKb => (rssKb.toNat : ℤ) } := by
  have others : ∀ (lines : List OtherLine) (fields : StatusFields),
      (lines.map OtherLine.line).foldlM readStatusLine fields = .ok fields := by
    intro lines fields
    apply foldlM_idle
    intro line mem
    rcases List.mem_map.mp mem with ⟨other, -, rfl⟩
    exact readStatusLine_other fields other
  simp only [KernelProcess.statusLines, List.foldlM_append, List.foldlM_cons, others, bind,
    Except.bind, readStatusLine_uidLine]
  cases process.rssKb with
  | none => rfl
  | some rssKb =>
      simp only [Option.map_some, Option.toList_some, List.foldlM_cons, readStatusLine_rssLine,
        bind, Except.bind, List.foldlM_nil, pure, Except.pure, Option.elim_some]

/-- Of a file that can be read, the name's part comes first. -/
theorem readStatus_content :
    readStatus (fileText (process.content .status)) =
      (nameLines process.comm).foldlM readStatusLine { uid := none, rssKb := 0 } >>= fun fields =>
        .ok {
          uid := some (process.uid.toNat : ℤ)
          rssKb := process.rssKb.elim fields.rssKb fun rssKb => (rssKb.toNat : ℤ) } := by
  have printed : ∀ c ∈ process.statusLines.flatMap (· ++ [10]),
      c = 10 ∨ isKernelPrinted c = true := by
    intro c mem
    rcases List.mem_flatMap.mp mem with ⟨line, own, mem⟩
    rcases List.mem_append.mp mem with inside | newline
    · exact .inr (printed_statusLines process line own c inside)
    · exact .inl (List.mem_singleton.mp newline)
  rcases encodable_of_printed printed with ⟨encodable, noReturn⟩
  have lines : splitlines (process.statusLines.flatMap (· ++ [10])) = process.statusLines :=
    splitlines_lines fun line own c mem =>
      inner_of_isKernelPrinted (printed_statusLines process line own c mem)
  have cut : splitlines (fileText (process.content .status)) =
      nameLines process.comm ++ process.statusLines := by
    rw [KernelProcess.content, nameLines, nameLine, fileText, fileText, List.append_assoc,
      List.singleton_append, splitlines_decoded _ encodable noReturn, lines]
  rw [readStatus, cut, List.foldlM_append]
  congr 1
  funext fields
  exact foldlM_statusLines process fields

end Files

end Ksnap.Panel
