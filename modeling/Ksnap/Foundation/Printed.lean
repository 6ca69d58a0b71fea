import Ksnap.Foundation.Scan
import Mathlib.Data.Nat.Digits.Lemmas

/-!
# Formatted output of the C library

Numbers and words as `printf` writes them, read again by `sscanf`, and the lines of a
text as `fgets` hands them out. A line that starts where the text starts or behind a
newline comes in a piece of its own, whose front is the front of the line.
-/

namespace Foundation

/-! ## Words -/

/-- A text without white space. -/
def IsWord (word : Bytes) : Prop :=
  word ≠ [] ∧ ∀ byte ∈ word, isSpace byte = false

/-- The text is at its end, or goes on with a byte of this kind. -/
def Starts (kind : UInt8 → Prop) (text : Bytes) : Prop :=
  ∀ byte ∈ text.head?, kind byte

theorem starts_cons {kind : UInt8 → Prop} {byte : UInt8} {rest : Bytes} (holds : kind byte) :
    Starts kind (byte :: rest) := by
  intro other first
  cases first
  exact holds

theorem takeWhile_of_starts {accepts : UInt8 → Bool} {word rest : Bytes}
    (all : ∀ byte ∈ word, accepts byte = true) (stops : Starts (accepts · = false) rest) :
    (word ++ rest).takeWhile accepts = word := by
  rw [List.takeWhile_append_of_pos all]
  cases rest with
  | nil => simp
  | cons byte rest =>
      have fails : accepts byte = false := stops byte rfl
      simp [fails]

theorem skipSpace_of_starts {text : Bytes} (visible : Starts (isSpace · = false) text) :
    skipSpace text = text := by
  cases text with
  | nil => rfl
  | cons byte rest => simp [skipSpace, visible byte rfl]

theorem skipSpace_append {blank rest : Bytes} (all : ∀ byte ∈ blank, isSpace byte = true) :
    skipSpace (blank ++ rest) = skipSpace rest :=
  List.dropWhile_append_of_pos all

theorem IsWord.starts {word : Bytes} (isWord : IsWord word) (rest : Bytes) :
    Starts (isSpace · = false) (word ++ rest) := by
  rcases isWord with ⟨nonempty, visible⟩
  cases word with
  | nil => exact absurd rfl nonempty
  | cons byte more =>
      intro other first
      cases first
      exact visible byte List.mem_cons_self

theorem IsWord.skipSpace {word : Bytes} (isWord : IsWord word) (rest : Bytes) :
    skipSpace (word ++ rest) = word ++ rest :=
  skipSpace_of_starts (isWord.starts rest)

section

variable {word rest : Bytes} {format : List Directive}

theorem IsWord.takeWhile (isWord : IsWord word) (blank : Starts (isSpace · = true) rest) :
    (word ++ rest).takeWhile (!isSpace ·) = word := by
  apply takeWhile_of_starts
  · intro byte mem
    simp [isWord.2 byte mem]
  · intro byte first
    simp [blank byte first]

/-- White space in a format skips up to the next word. -/
theorem sscanf_space (isWord : IsWord word) :
    sscanf (.space :: format) (32 :: (word ++ rest)) = sscanf format (word ++ rest) := by
  have skips : Foundation.skipSpace (32 :: (word ++ rest)) = word ++ rest :=
    (isWord.skipSpace rest :)
  rw [sscanf, skips]

theorem sscanf_word {width : ℕ} (isWord : IsWord word) (short : word.length ≤ width)
    (blank : Starts (isSpace · = true) rest) :
    sscanf (.word width :: format) (word ++ rest) = .text word :: sscanf format rest := by
  simp only [sscanf, isWord.skipSpace, isWord.takeWhile blank, List.take_of_length_le short,
    if_neg isWord.1, List.drop_left]

theorem sscanf_skipWord (isWord : IsWord word) (blank : Starts (isSpace · = true) rest) :
    sscanf (.skipWord :: format) (word ++ rest) = sscanf format rest := by
  simp only [sscanf, isWord.skipSpace, isWord.takeWhile blank, if_neg isWord.1, List.drop_left]

end

/-! ## Numbers -/

/-- A digit of base 16 or less, in lower case. -/
def printedDigit (digit : ℕ) : UInt8 :=
  if digit < 10 then .ofNat (48 + digit) else .ofNat (87 + digit)

/-- `%0*x` and `%0*u`: a number in a base, filled up with zeros to a width. -/
def printNumber (base width number : ℕ) : Bytes :=
  let digits := (Nat.digits base number).reverse.map printedDigit
  List.replicate (width - digits.length) 48 ++ digits

theorem scanSign_of_ne {first : UInt8} {rest : Bytes} (notMinus : first ≠ 45)
    (notPlus : first ≠ 43) : scanSign (first :: rest) = (false, first :: rest) := by
  rw [scanSign.eq_def]
  split
  · next same =>
    cases same
    exact absurd rfl notMinus
  · next same =>
    cases same
    exact absurd rfl notPlus
  · rfl

theorem skipHexPrefix_of_ne {base : ℕ} {first second : UInt8} {rest : Bytes}
    (notSmall : second ≠ 120) (notLarge : second ≠ 88) :
    skipHexPrefix base (first :: second :: rest) = first :: second :: rest := by
  rw [skipHexPrefix.eq_def]
  split
  · next same =>
    cases same
    exact absurd rfl notSmall
  · next same =>
    cases same
    exact absurd rfl notLarge
  · rfl

theorem printedDigit_spec : ∀ digit < 16,
    digitValue (printedDigit digit) = some digit ∧ isSpace (printedDigit digit) = false ∧
      printedDigit digit ≠ 45 ∧ printedDigit digit ≠ 43 ∧ printedDigit digit ≠ 120 ∧
        printedDigit digit ≠ 88 ∧ printedDigit digit ≠ 0 ∧ printedDigit digit ≠ 10 := by
  decide

section

variable {base width number : ℕ} (two_le : 2 ≤ base) (le_sixteen : base ≤ 16)

include two_le in
/-- Every byte of a printed number is a digit. -/
theorem exists_digit_of_mem {byte : UInt8} (mem : byte ∈ printNumber base width number) :
    ∃ digit < base, byte = printedDigit digit := by
  rcases List.mem_append.mp mem with zero | digit
  · exact ⟨0, by omega, List.eq_of_mem_replicate zero⟩
  · rcases List.mem_map.mp digit with ⟨value, valueMem, rfl⟩
    exact ⟨value, Nat.digits_lt_base two_le (List.mem_reverse.mp valueMem), rfl⟩

theorem length_printNumber : width ≤ (printNumber base width number).length := by
  simp only [printNumber, List.length_append, List.length_replicate]
  omega

include two_le in
theorem length_printNumber_le {count : ℕ} (le : width ≤ count) (lt : number < base ^ count) :
    (printNumber base width number).length ≤ count := by
  have digits := (Nat.digits_length_le_iff two_le number).mpr lt
  simp only [printNumber, List.length_append, List.length_replicate, List.length_map,
    List.length_reverse]
  omega

include two_le le_sixteen in
theorem isWord_printNumber (positive : 0 < width) : IsWord (printNumber base width number) := by
  constructor
  · exact List.ne_nil_of_length_pos (positive.trans_le length_printNumber)
  · intro byte mem
    rcases exists_digit_of_mem two_le mem with ⟨digit, lt, rfl⟩
    exact (printedDigit_spec digit (by omega)).2.1

theorem ofDigits_append_zeros (count : ℕ) (digits : Bytes) :
    ofDigits base (List.replicate count 48 ++ digits) = ofDigits base digits := by
  have zero : (digitValue 48).getD 0 = 0 := rfl
  induction count with
  | zero => rfl
  | succ count ih => simpa [ofDigits, List.replicate_succ, zero] using ih

theorem ofDigits_printedDigits {digits : List ℕ} (small : ∀ digit ∈ digits, digit < 16) :
    ofDigits base (digits.reverse.map printedDigit) = Nat.ofDigits base digits := by
  induction digits with
  | nil => rfl
  | cons digit digits ih =>
      have others := ih fun other mem => small other (List.mem_cons_of_mem _ mem)
      have value := (printedDigit_spec digit (small digit List.mem_cons_self)).1
      rw [Nat.ofDigits_cons, ← others]
      simp [ofDigits, value, Nat.mul_comm, Nat.add_comm]

include two_le le_sixteen in
theorem ofDigits_printNumber : ofDigits base (printNumber base width number) = number := by
  have small : ∀ digit ∈ Nat.digits base number, digit < 16 :=
    fun digit mem => (Nat.digits_lt_base two_le mem).trans_le le_sixteen
  rw [printNumber, ofDigits_append_zeros, ofDigits_printedDigits small, Nat.ofDigits_digits]

/-- A printed number is read again. With two digits or more none of them begins a prefix. -/
theorem scanInteger_printNumber {rest : Bytes} (wide : 1 < width) (lt : number < 2 ^ 64)
    (stops : Starts (isDigitOf 16 · = false) rest) :
    scanInteger 16 64 false (printNumber 16 width number ++ rest) = some (number, rest) := by
  have isWord : IsWord (printNumber 16 width number) :=
    isWord_printNumber (by decide) le_rfl (by omega)
  have digits : ∀ byte ∈ printNumber 16 width number, isDigitOf 16 byte = true := by
    intro byte mem
    rcases exists_digit_of_mem (by decide) mem with ⟨digit, lt, rfl⟩
    rw [isDigitOf, (printedDigit_spec digit lt).1]
    exact decide_eq_true lt
  have whole := takeWhile_of_starts digits stops
  have value : ofDigits 16 (printNumber 16 width number) = number :=
    ofDigits_printNumber (by decide) le_rfl
  have twoDigits : ∃ first second more, printNumber 16 width number = first :: second :: more := by
    have length := @length_printNumber 16 width number
    rcases printed : printNumber 16 width number with _ | ⟨first, _ | ⟨second, more⟩⟩
    · rw [printed, List.length_nil] at length
      omega
    · rw [printed, List.length_singleton] at length
      omega
    · exact ⟨first, second, more, rfl⟩
  rcases twoDigits with ⟨first, second, more, printed⟩
  have firstMem : first ∈ printNumber 16 width number := printed ▸ List.mem_cons_self
  have secondMem : second ∈ printNumber 16 width number :=
    printed ▸ List.mem_cons_of_mem _ List.mem_cons_self
  rcases exists_digit_of_mem (by decide) firstMem with ⟨digit, digitLt, rfl⟩
  rcases exists_digit_of_mem (by decide) secondMem with ⟨other, otherLt, rfl⟩
  have firstSpec := printedDigit_spec digit digitLt
  have secondSpec := printedDigit_spec other otherLt
  have noSign : scanSign (printNumber 16 width number ++ rest) =
      (false, printNumber 16 width number ++ rest) := by
    rw [printed]
    exact scanSign_of_ne firstSpec.2.2.1 firstSpec.2.2.2.1
  have noPrefix : skipHexPrefix 16 (printNumber 16 width number ++ rest) =
      printNumber 16 width number ++ rest := by
    rw [printed]
    exact skipHexPrefix_of_ne secondSpec.2.2.2.2.1 secondSpec.2.2.2.2.2.1
  simp only [scanInteger, isWord.skipSpace, noSign, noPrefix, whole, if_neg isWord.1, value,
    List.drop_left, toLong, Bool.false_eq_true, if_false, if_pos lt, Nat.mod_eq_of_lt lt]

end

theorem sscanf_number {width number : ℕ} {rest : Bytes} {format : List Directive}
    (wide : 1 < width) (lt : number < 2 ^ 64) (stops : Starts (isDigitOf 16 · = false) rest) :
    sscanf (.integer 16 64 false :: format) (printNumber 16 width number ++ rest) =
      .number number :: sscanf format rest := by
  rw [sscanf, scanInteger_printNumber wide lt stops]

theorem skipHexPrefix_decimal (input : Bytes) : skipHexPrefix 10 input = input := by
  rw [skipHexPrefix.eq_def]
  split <;> rfl

/-- A decimal number behind blanks is read, up to the byte behind it. -/
theorem scanInteger_decimal {bits number : ℕ} {signed : Bool} {blank rest : Bytes}
    (isBlank : ∀ byte ∈ blank, isSpace byte = true) (fits : toLong signed false number = number)
    (stops : Starts (isDigitOf 10 · = false) rest) :
    scanInteger 10 bits signed (blank ++ (printNumber 10 1 number ++ rest)) =
      some (number % 2 ^ bits, rest) := by
  have isWord : IsWord (printNumber 10 1 number) :=
    isWord_printNumber (by decide) (by decide) (by decide)
  have digits : ∀ byte ∈ printNumber 10 1 number, isDigitOf 10 byte = true := by
    intro byte mem
    rcases exists_digit_of_mem (by decide) mem with ⟨digit, lt, rfl⟩
    simp [isDigitOf, (printedDigit_spec digit (by omega)).1, lt]
  have whole : (printNumber 10 1 number ++ rest).takeWhile (isDigitOf 10) =
      printNumber 10 1 number := takeWhile_of_starts digits stops
  have noSign : scanSign (printNumber 10 1 number ++ rest) =
      (false, printNumber 10 1 number ++ rest) := by
    cases printed : printNumber 10 1 number with
    | nil => exact absurd printed isWord.1
    | cons first others =>
        have firstMem : first ∈ printNumber 10 1 number := printed ▸ List.mem_cons_self
        rcases exists_digit_of_mem (by decide) firstMem with ⟨digit, lt, rfl⟩
        have spec := printedDigit_spec digit (by omega)
        exact scanSign_of_ne spec.2.2.1 spec.2.2.2.1
  simp only [scanInteger, skipSpace_append isBlank, isWord.skipSpace, noSign,
    skipHexPrefix_decimal, whole, if_neg isWord.1, List.drop_left]
  rw [ofDigits_printNumber (by decide) (by decide), fits]

/-- A format starts with the text that the input starts with. -/
theorem sscanf_literals (word rest : Bytes) (format : List Directive) :
    sscanf (literals word ++ format) (word ++ rest) = sscanf format rest := by
  induction word with
  | nil => rfl
  | cons byte word ih =>
      rw [literals, List.map_cons, List.cons_append, List.cons_append, sscanf, if_pos rfl]
      exact ih

/-! ## Lines -/

theorem takeLine_append (room : ℕ) (text : Bytes) :
    (takeLine room text).1 ++ (takeLine room text).2 = text := by
  induction room generalizing text with
  | zero => rfl
  | succ room ih =>
      cases text with
      | nil => rfl
      | cons byte text =>
          rw [takeLine]
          split
          · rfl
          · exact congrArg (byte :: ·) (ih text)

/-- The pieces hold bytes of the text only. -/
theorem mem_of_mem_fgetsLines {size : ℕ} {text piece : Bytes} (mem : piece ∈ fgetsLines size text)
    {byte : UInt8} (inside : byte ∈ piece) : byte ∈ text := by
  suffices general : ∀ fuel text, piece ∈ fgetsLines.go size fuel text → byte ∈ text from
    general _ _ mem
  intro fuel
  induction fuel with
  | zero =>
      intro text mem
      cases text <;> cases mem
  | succ fuel ih =>
      intro text mem
      cases text with
      | nil => cases mem
      | cons first text =>
          rw [← takeLine_append (size - 1) (first :: text)]
          rcases List.mem_cons.mp mem with rfl | later
          · exact List.mem_append_left _ inside
          · exact List.mem_append_right _ (ih _ later)

/-- The text is empty or ends with a newline. -/
def EndsLine (text : Bytes) : Prop :=
  ∀ byte ∈ text.getLast?, byte = 10

/-- A line comes in a piece of its own, cut where the buffer is full. -/
theorem takeLine_of_line {body after : Bytes} (unbroken : 10 ∉ body) (room : ℕ) :
    takeLine room (body ++ 10 :: after) =
      ((body ++ [10]).take room, (body ++ [10]).drop room ++ after) := by
  induction body generalizing room with
  | nil => cases room <;> simp [takeLine]
  | cons byte body ih =>
      have notNewline : byte ≠ 10 := fun same => unbroken (same ▸ List.mem_cons_self)
      have later : 10 ∉ body := fun mem => unbroken (List.mem_cons_of_mem _ mem)
      cases room with
      | zero => simp [takeLine]
      | succ room => simp [takeLine, notNewline, ih later room]

/-- A piece of a text that ends with a newline stays within it, whatever follows. -/
theorem takeLine_of_endsLine {before : Bytes} (nonempty : before ≠ []) (ends : EndsLine before)
    (room : ℕ) :
    ∃ piece later, EndsLine later ∧ later.length < before.length ∧
      ∀ rest, takeLine (room + 1) (before ++ rest) = (piece, later ++ rest) := by
  induction before generalizing room with
  | nil => exact absurd rfl nonempty
  | cons byte before ih =>
      by_cases newline : byte = 10
      · refine ⟨[byte], before, ?_, by simp, by simp [takeLine, newline]⟩
        cases before with
        | nil => simp [EndsLine]
        | cons _ _ => simpa [EndsLine] using ends
      · have someLater : before ≠ [] := by
          intro none_
          subst none_
          exact newline (ends byte rfl)
        have endsLater : EndsLine before := by
          intro last isLast
          apply ends last
          rwa [List.getLast?_cons_of_ne_nil someLater]
        cases room with
        | zero =>
            refine ⟨[byte], before, endsLater, by simp, ?_⟩
            simp [takeLine, newline]
        | succ room =>
            rcases ih someLater endsLater room with ⟨piece, later, laterEnds, shorter, takes⟩
            refine ⟨byte :: piece, later, laterEnds, by simp; omega, fun rest => ?_⟩
            rw [List.cons_append, takeLine, if_neg newline, takes]

theorem length_takeLine_snd (room : ℕ) (byte : UInt8) (text : Bytes) :
    (takeLine (room + 1) (byte :: text)).2.length ≤ text.length := by
  induction room generalizing byte text with
  | zero =>
      rw [takeLine]
      split
      · exact le_rfl
      · exact le_rfl
  | succ room ih =>
      rw [takeLine]
      split
      · exact le_rfl
      · cases text with
        | nil => exact le_rfl
        | cons next text => exact (ih next text).trans (Nat.le_succ _)

/-- Enough fuel gives one result. -/
theorem fgetsLines_go {size fuel : ℕ} {text : Bytes} (enough : text.length ≤ fuel) :
    fgetsLines.go (size + 2) fuel text = fgetsLines (size + 2) text := by
  suffices same : ∀ more, text.length ≤ more →
      fgetsLines.go (size + 2) fuel text = fgetsLines.go (size + 2) more text from
    same text.length le_rfl
  induction fuel generalizing text with
  | zero =>
      intro more _
      cases List.length_eq_zero_iff.mp (Nat.le_zero.mp enough)
      cases more <;> rfl
  | succ fuel ih =>
      intro more other
      cases text with
      | nil => cases more <;> rfl
      | cons byte text =>
          have shorter := length_takeLine_snd size byte text
          rw [List.length_cons] at enough other
          cases more with
          | zero => omega
          | succ more =>
              have later := ih (shorter.trans (by omega)) more (shorter.trans (by omega))
              simp only [fgetsLines.go, Nat.add_one_sub_one, later]

theorem fgetsLines_cons (size : ℕ) (byte : UInt8) (text : Bytes) :
    fgetsLines (size + 2) (byte :: text) = (takeLine (size + 1) (byte :: text)).1 ::
      fgetsLines (size + 2) (takeLine (size + 1) (byte :: text)).2 := by
  rw [← fgetsLines_go (length_takeLine_snd size byte text)]
  rfl

/-- Pieces do not go over the end of a line. -/
theorem fgetsLines_append {before : Bytes} (ends : EndsLine before) (size : ℕ) (rest : Bytes) :
    fgetsLines (size + 2) (before ++ rest) =
      fgetsLines (size + 2) before ++ fgetsLines (size + 2) rest := by
  induction length : before.length using Nat.strong_induction_on generalizing before with
  | _ count ih =>
      cases before with
      | nil => rfl
      | cons byte text =>
          rcases takeLine_of_endsLine (List.cons_ne_nil byte text) ends size with
            ⟨piece, later, laterEnds, shorter, takes⟩
          have alone := takes []
          have followed := takes rest
          rw [List.append_nil, List.append_nil] at alone
          rw [List.cons_append] at followed ⊢
          rw [fgetsLines_cons, followed, fgetsLines_cons, alone,
            ih later.length (length ▸ shorter) laterEnds rfl, List.cons_append]

/-- A line in front of a text is a piece, then what is left of it, then the text. -/
theorem fgetsLines_line {body after : Bytes} (unbroken : 10 ∉ body) (size : ℕ) :
    fgetsLines (size + 2) (body ++ 10 :: after) = (body ++ [10]).take (size + 1) ::
      (fgetsLines (size + 2) ((body ++ [10]).drop (size + 1)) ++ fgetsLines (size + 2) after) := by
  have ends : EndsLine ((body ++ [10]).drop (size + 1)) := by
    intro last isLast
    rw [List.getLast?_drop] at isLast
    split at isLast
    · cases isLast
    · simpa using isLast.symm
  rw [← fgetsLines_append ends]
  rcases whole : body ++ 10 :: after with _ | ⟨byte, text⟩
  · simp at whole
  · rw [fgetsLines_cons, ← whole, takeLine_of_line unbroken]

/-- A line behind a newline is one of the pieces, cut where the buffer is full. -/
theorem mem_fgetsLines {before body after : Bytes} (ends : EndsLine before)
    (unbroken : 10 ∉ body) (size : ℕ) :
    (body ++ [10]).take (size + 1) ∈ fgetsLines (size + 2) (before ++ (body ++ 10 :: after)) := by
  rw [fgetsLines_append ends, fgetsLines_line unbroken]
  exact List.mem_append_right _ List.mem_cons_self

end Foundation
