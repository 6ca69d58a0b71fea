import Ksnap.Foundation.Codec
import Mathlib.Data.List.TakeWhile

/-!
# Formatted input of the C library

`fgets`, `atoi` and the part of `sscanf` that reads words and integers, on byte
sequences. A format is a list of directives and a scan returns the fields it
assigned, in order, so the number of fields is what `sscanf` returns. The scan
stops at the first directive that does not match, with the fields so far.

The main fact is `sscanf_fits`: whatever the input, every field has the form its
directive promises.
-/

namespace Foundation

/-! ## Characters and strings -/

/-- The bytes of an ASCII string literal. -/
def ascii (text : String) : Bytes :=
  text.toList.map fun character => UInt8.ofNat character.toNat

/-- `isspace` in the C locale. -/
def isSpace (byte : UInt8) : Bool :=
  byte == 32 || (9 ≤ byte && byte ≤ 13)

/-- The value of a digit, up to base 16. -/
def digitValue (byte : UInt8) : Option ℕ :=
  if 48 ≤ byte && byte ≤ 57 then some (byte.toNat - 48)
  else if 97 ≤ byte && byte ≤ 102 then some (byte.toNat - 87)
  else if 65 ≤ byte && byte ≤ 70 then some (byte.toNat - 55)
  else none

/-- A digit of the base. -/
def isDigitOf (base : ℕ) (byte : UInt8) : Bool :=
  match digitValue byte with
  | some value => value < base
  | none => false

/-- The number that a sequence of digits denotes. -/
def ofDigits (base : ℕ) (digits : Bytes) : ℕ :=
  digits.foldl (fun number byte => number * base + (digitValue byte).getD 0) 0

def skipSpace (input : Bytes) : Bytes :=
  input.dropWhile isSpace

/-- The bytes of a C string, up to its terminator. -/
def cString (raw : Bytes) : Bytes :=
  raw.takeWhile (· ≠ 0)

/-- `strncmp(text, start, strlen(start)) == 0`. -/
def startsWith (text start : Bytes) : Bool :=
  start.isPrefixOf text

theorem zero_notMem_cString (raw : Bytes) : 0 ∉ cString raw := by
  intro mem
  simpa using List.mem_takeWhile_imp mem

theorem cString_of_notMem {raw : Bytes} (nulFree : 0 ∉ raw) : cString raw = raw := by
  rw [cString, List.takeWhile_eq_self_iff]
  intro byte mem
  simpa using fun zero : byte = 0 => nulFree (zero ▸ mem)

/-- A terminated string ends at its terminator, whatever follows it. -/
theorem cString_append_zero {text : Bytes} (nulFree : 0 ∉ text) (rest : Bytes) :
    cString (text ++ 0 :: rest) = text := by
  rw [cString, List.takeWhile_append_of_pos]
  · simp
  · intro byte mem
    simpa using fun zero : byte = 0 => nulFree (zero ▸ mem)

/-! ## Integers -/

/-- The sign of a number, and what follows it. -/
def scanSign : Bytes → Bool × Bytes
  | 45 :: rest => (true, rest)
  | 43 :: rest => (false, rest)
  | input => (false, input)

/-- The prefix `0x` that base 16 allows in front of the digits. -/
def skipHexPrefix (base : ℕ) : Bytes → Bytes
  | 48 :: 120 :: rest => if base = 16 then rest else 48 :: 120 :: rest
  | 48 :: 88 :: rest => if base = 16 then rest else 48 :: 88 :: rest
  | input => input

/-- `strtoul` and `strtol` on 64 bits, as the bits of the result: out of range values
are cut to the limits of the type. -/
def toLong (signed negative : Bool) (magnitude : ℕ) : ℕ :=
  if signed then
    if negative then 2 ^ 64 - min magnitude (2 ^ 63) else min magnitude (2 ^ 63 - 1)
  else if magnitude < 2 ^ 64 then
    if negative then 2 ^ 64 - magnitude else magnitude
  else 2 ^ 64 - 1

/-- An integer in the base, stored into so many bits, and the rest of the input. -/
def scanInteger (base bits : ℕ) (signed : Bool) (input : Bytes) : Option (ℕ × Bytes) :=
  let (negative, unsignedPart) := scanSign (skipSpace input)
  let digitsOn := skipHexPrefix base unsignedPart
  let digits := digitsOn.takeWhile (isDigitOf base)
  if digits = [] then none
  else
    some (toLong signed negative (ofDigits base digits) % 2 ^ bits,
      digitsOn.drop digits.length)

/-- `isdigit` in the C locale. -/
def isDigit (byte : UInt8) : Bool :=
  isDigitOf 10 byte

/-- `atoi`, as the bits of the result: 0 when there is no number. -/
def atoi (text : Bytes) : Int32 :=
  match scanInteger 10 32 true (cString text) with
  | some (bits, _) => (UInt32.ofNat bits).toInt32
  | none => 0

theorem digitValue_lt_of_isDigit {byte : UInt8} (digit : isDigit byte = true) :
    (digitValue byte).getD 0 < 10 := by
  rw [isDigit, isDigitOf] at digit
  cases value : digitValue byte with
  | none => exact Nat.succ_pos 9
  | some number =>
      rw [value] at digit
      exact of_decide_eq_true digit

theorem ofDigits_lt {digits : Bytes} (decimals : ∀ byte ∈ digits, isDigit byte = true) :
    ofDigits 10 digits < 10 ^ digits.length := by
  have fromStart : ∀ start, digits.foldl
      (fun number byte => number * 10 + (digitValue byte).getD 0) start <
        (start + 1) * 10 ^ digits.length := by
    induction digits with
    | nil => simp
    | cons byte digits ih =>
        intro start
        have first := digitValue_lt_of_isDigit (decimals byte List.mem_cons_self)
        have others := ih (fun other mem => decimals other (List.mem_cons_of_mem _ mem))
          (start * 10 + (digitValue byte).getD 0)
        refine others.trans_le ?_
        rw [List.length_cons, pow_succ', ← Nat.mul_assoc]
        exact Nat.mul_le_mul_right _ (by omega)
  simpa [ofDigits] using fromStart 0

theorem isDigit_bounds {byte : UInt8} (digit : isDigit byte = true) :
    48 ≤ byte.toNat ∧ byte.toNat ≤ 57 := by
  rw [isDigit, isDigitOf, digitValue] at digit
  by_cases decimal : (48 ≤ byte && byte ≤ 57) = true
  · simpa [UInt8.le_iff_toNat_le] using decimal
  · rw [if_neg decimal] at digit
    by_cases lower : (97 ≤ byte && byte ≤ 102) = true
    · rw [if_pos lower] at digit
      simp only [Bool.and_eq_true, decide_eq_true_eq, UInt8.le_iff_toNat_le] at lower digit
      have letter : (97 : UInt8).toNat = 97 := rfl
      omega
    · rw [if_neg lower] at digit
      by_cases upper : (65 ≤ byte && byte ≤ 70) = true
      · rw [if_pos upper] at digit
        simp only [Bool.and_eq_true, decide_eq_true_eq, UInt8.le_iff_toNat_le] at upper digit
        have letter : (65 : UInt8).toNat = 65 := rfl
        omega
      · rw [if_neg upper] at digit
        exact absurd digit Bool.false_ne_true

/-- A decimal number without a sign in front. -/
theorem scanInteger_digits {digits : Bytes} (nonempty : digits ≠ [])
    (decimals : ∀ byte ∈ digits, isDigit byte = true) (bits : ℕ) :
    scanInteger 10 bits true digits =
      some (toLong true false (ofDigits 10 digits) % 2 ^ bits, []) := by
  have whole : digits.takeWhile (isDigitOf 10) = digits :=
    List.takeWhile_eq_self_iff.mpr decimals
  have noPrefix : skipHexPrefix 10 digits = digits := by
    rw [skipHexPrefix.eq_def]
    split <;> rfl
  cases digits with
  | nil => exact absurd rfl nonempty
  | cons first rest =>
      have bounds := isDigit_bounds (decimals first List.mem_cons_self)
      have notSpace : isSpace first = false := by
        have space : (13 : UInt8).toNat = 13 := rfl
        have blank : first ≠ 32 := by
          rintro rfl
          exact absurd bounds.1 (by decide)
        simp only [isSpace, Bool.or_eq_false_iff, beq_eq_false_iff_ne, Bool.and_eq_false_iff,
          decide_eq_false_iff_not, UInt8.le_iff_toNat_le]
        exact ⟨blank, .inr (by omega)⟩
      have noSpace : skipSpace (first :: rest) = first :: rest := by
        rw [skipSpace, List.dropWhile_cons_of_neg (by simp [notSpace])]
      have noSign : scanSign (first :: rest) = (false, first :: rest) := by
        rw [scanSign.eq_def]
        split
        · next same =>
          cases same
          exact absurd bounds.1 (by decide)
        · next same =>
          cases same
          exact absurd bounds.1 (by decide)
        · rfl
      simp only [scanInteger, noSpace, noSign, noPrefix, whole]
      rw [if_neg nonempty, List.drop_length]

/-- `atoi` of few digits is not negative. -/
theorem atoi_ne_neg_one {digits : Bytes} (short : digits.length ≤ 7)
    (decimals : ∀ byte ∈ digits, isDigit byte = true) : atoi digits ≠ -1 := by
  have noNul : 0 ∉ digits := fun mem => absurd (decimals 0 mem) (by decide)
  rw [atoi, cString_of_notMem noNul]
  by_cases nonempty : digits = []
  · subst nonempty
    decide
  · rw [scanInteger_digits nonempty decimals]
    have bound : ofDigits 10 digits < 10 ^ 7 :=
      (ofDigits_lt decimals).trans_le (Nat.pow_le_pow_right (by decide) short)
    have same : toLong true false (ofDigits 10 digits) % 2 ^ 32 = ofDigits 10 digits := by
      simp only [toLong, if_true, Bool.false_eq_true, if_false]
      omega
    rw [same]
    intro isMinusOne
    have bits : UInt32.ofNat (ofDigits 10 digits) = 4294967295 :=
      congrArg Int32.toUInt32 isMinusOne
    have number := congrArg UInt32.toNat bits
    rw [UInt32.toNat_ofNat', Nat.mod_eq_of_lt (by omega)] at number
    have whole : (4294967295 : UInt32).toNat = 4294967295 := rfl
    omega

/-! ## sscanf -/

/-- One directive of a format. -/
inductive Directive where
  /-- An ordinary character, which matches itself. -/
  | literal (byte : UInt8)
  /-- White space, which matches any amount of it. -/
  | space
  /-- An integer conversion such as `%lx`, `%u`, `%d` or `%o`. -/
  | integer (base bits : ℕ) (signed : Bool)
  /-- `%Ns`, a word of at most so many bytes. -/
  | word (width : ℕ)
  /-- `%*s`, a word that is not assigned. -/
  | skipWord
  /-- `%c`, one byte of any kind. -/
  | char
  /-- `%N[^\n]`, the rest of the line, at most so many bytes. -/
  | line (width : ℕ)
  deriving DecidableEq

/-- What a directive assigned. -/
inductive Field where
  | number (value : ℕ)
  | text (value : Bytes)
  deriving DecidableEq

/-- The text of an ordinary part of a format. -/
def literals (text : Bytes) : List Directive :=
  text.map .literal

def sscanf : List Directive → Bytes → List Field
  | [], _ => []
  | .literal byte :: format, input =>
      match input with
      | first :: rest => if first = byte then sscanf format rest else []
      | [] => []
  | .space :: format, input => sscanf format (skipSpace input)
  | .integer base bits signed :: format, input =>
      match scanInteger base bits signed input with
      | some (value, rest) => .number value :: sscanf format rest
      | none => []
  | .word width :: format, input =>
      let wordOn := skipSpace input
      let value := (wordOn.takeWhile (!isSpace ·)).take width
      if value = [] then [] else .text value :: sscanf format (wordOn.drop value.length)
  | .skipWord :: format, input =>
      let wordOn := skipSpace input
      let value := wordOn.takeWhile (!isSpace ·)
      if value = [] then [] else sscanf format (wordOn.drop value.length)
  | .char :: format, input =>
      match input with
      | first :: rest => .text [first] :: sscanf format rest
      | [] => []
  | .line width :: format, input =>
      let value := (input.takeWhile (· ≠ 10)).take width
      if value = [] then [] else .text value :: sscanf format (input.drop value.length)

/-- The form of the field that a directive assigns. -/
def Directive.Fits : Directive → Field → Prop
  | .integer _ bits _, .number value => value < 2 ^ bits
  | .word width, .text value =>
      value ≠ [] ∧ value.length ≤ width ∧ 0 ∉ value ∧ ∀ byte ∈ value, isSpace byte = false
  | .char, .text value => value.length = 1
  | .line width, .text value => value ≠ [] ∧ value.length ≤ width ∧ 0 ∉ value
  | _, _ => False

def Directive.assigns : Directive → Bool
  | .literal _ | .space | .skipWord => false
  | .integer .. | .word _ | .char | .line _ => true

/-- The fields fit the assigning directives of a format, from the first one on. -/
def FieldsFit : List Directive → List Field → Prop
  | _, [] => True
  | [], _ :: _ => False
  | directive :: format, field :: fields =>
      if directive.assigns then directive.Fits field ∧ FieldsFit format fields
      else FieldsFit format (field :: fields)

theorem fieldsFit_skip {directive : Directive} {format : List Directive} {fields : List Field}
    (skips : directive.assigns = false) (fit : FieldsFit format fields) :
    FieldsFit (directive :: format) fields := by
  cases fields with
  | nil => simp [FieldsFit]
  | cons field fields => simpa [FieldsFit, skips] using fit

theorem fieldsFit_nil (format : List Directive) : FieldsFit format [] := by
  cases format <;> simp [FieldsFit]

section

variable {input : Bytes}

theorem zero_notMem_skipSpace (nulFree : 0 ∉ input) : 0 ∉ skipSpace input :=
  fun mem => nulFree ((List.dropWhile_sublist _).subset mem)

theorem zero_notMem_drop (nulFree : 0 ∉ input) (count : ℕ) : 0 ∉ input.drop count :=
  fun mem => nulFree (List.mem_of_mem_drop mem)

theorem zero_notMem_scanSign (nulFree : 0 ∉ input) : 0 ∉ (scanSign input).2 := by
  unfold scanSign
  split <;> simp_all

theorem zero_notMem_skipHexPrefix (nulFree : 0 ∉ input) (base : ℕ) :
    0 ∉ skipHexPrefix base input := by
  unfold skipHexPrefix
  split
  · split <;> simp_all
  · split <;> simp_all
  · exact nulFree

theorem scanInteger_spec {base bits : ℕ} {signed : Bool} {value : ℕ} {rest : Bytes}
    (scanned : scanInteger base bits signed input = some (value, rest)) :
    value < 2 ^ bits ∧ (0 ∉ input → 0 ∉ rest) := by
  simp only [scanInteger] at scanned
  split at scanned
  · cases scanned
  · simp only [Option.some.injEq, Prod.mk.injEq] at scanned
    rcases scanned with ⟨rfl, rfl⟩
    refine ⟨Nat.mod_lt _ (Nat.two_pow_pos bits), fun nulFree => ?_⟩
    exact zero_notMem_drop (zero_notMem_skipHexPrefix
      (zero_notMem_scanSign (zero_notMem_skipSpace nulFree)) base) _

/-- Every field of a scan has the form that its directive promises. -/
theorem sscanf_fits (format : List Directive) (nulFree : 0 ∉ input) :
    FieldsFit format (sscanf format input) := by
  induction format generalizing input with
  | nil => simp [sscanf, FieldsFit]
  | cons directive format ih =>
      cases directive with
      | literal byte =>
          apply fieldsFit_skip rfl
          cases input with
          | nil => exact fieldsFit_nil format
          | cons first rest =>
              simp only [sscanf]
              split
              · exact ih (by simp_all)
              · exact fieldsFit_nil format
      | space => exact fieldsFit_skip rfl (ih (zero_notMem_skipSpace nulFree))
      | skipWord =>
          apply fieldsFit_skip rfl
          simp only [sscanf]
          split
          · exact fieldsFit_nil format
          · exact ih (zero_notMem_drop (zero_notMem_skipSpace nulFree) _)
      | integer base bits signed =>
          simp only [sscanf]
          split
          · rename_i value rest scanned
            have spec := scanInteger_spec scanned
            exact ⟨spec.1, ih (spec.2 nulFree)⟩
          · exact fieldsFit_nil _
      | word width =>
          simp only [sscanf]
          split
          · exact fieldsFit_nil _
          · rename_i nonempty
            refine ⟨⟨nonempty, List.length_take_le _ _, ?_, ?_⟩,
              ih (zero_notMem_drop (zero_notMem_skipSpace nulFree) _)⟩
            · intro mem
              exact zero_notMem_skipSpace nulFree
                ((List.takeWhile_sublist _).subset (List.mem_of_mem_take mem))
            · intro byte mem
              simpa using List.mem_takeWhile_imp (List.mem_of_mem_take mem)
      | char =>
          cases input with
          | nil => exact fieldsFit_nil _
          | cons first rest => exact ⟨rfl, ih (by simp_all)⟩
      | line width =>
          simp only [sscanf]
          split
          · exact fieldsFit_nil _
          · rename_i nonempty
            refine ⟨⟨nonempty, List.length_take_le _ _, ?_⟩, ih (zero_notMem_drop nulFree _)⟩
            intro mem
            exact nulFree ((List.takeWhile_sublist _).subset (List.mem_of_mem_take mem))

end

/-! ## fgets -/

/-- One line of at most `room` bytes with its newline, and the rest of the text. -/
def takeLine : ℕ → Bytes → Bytes × Bytes
  | 0, text => ([], text)
  | _ + 1, [] => ([], [])
  | room + 1, byte :: text =>
      if byte = 10 then ([byte], text)
      else
        let (line, rest) := takeLine room text
        (byte :: line, rest)

/-- The pieces that repeated calls of `fgets` return, with a buffer of so many bytes.
A line that does not fit comes in several pieces. -/
def fgetsLines (size : ℕ) (text : Bytes) : List Bytes :=
  go text.length text
where
  /-- Every piece takes at least one byte, so the length of the text is enough fuel. -/
  go : ℕ → Bytes → List Bytes
  | _, [] => []
  | 0, _ => []
  | fuel + 1, text =>
      let (line, rest) := takeLine (size - 1) text
      line :: go fuel rest

end Foundation
