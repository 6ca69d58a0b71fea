import Ksnap.Foundation.Codec
import Mathlib.Data.List.DropRight

/-!
# Text

A Python string is a sequence of code points, lone surrogates among them. Here are
the operations of `str` that the panel uses, and UTF-8 in both directions. The
decoder cuts its input into the longest well formed starts, as Python does, and
marks every piece that is no character: a strict reader refuses such input, and
one with replacement puts U+FFFD there.

The main fact is `decodeStrict_utf8`: text without surrogates is read back from
its bytes.
-/

namespace Foundation

abbrev CodePoint : Type := Fin 0x110000

/-- There are code points, so a literal can be one. -/
instance neZero_codePoints : NeZero 0x110000 := ⟨by decide⟩

instance lawfulBEq_codePoint : LawfulBEq CodePoint := inferInstance

abbrev Text : Type := List CodePoint

instance lawfulBEq_text : LawfulBEq Text := inferInstance

/-- The code point with this number. -/
abbrev codePoint (number : ℕ) : CodePoint := Fin.ofNat 0x110000 number

/-- The text of a string literal. -/
def text (literal : String) : Text :=
  literal.toList.map fun character => codePoint character.toNat

/-! ## Operations of `str` -/

/-- `str.isspace` of one character. -/
def isWhitespace (c : CodePoint) : Bool :=
  (9 ≤ c.val && c.val ≤ 13) || (0x1C ≤ c.val && c.val ≤ 0x20) || c.val == 0x85 || c.val == 0xA0 ||
    c.val == 0x1680 || (0x2000 ≤ c.val && c.val ≤ 0x200A) || c.val == 0x2028 || c.val == 0x2029 ||
    c.val == 0x202F || c.val == 0x205F || c.val == 0x3000

/-- `str.strip()` -/
def strip (value : Text) : Text :=
  (value.dropWhile isWhitespace).rdropWhile isWhitespace

/-- `str.endswith(suffix)` -/
def endsWith (value ending : Text) : Bool :=
  ending.isSuffixOf value

/-- The characters at which `str.splitlines` breaks a line. -/
def isLineBoundary (c : CodePoint) : Bool :=
  (10 ≤ c.val && c.val ≤ 13) || (0x1C ≤ c.val && c.val ≤ 0x1E) || c.val == 0x85 ||
    c.val == 0x2028 || c.val == 0x2029

/-- The line in front of some others gets one more character at its start. -/
def putOnFirst (c : CodePoint) : List Text → List Text
  | [] => [[c]]
  | line :: lines => (c :: line) :: lines

/-- `str.splitlines()`: a boundary ends a line, and `\r\n` is one boundary. -/
def splitlines : Text → List Text
  | [] => []
  | 13 :: 10 :: rest => [] :: splitlines rest
  | c :: rest => if isLineBoundary c then [] :: splitlines rest else putOnFirst c (splitlines rest)

/-- `.replace("\r\n", "\n").replace("\r", "\n")`, the newlines of a text stream. -/
def universalNewlines : Text → Text
  | [] => []
  | 13 :: 10 :: rest => 10 :: universalNewlines rest
  | c :: rest => (if c = 13 then 10 else c) :: universalNewlines rest

/-! ## Encoding -/

def isSurrogate (c : CodePoint) : Bool :=
  0xD800 ≤ c.val && c.val ≤ 0xDFFF

/-- A text that UTF-8 can hold. -/
def Encodable (value : Text) : Prop :=
  ∀ c ∈ value, isSurrogate c = false

/-- The UTF-8 bytes of a character. -/
def utf8Char (c : CodePoint) : Bytes :=
  if c.val < 0x80 then [.ofNat c.val]
  else if c.val < 0x800 then [.ofNat (0xC0 + c.val / 64), .ofNat (0x80 + c.val % 64)]
  else if c.val < 0x10000 then
    [.ofNat (0xE0 + c.val / 4096), .ofNat (0x80 + c.val / 64 % 64), .ofNat (0x80 + c.val % 64)]
  else
    [.ofNat (0xF0 + c.val / 262144), .ofNat (0x80 + c.val / 4096 % 64),
      .ofNat (0x80 + c.val / 64 % 64), .ofNat (0x80 + c.val % 64)]

def utf8 (value : Text) : Bytes :=
  value.flatMap utf8Char

/-- `os.fsencode` of a character: a byte that was no UTF-8 comes as a surrogate of its own. -/
def fsEncodeChar (c : CodePoint) : Option Bytes :=
  if 0xDC80 ≤ c.val ∧ c.val ≤ 0xDCFF then some [.ofNat (c.val - 0xDC00)]
  else if isSurrogate c then none
  else some (utf8Char c)

/-- `os.fsencode` -/
def fsEncode (value : Text) : Option Bytes :=
  (value.mapM fsEncodeChar).map List.flatten

/-! ## Decoding -/

/-- What a character that has begun still needs: the range of its next byte, how many
come after that one, and the bits so far. -/
structure Pending where
  low : ℕ
  high : ℕ
  later : ℕ
  bits : ℕ

/-- The start of a character: a whole one, a pending one, or none at all. -/
def beginChar (byte : ℕ) : Option CodePoint ⊕ Pending :=
  if byte < 0x80 then .inl (some (codePoint byte))
  else if byte < 0xC2 then .inl none
  else if byte < 0xE0 then .inr { low := 0x80, high := 0xBF, later := 0, bits := byte - 0xC0 }
  else if byte < 0xF0 then
    .inr { low := if byte = 0xE0 then 0xA0 else 0x80, high := if byte = 0xED then 0x9F else 0xBF,
           later := 1, bits := byte - 0xE0 }
  else if byte < 0xF5 then
    .inr { low := if byte = 0xF0 then 0x90 else 0x80, high := if byte = 0xF4 then 0x8F else 0xBF,
           later := 2, bits := byte - 0xF0 }
  else .inl none

/-- The next byte of a pending character that fits it. -/
def Pending.advance (pending : Pending) (byte : ℕ) : Option CodePoint ⊕ Pending :=
  let bits := pending.bits * 64 + (byte - 0x80)
  match pending.later with
  | 0 => .inl (some (codePoint bits))
  | later + 1 => .inr { low := 0x80, high := 0xBF, later := later, bits := bits }

/-- The characters of a byte sequence, with `none` for every piece that is no character.
A byte that does not fit the pending character begins the next one. -/
def decodeFrom : Option Pending → Bytes → List (Option CodePoint)
  | none, [] => []
  | some _, [] => [none]
  | none, byte :: rest =>
      match beginChar byte.toNat with
      | .inl unit => unit :: decodeFrom none rest
      | .inr pending => decodeFrom (some pending) rest
  | some pending, byte :: rest =>
      if pending.low ≤ byte.toNat ∧ byte.toNat ≤ pending.high then
        match pending.advance byte.toNat with
        | .inl unit => unit :: decodeFrom none rest
        | .inr next => decodeFrom (some next) rest
      else
        match beginChar byte.toNat with
        | .inl unit => none :: unit :: decodeFrom none rest
        | .inr next => none :: decodeFrom (some next) rest

/-- `bytes.decode("utf-8")`, which refuses malformed input. -/
def decodeStrict (bytes : Bytes) : Option Text :=
  (decodeFrom none bytes).mapM id

/-- `bytes.decode("utf-8", "replace")` -/
def decodeReplace (bytes : Bytes) : Text :=
  (decodeFrom none bytes).map fun unit => unit.getD 0xFFFD

theorem decodeFrom_utf8Char {c : CodePoint} (scalar : isSurrogate c = false) (rest : Bytes) :
    decodeFrom none (utf8Char c ++ rest) = some c :: decodeFrom none rest := by
  have bound := c.isLt
  rw [isSurrogate, Bool.and_eq_false_iff, decide_eq_false_iff_not, decide_eq_false_iff_not]
    at scalar
  have whole : ∀ number, number = c.val → codePoint number = c := by
    intro number same
    apply Fin.ext
    simp only [Fin.ofNat, same]
    exact Nat.mod_eq_of_lt bound
  have toNat : ∀ number, number < 256 → (UInt8.ofNat number).toNat = number := by
    intro number small
    simp [Nat.mod_eq_of_lt small]
  rw [utf8Char]
  split
  · next ascii =>
    simp only [List.cons_append, List.nil_append, decodeFrom, toNat c.val (by omega), beginChar,
      if_pos ascii, whole c.val rfl]
  split
  · next notOne two =>
    simp only [List.cons_append, List.nil_append, decodeFrom, toNat (0xC0 + c.val / 64) (by omega),
      toNat (0x80 + c.val % 64) (by omega), beginChar, Pending.advance]
    rw [if_neg (by omega), if_neg (by omega), if_pos (by omega)]
    dsimp only
    rw [if_pos (by omega), whole _ (by omega)]
  split
  · next notTwo three =>
    simp only [List.cons_append, List.nil_append, decodeFrom,
      toNat (0xE0 + c.val / 4096) (by omega), toNat (0x80 + c.val / 64 % 64) (by omega),
      toNat (0x80 + c.val % 64) (by omega), beginChar, Pending.advance]
    rw [if_neg (by omega), if_neg (by omega), if_neg (by omega), if_pos (by omega)]
    dsimp only
    rw [if_pos (by split <;> split <;> omega)]
    rw [if_pos (by omega), whole _ (by omega)]
  · next notThree =>
    simp only [List.cons_append, List.nil_append, decodeFrom,
      toNat (0xF0 + c.val / 262144) (by omega), toNat (0x80 + c.val / 4096 % 64) (by omega),
      toNat (0x80 + c.val / 64 % 64) (by omega), toNat (0x80 + c.val % 64) (by omega), beginChar,
      Pending.advance]
    rw [if_neg (by omega), if_neg (by omega), if_neg (by omega), if_neg (by omega),
      if_pos (by omega)]
    dsimp only
    rw [if_pos (by split <;> split <;> omega)]
    rw [if_pos (by omega), if_pos (by omega), whole _ (by omega)]

theorem decodeFrom_utf8 {value : Text} (encodable : Encodable value) (rest : Bytes) :
    decodeFrom none (utf8 value ++ rest) = value.map some ++ decodeFrom none rest := by
  induction value with
  | nil => rfl
  | cons c value ih =>
      have first := encodable c List.mem_cons_self
      have others : Encodable value := fun other mem => encodable other (List.mem_cons_of_mem c mem)
      rw [utf8, List.flatMap_cons, List.append_assoc, decodeFrom_utf8Char first]
      rw [← utf8, ih others, List.map_cons, List.cons_append]

/-- Text that UTF-8 can hold is read back from its bytes. -/
theorem decodeStrict_utf8 {value : Text} (encodable : Encodable value) :
    decodeStrict (utf8 value) = some value := by
  have units := decodeFrom_utf8 encodable []
  rw [List.append_nil, decodeFrom, List.append_nil] at units
  rw [decodeStrict, units]
  clear units encodable
  induction value with
  | nil => rfl
  | cons c value ih => simp [ih]

theorem decodeReplace_utf8 {value : Text} (encodable : Encodable value) :
    decodeReplace (utf8 value) = value := by
  have units := decodeFrom_utf8 encodable []
  rw [List.append_nil, decodeFrom, List.append_nil] at units
  rw [decodeReplace, units, List.map_map]
  exact List.map_id value

/-! ## Decoding around an ASCII character -/

/-- A pending character waits for a byte that is no ASCII. -/
def Pending.Waits (pending : Option Pending) : Prop :=
  ∀ waiting, pending = some waiting → 0x80 ≤ waiting.low

theorem waits_none : Pending.Waits none :=
  fun _ impossible => by cases impossible

theorem waits_beginChar {byte : ℕ} {pending : Pending} (begins : beginChar byte = .inr pending) :
    Pending.Waits (some pending) := by
  intro waiting same
  cases same
  rw [beginChar] at begins
  split_ifs at begins <;> cases begins <;> exact of_decide_eq_true rfl

theorem Pending.waits_advance {pending next : Pending} {byte : ℕ}
    (advances : pending.advance byte = .inr next) : Pending.Waits (some next) := by
  intro waiting same
  cases same
  rw [Pending.advance] at advances
  split at advances <;> cases advances
  exact le_refl _

/-- The characters from a start on. -/
def decodeOn : Option CodePoint ⊕ Pending → Bytes → List (Option CodePoint)
  | .inl unit, rest => unit :: decodeFrom none rest
  | .inr next, rest => decodeFrom (some next) rest

theorem decodeFrom_none_cons (byte : UInt8) (rest : Bytes) :
    decodeFrom none (byte :: rest) = decodeOn (beginChar byte.toNat) rest := by
  rw [decodeFrom]
  cases beginChar byte.toNat <;> rfl

theorem decodeFrom_some_cons (pending : Pending) (byte : UInt8) (rest : Bytes) :
    decodeFrom (some pending) (byte :: rest) =
      if pending.low ≤ byte.toNat ∧ byte.toNat ≤ pending.high then
        decodeOn (pending.advance byte.toNat) rest
      else none :: decodeOn (beginChar byte.toNat) rest := by
  rw [decodeFrom]
  split
  · cases pending.advance byte.toNat <;> rfl
  · cases beginChar byte.toNat <;> rfl

/-- An ASCII byte is a character of its own, whatever stands before it. -/
theorem decodeFrom_append_ascii {pending : Option Pending} (waits : Pending.Waits pending)
    {byte : UInt8} (ascii : byte.toNat < 0x80) (first rest : Bytes) :
    decodeFrom pending (first ++ byte :: rest) =
      decodeFrom pending first ++ some (codePoint byte.toNat) :: decodeFrom none rest := by
  induction first generalizing pending with
  | nil =>
      have begins : beginChar byte.toNat = .inl (some (codePoint byte.toNat)) := if_pos ascii
      cases pending with
      | none =>
          rw [List.nil_append, decodeFrom_none_cons, begins]
          rfl
      | some waiting =>
          have low := waits waiting rfl
          rw [List.nil_append, decodeFrom_some_cons, begins, if_neg (by omega)]
          rfl
  | cons head first ih =>
      have later : ∀ start : Option CodePoint ⊕ Pending,
          (∀ next, start = .inr next → Pending.Waits (some next)) →
          decodeOn start (first ++ byte :: rest) =
            decodeOn start first ++ some (codePoint byte.toNat) :: decodeFrom none rest := by
        intro start waitsToo
        cases start with
        | inl unit =>
            exact congrArg (unit :: ·) (ih waits_none)
        | inr next => exact ih (waitsToo next rfl)
      have begun := later (beginChar head.toNat) fun _ => waits_beginChar
      cases pending with
      | none =>
          rw [List.cons_append, decodeFrom_none_cons, decodeFrom_none_cons]
          exact begun
      | some waiting =>
          rw [List.cons_append, decodeFrom_some_cons, decodeFrom_some_cons]
          split
          · exact later _ fun _ => Pending.waits_advance
          · exact congrArg (none :: ·) begun

theorem decodeReplace_append_ascii {byte : UInt8} (ascii : byte.toNat < 0x80)
    (first rest : Bytes) :
    decodeReplace (first ++ byte :: rest) =
      decodeReplace first ++ codePoint byte.toNat :: decodeReplace rest := by
  rw [decodeReplace, decodeFrom_append_ascii waits_none ascii, List.map_append, List.map_cons]
  rfl

/-- Strict decoding on both sides of an ASCII byte. -/
theorem decodeStrict_append_ascii {byte : UInt8} (ascii : byte.toNat < 0x80)
    {first rest : Bytes} {whole : Text} :
    decodeStrict (first ++ byte :: rest) = some whole ↔
      ∃ one two, decodeStrict first = some one ∧ decodeStrict rest = some two ∧
        whole = one ++ codePoint byte.toNat :: two := by
  rw [decodeStrict, decodeStrict, decodeStrict, decodeFrom_append_ascii waits_none ascii,
    List.mapM_append]
  cases (decodeFrom none first).mapM id with
  | none => simp
  | some one =>
      rw [List.mapM_cons]
      cases (decodeFrom none rest).mapM id with
      | none => simp
      | some two => simp [eq_comm]

end Foundation
