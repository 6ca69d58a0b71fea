import Ksnap.Foundation.JsonWriter
import Ksnap.Foundation.Lines
import Ksnap.Foundation.Numeral

/-!
# Words

`str.split()` and what it finds in a text whose words are known, among them the decimal
numbers that `int` reads back.
-/

namespace Foundation

/-- `str.split()`: the longest parts without white space. -/
def splitWords : Text → List Text
  | [] => []
  | [c] => if isWhitespace c then [] else [[c]]
  | c :: d :: rest =>
      if isWhitespace c then splitWords (d :: rest)
      else if isWhitespace d then [c] :: splitWords (d :: rest)
      else putOnFirst c (splitWords (d :: rest))

theorem solid_of_all {word : Text} (all : word.all (!isWhitespace ·) = true) :
    ∀ c ∈ word, isWhitespace c = false := by
  intro c mem
  simpa using List.all_eq_true.mp all c mem

theorem splitWords_space {c : CodePoint} (space : isWhitespace c = true) (rest : Text) :
    splitWords (c :: rest) = splitWords rest := by
  cases rest with
  | nil => simp [splitWords, space]
  | cons d rest => rw [splitWords, if_pos space]

theorem splitWords_spaces {spaces : Text} (each : ∀ c ∈ spaces, isWhitespace c = true)
    (rest : Text) : splitWords (spaces ++ rest) = splitWords rest := by
  induction spaces with
  | nil => rfl
  | cons c spaces ih =>
      rw [List.cons_append, splitWords_space (each c List.mem_cons_self)]
      exact ih fun d mem => each d (List.mem_cons_of_mem _ mem)

/-- A word is found in front of white space, and at the end. -/
theorem splitWords_word {word rest : Text} (solid : ∀ c ∈ word, isWhitespace c = false)
    (some : word ≠ []) (ends : ∀ c ∈ rest.head?, isWhitespace c = true) :
    splitWords (word ++ rest) = word :: splitWords rest := by
  induction word with
  | nil => exact absurd rfl some
  | cons c word ih =>
      have first := Bool.eq_false_iff.mp (solid c List.mem_cons_self)
      cases word with
      | nil =>
          cases rest with
          | nil => simp [splitWords, first]
          | cons d rest =>
              rw [List.singleton_append, splitWords, if_neg first, if_pos (ends d rfl)]
      | cons d word =>
          have second := Bool.eq_false_iff.mp
            (solid d (List.mem_cons_of_mem _ List.mem_cons_self))
          have later := ih (fun e mem => solid e (List.mem_cons_of_mem _ mem))
            (List.cons_ne_nil _ _)
          rw [List.cons_append] at later
          rw [List.cons_append, List.cons_append, splitWords, if_neg first, if_neg second, later]
          rfl

/-- Words with a space in front of each, and a newline at the end. -/
theorem splitWords_line {words : List Text}
    (solid : ∀ word ∈ words, ∀ c ∈ word, isWhitespace c = false)
    (some : ∀ word ∈ words, word ≠ []) :
    splitWords (words.flatMap (32 :: ·) ++ [10]) = words := by
  induction words with
  | nil => rfl
  | cons word words ih =>
      have later := ih (fun other mem => solid other (List.mem_cons_of_mem _ mem))
        fun other mem => some other (List.mem_cons_of_mem _ mem)
      have ends : ∀ c ∈ (words.flatMap (32 :: ·) ++ [(10 : CodePoint)]).head?,
          isWhitespace c = true := by
        cases words <;> simp [isWhitespace]
      rw [List.flatMap_cons, List.append_assoc, List.cons_append, splitWords_space rfl,
        splitWords_word (solid word List.mem_cons_self) (some word List.mem_cons_self) ends, later]

/-- A space in front of each is a space in front of the whole, and one between any two. -/
theorem flatMap_space {words : List Text} (some : words ≠ []) :
    words.flatMap (32 :: ·) = 32 :: List.intercalate [32] words := by
  induction words with
  | nil => exact absurd rfl some
  | cons word words ih =>
      cases words with
      | nil => simp
      | cons next words =>
          rw [List.flatMap_cons, ih (List.cons_ne_nil _ _), List.intercalate_cons_cons]
          simp

theorem mem_intercalate {c : CodePoint} {separator : Text} {words : List Text}
    (mem : c ∈ List.intercalate separator words) : c ∈ separator ∨ ∃ word ∈ words, c ∈ word := by
  induction words with
  | nil => cases mem
  | cons word words ih =>
      cases words with
      | nil =>
          rw [List.intercalate_singleton] at mem
          exact .inr ⟨word, List.mem_cons_self, mem⟩
      | cons next words =>
          rw [List.intercalate_cons_cons] at mem
          rcases List.mem_append.mp mem with front | later
          · rcases List.mem_append.mp front with own | between
            · exact .inr ⟨word, List.mem_cons_self, own⟩
            · exact .inl between
          · rcases ih later with between | ⟨other, own, mem⟩
            · exact .inl between
            · exact .inr ⟨other, List.mem_cons_of_mem _ own, mem⟩

/-- `str.split` undoes `" ".join`. -/
theorem splitWords_intercalate {words : List Text}
    (solid : ∀ word ∈ words, ∀ c ∈ word, isWhitespace c = false)
    (some : ∀ word ∈ words, word ≠ []) :
    splitWords (List.intercalate [32] words ++ [10]) = words := by
  cases words with
  | nil => rfl
  | cons word words =>
      have line := splitWords_line solid some
      rwa [flatMap_space (List.cons_ne_nil _ _), List.cons_append, splitWords_space rfl] at line

/-! ## Numbers -/

theorem not_whitespace_of_isDecimal {c : CodePoint} (decimal : isDecimal c = true) :
    isWhitespace c = false := by
  simp only [isDecimal, Bool.and_eq_true, decide_eq_true_eq] at decimal
  simp only [isWhitespace, Bool.or_eq_false_iff, Bool.and_eq_false_iff, decide_eq_false_iff_not,
    beq_eq_false_iff_ne]
  omega

theorem decimalDigits_ne_nil (number : ℕ) : decimalDigits number ≠ [] := by
  by_cases small : number < 10
  · rw [decimalDigits_of_lt small]
    exact List.cons_ne_nil _ _
  · rw [decimalDigits_of_le (not_lt.mp small), decimalDigits_of_lt (Nat.mod_lt _ (by decide))]
    exact List.append_ne_nil_of_right_ne_nil _ (List.cons_ne_nil _ _)

theorem digitOf_of_isDecimal {c : CodePoint} (decimal : isDecimal c = true) :
    digitOf c = some (c.val - 48) := by
  have first : (48 ≤ c.val && c.val ≤ 48 + 9) = true := decimal
  have found : decimalZeros.find? (fun first => first ≤ c.val && c.val ≤ first + 9) = some 48 :=
    List.find?_cons_of_pos first
  rw [digitOf, found]
  rfl

theorem intDigits_of_isDecimal {digits : Text} (decimal : ∀ c ∈ digits, isDecimal c = true)
    (some : digits ≠ []) : intDigits digits = .some (digits.map fun c => c.val - 48) := by
  induction digits with
  | nil => exact absurd rfl some
  | cons c digits ih =>
      have first := digitOf_of_isDecimal (decimal c List.mem_cons_self)
      cases digits with
      | nil => rw [intDigits, first]; rfl
      | cons d digits =>
          have later := ih (fun e mem => decimal e (List.mem_cons_of_mem _ mem))
            (List.cons_ne_nil _ _)
          have notUnderscore : d ≠ 95 := by
            rintro rfl
            exact absurd (decimal 95 (List.mem_cons_of_mem _ List.mem_cons_self)) (by decide)
          rw [intDigits, first, later]
          · rfl
          · exact List.cons_ne_nil _ _
          · exact fun rest impossible => notUnderscore (List.cons.inj impossible).1

/-- A printed number is read back, within the limit on its digits. -/
theorem intOfText_decimalDigits {limit number : ℕ}
    (short : (decimalDigits number).length ≤ limit) :
    intOfText (some limit) (decimalDigits number) = some (number : ℤ) := by
  have digits : ∀ c ∈ decimalDigits number, isDecimal c = true := isDecimal_of_mem
  have solid : ∀ c ∈ decimalDigits number, isIntSpace c = false := by
    intro c mem
    rw [isIntSpace, not_whitespace_of_isDecimal (digits c mem), Bool.false_and]
  have front : (decimalDigits number).dropWhile isIntSpace = decimalDigits number := by
    rw [List.dropWhile_eq_self_iff]
    intro nonempty
    rw [solid _ (List.getElem_mem nonempty)]
    exact Bool.false_ne_true
  have bare : (decimalDigits number).rdropWhile isIntSpace = decimalDigits number := by
    rw [List.rdropWhile_eq_self_iff]
    intro nonempty
    rw [solid _ (List.getLast_mem nonempty)]
    exact Bool.false_ne_true
  have read := intDigits_of_isDecimal digits (decimalDigits_ne_nil number)
  have allowed : within (some limit) (decimalDigits number).length = true := decide_eq_true short
  have value : (decimalDigits number).foldl (fun number c => number * 10 + (c.val - 48)) 0 =
      number := decimalValue_decimalDigits number
  cases shape : decimalDigits number with
  | nil => exact absurd shape (decimalDigits_ne_nil number)
  | cons c rest =>
      have first := digits c (shape ▸ List.mem_cons_self)
      have unsigned : c ≠ 45 ∧ c ≠ 43 := by
        constructor
        · rintro rfl
          cases first
        · rintro rfl
          cases first
      rw [shape] at front bare read allowed value
      have rest : within (some limit) (rest.length + 1) = true ∧
          rest.foldl (fun number c => number * 10 + (c.val - 48)) (c.val - 48) = number := by
        simpa using And.intro allowed value
      simpa [intOfText, front, bare, unsigned, read, List.foldl_map] using rest

end Foundation
