import Ksnap.Engine.Report
import Ksnap.Foundation.JsonEscapes

/-!
# Printed strings

What `print_json_string` leaves of a text. The executable's path may hold any byte but a
NUL, so the text need not be UTF-8. Each of its bytes comes as one piece, and the piece is
undone wherever it stands.
-/

namespace Ksnap

open Foundation

/-! ## Pieces -/

/-- What has no case of its own in the loop is printed as it is. -/
theorem escapeByte_self {byte : UInt8} (notQuote : byte ≠ 34) (notBackslash : byte ≠ 92)
    (visible : 0x20 ≤ byte) : escapeByte byte = [byte] := by
  have differs : ∀ control : UInt8, control < 0x20 → byte ≠ control := by
    rintro control small rfl
    exact absurd visible (UInt8.not_le.mpr small)
  rw [escapeByte, if_neg notQuote, if_neg notBackslash, if_neg (differs 10 (by decide)),
    if_neg (differs 13 (by decide)), if_neg (differs 9 (by decide)),
    if_neg (UInt8.not_lt.mpr visible)]

theorem escapeByte_cases (byte : UInt8) :
    byte = 34 ∨ byte = 92 ∨ (∃ number < 32, byte = .ofNat number) ∨
      byte ≠ 34 ∧ byte ≠ 92 ∧ 0x20 ≤ byte ∧ escapeByte byte = [byte] := by
  by_cases quote : byte = 34
  · exact .inl quote
  by_cases backslash : byte = 92
  · exact .inr (.inl backslash)
  by_cases visible : 0x20 ≤ byte
  · exact .inr (.inr (.inr ⟨quote, backslash, visible, escapeByte_self quote backslash visible⟩))
  · refine .inr (.inr (.inl ⟨byte.toNat, ?_, UInt8.ofNat_toNat.symm⟩))
    exact UInt8.lt_iff_toNat_lt.mp (UInt8.not_le.mp visible)

theorem visible_of_all {bytes : Bytes} (all : bytes.all (fun byte => decide (0x20 ≤ byte)) = true) :
    ∀ byte ∈ bytes, 0x20 ≤ byte :=
  fun byte mem => of_decide_eq_true (List.all_eq_true.mp all byte mem)

theorem visible_escapeByte (byte : UInt8) : ∀ other ∈ escapeByte byte, 0x20 ≤ other := by
  rcases escapeByte_cases byte with rfl | rfl | ⟨number, lt, rfl⟩ | ⟨-, -, visible, same⟩
  · exact visible_of_all rfl
  · exact visible_of_all rfl
  · interval_cases number <;> exact visible_of_all rfl
  · rw [same]
    exact List.forall_mem_singleton.mpr visible

/-- A piece leaves the decoder between two characters again. -/
theorem foldlM_escapeByte (byte : UInt8) (bytes : Bytes) :
    (escapeByte byte).foldlM BytesRead.step (.between bytes) =
      some (.between (bytes ++ [byte])) := by
  rcases escapeByte_cases byte with rfl | rfl | ⟨number, lt, rfl⟩ |
    ⟨notQuote, notBackslash, visible, same⟩
  · rfl
  · rfl
  · interval_cases number <;> rfl
  · have plain : ¬ (byte = 34 ∨ byte < 0x20 ∨ (none : Option ℕ).isSome) := by
      rintro (quote | control | pair)
      · exact notQuote quote
      · exact absurd visible (UInt8.not_le.mpr control)
      · cases pair
    have step : (BytesRead.between bytes).step byte = some (.between (bytes ++ [byte])) := by
      rw [BytesRead.step, BytesRead.between]
      dsimp only
      rw [if_neg notBackslash, if_neg plain]
    rw [same, List.foldlM_cons, step]
    rfl

/-- The escape of a control byte: a backslash, a letter, and perhaps digits. -/
theorem escapeByte_control {number : ℕ} (lt : number < 32) :
    ∃ letter digits, escapeByte (.ofNat number) = 92 :: letter :: digits ∧
      34 ∉ digits ∧ 92 ∉ digits := by
  interval_cases number <;> exact ⟨_, _, rfl, by decide, by decide⟩

/-- Neither a quote nor a backslash is bare in a piece. -/
theorem bareBytes_escapeByte {c : UInt8} (special : c = 34 ∨ c = 92) (byte : UInt8)
    {rest : Bytes} (later : c ∉ bareBytes rest) : c ∉ bareBytes (escapeByte byte ++ rest) := by
  have visible : ∀ plain : Bytes, 34 ∉ plain → 92 ∉ plain → c ∉ bareBytes (plain ++ rest) := by
    intro plain noQuote noBackslash
    rw [bareBytes_append noBackslash]
    apply List.not_mem_append _ later
    rcases special with rfl | rfl
    · exact noQuote
    · exact noBackslash
  rcases escapeByte_cases byte with rfl | rfl | ⟨number, lt, rfl⟩ |
    ⟨notQuote, notBackslash, -, same⟩
  · exact later
  · exact later
  · rcases escapeByte_control lt with ⟨letter, digits, same, noQuote, noBackslash⟩
    rw [same]
    exact visible digits noQuote noBackslash
  · rw [same]
    apply visible [byte]
    · exact fun mem => notQuote (List.mem_singleton.mp mem).symm
    · exact fun mem => notBackslash (List.mem_singleton.mp mem).symm

/-! ## The whole -/

/-- What is printed is a JSON string that stands for the text. -/
theorem unescape_printJsonString {value : Bytes} (nulFree : 0 ∉ value) :
    ∃ body, printJsonString value = 34 :: (body ++ [34]) ∧ (∀ byte ∈ body, 0x20 ≤ byte) ∧
      34 ∉ bareBytes body ∧ 92 ∉ bareBytes body ∧ unescape body = some value := by
  refine ⟨value.flatMap escapeByte, ?_, ?_, ?_, ?_, ?_⟩
  · rw [printJsonString, cString_of_notMem nulFree]
    rfl
  · intro other mem
    rcases List.mem_flatMap.mp mem with ⟨byte, -, mem⟩
    exact visible_escapeByte byte other mem
  · exact not_mem_bareBytes_flatMap fun byte _ _ => bareBytes_escapeByte (.inl rfl) byte
  · exact not_mem_bareBytes_flatMap fun byte _ _ => bareBytes_escapeByte (.inr rfl) byte
  · exact unescape_flatMap fun byte _ => foldlM_escapeByte byte

/-- Escapes of each form next to each other, and bytes that are no UTF-8. -/
theorem unescape_printJsonString_mixed :
    ∃ body, printJsonString [34, 92, 10, 1, 65, 92, 117, 0xFF] = 34 :: (body ++ [34]) ∧
      (∀ byte ∈ body, 0x20 ≤ byte) ∧ 34 ∉ bareBytes body ∧ 92 ∉ bareBytes body ∧
        unescape body = some [34, 92, 10, 1, 65, 92, 117, 0xFF] :=
  unescape_printJsonString (by decide)

end Ksnap
