import Ksnap.Foundation.JsonReader
import Mathlib.Tactic.IntervalCases

/-!
# Writing JSON

Texts that spell a value, put together from the texts of its parts. Behind such a text the
machine of `JsonReader` holds the value and takes what can stand behind it.
-/

namespace Foundation

section

variable {dialect : JsonDialect}

/-- The value is complete for a comma, a bracket or the end of the text. -/
structure JsonState.Holds (dialect : JsonDialect) (state : JsonState) (value : Json)
    (frames : List JsonFrame) : Prop where
  close : ∀ c, c = 44 ∨ c = 93 ∨ c = 125 → state.step dialect c = closeValue value frames c
  finish : frames = [] → state.finish dialect = .ok value

/-- Where there is room for so many levels more, the text is read as the value. -/
def Spells (dialect : JsonDialect) (levels : ℕ) (input : Text) (value : Json) : Prop :=
  ∀ frames : List JsonFrame, within dialect.depth (frames.length + levels) = true →
    ∃ state, (JsonState.value frames).run dialect input = .ok state ∧
      state.Holds dialect value frames

theorem within_of_le {limit : Option ℕ} {less more : ℕ} (le : less ≤ more)
    (fits : within limit more = true) : within limit less = true := by
  cases limit with
  | none => rfl
  | some limit => exact decide_eq_true (le.trans (of_decide_eq_true fits))

theorem Spells.loads {levels : ℕ} {input : Text} {value : Json}
    (spells : Spells dialect levels input value) (room : within dialect.depth levels = true) :
    loads dialect input = .ok value := by
  rw [← Nat.zero_add levels] at room
  rcases spells [] room with ⟨state, ran, holds⟩
  exact loads_eq_ok_iff.mpr ⟨state, ran, holds.finish rfl⟩

theorem run_append_of_ok {state middle : JsonState} {first second : Text}
    (ran : state.run dialect first = .ok middle) :
    state.run dialect (first ++ second) = middle.run dialect second := by
  rw [run_append, ran]
  rfl

theorem run_cons_of_ok {state next : JsonState} {c : CodePoint} {input : Text}
    (taken : state.step dialect c = .ok next) :
    state.run dialect (c :: input) = next.run dialect input := by
  rw [run_cons, taken]
  rfl

theorem holds_done {value : Json} {frames : List JsonFrame} :
    (JsonState.done value frames).Holds dialect value frames := by
  constructor
  · rintro c (rfl | rfl | rfl) <;> rfl
  · rintro rfl
    rfl

theorem spells_boolean {levels : ℕ} (value : Bool) :
    Spells dialect levels (text (if value then "true" else "false")) (.boolean value) := by
  intro frames _
  refine ⟨.done (.boolean value) frames, ?_, holds_done⟩
  cases value <;> rfl

/-! ## Numbers -/

theorem holds_number {part : NumberPart} {literal : Text} {frames : List JsonFrame}
    (integer : part = .zero ∨ part = .integer)
    (fits : within dialect.digits (unsignedPart literal).length = true) :
    (JsonState.number part literal frames).Holds dialect (.integer (signedValue literal))
      frames := by
  have value : numberValue dialect part literal = .ok (.integer (signedValue literal)) := by
    rw [numberValue, if_pos integer, if_pos fits]
  have notMinus : part ≠ .minus := by
    rintro rfl
    rcases integer with same | same <;> cases same
  constructor
  · intro c closes
    have ends : part.next c = none := by
      rcases integer with rfl | rfl <;> rcases closes with rfl | rfl | rfl <;> rfl
    have notSpace : isJsonSpace c = false := by
      rcases closes with rfl | rfl | rfl <;> rfl
    rw [JsonState.step, ends]
    dsimp only
    rw [endNumber, if_neg fun all => notMinus all.1, value]
    dsimp only
    rw [afterValue, if_neg (Bool.eq_false_iff.mp notSpace)]
  · rintro rfl
    exact value

/-- The digits of a number in base ten. -/
def decimalDigits (number : ℕ) : Text :=
  (Nat.toDigits 10 number).map fun digit => codePoint digit.toNat

theorem decimalDigits_of_lt {number : ℕ} (lt : number < 10) :
    decimalDigits number = [codePoint (48 + number)] := by
  rw [decimalDigits, Nat.toDigits_of_lt_base lt]
  interval_cases number <;> rfl

theorem decimalDigits_of_le {number : ℕ} (le : 10 ≤ number) :
    decimalDigits number = decimalDigits (number / 10) ++ decimalDigits (number % 10) := by
  rw [decimalDigits, Nat.toDigits_of_base_le (by decide) le, List.map_append,
    ← Nat.toDigits_of_lt_base (Nat.mod_lt number (by decide))]
  rfl

theorem val_codePoint_digit {digit : ℕ} (lt : digit < 10) :
    (codePoint (48 + digit)).val = 48 + digit :=
  Nat.mod_eq_of_lt (by omega)

theorem isDecimal_digit {digit : ℕ} (lt : digit < 10) :
    isDecimal (codePoint (48 + digit)) = true := by
  rw [isDecimal, val_codePoint_digit lt]
  simp
  omega

theorem decimalValue_append (first second : Text) :
    decimalValue (first ++ second) =
      second.foldl (fun number c => number * 10 + (c.val - 48)) (decimalValue first) :=
  List.foldl_append

theorem decimalValue_decimalDigits (number : ℕ) : decimalValue (decimalDigits number) = number := by
  induction number using Nat.strongRecOn with
  | ind number ih =>
      by_cases small : number < 10
      · rw [decimalDigits_of_lt small]
        simp only [decimalValue, List.foldl_cons, List.foldl_nil, val_codePoint_digit small]
        omega
      · have last : number % 10 < 10 := Nat.mod_lt number (by decide)
        rw [decimalDigits_of_le (not_lt.mp small), decimalValue_append, ih (number / 10) (by omega),
          decimalDigits_of_lt last]
        simp only [List.foldl_cons, List.foldl_nil, val_codePoint_digit last]
        omega

/-- The digits of a positive number are read from wherever the first of them can stand. -/
theorem run_decimalDigits {state : JsonState} {frames : List JsonFrame} (front : Text)
    (first : ∀ digit, 0 < digit → digit < 10 → state.step dialect (codePoint (48 + digit)) =
      .ok (.number .integer (front ++ [codePoint (48 + digit)]) frames))
    (number : ℕ) (positive : 0 < number) :
    state.run dialect (decimalDigits number) =
      .ok (.number .integer (front ++ decimalDigits number) frames) := by
  induction number using Nat.strongRecOn with
  | ind number ih =>
      by_cases small : number < 10
      · rw [decimalDigits_of_lt small, run_cons_of_ok (first number positive small)]
        rfl
      · have last : number % 10 < 10 := Nat.mod_lt number (by decide)
        have before := ih (number / 10) (by omega) (by omega)
        rw [decimalDigits_of_le (not_lt.mp small), run_append_of_ok before,
          decimalDigits_of_lt last]
        have more : NumberPart.integer.next (codePoint (48 + number % 10)) = some .integer :=
          if_pos (isDecimal_digit last)
        rw [run_cons, JsonState.step, more, List.append_assoc]
        rfl

theorem length_decimalDigits {number limit : ℕ} (lt : number < 10 ^ limit) :
    (decimalDigits number).length ≤ max 1 limit := by
  rw [decimalDigits, List.length_map, Nat.length_toDigits_le_iff (by decide) (by omega)]
  exact lt.trans_le (Nat.pow_le_pow_right (by decide) (by omega))

theorem isDecimal_of_mem {number : ℕ} : ∀ c ∈ decimalDigits number, isDecimal c = true := by
  induction number using Nat.strongRecOn with
  | ind number ih =>
      by_cases small : number < 10
      · rw [decimalDigits_of_lt small]
        exact List.forall_mem_singleton.mpr (isDecimal_digit small)
      · rw [decimalDigits_of_le (not_lt.mp small)]
        exact List.forall_mem_append.mpr ⟨ih _ (by omega), ih _ (by omega)⟩

theorem signs_of_isDecimal {digits : Text} (decimal : ∀ c ∈ digits, isDecimal c = true) :
    signedValue digits = decimalValue digits ∧ unsignedPart digits = digits := by
  cases digits with
  | nil => exact ⟨rfl, rfl⟩
  | cons c digits =>
      have isDigit := decimal c List.mem_cons_self
      rw [signedValue.eq_def, unsignedPart.eq_def]
      split
      · next same =>
          cases same
          cases isDigit
      · exact ⟨rfl, rfl⟩

theorem text_toString_natCast (number : ℕ) :
    text (toString (number : ℤ)) = decimalDigits number := by
  rw [decimalDigits, ← Nat.toList_repr]
  rfl

theorem text_toString_negSucc (number : ℕ) :
    text (toString (Int.negSucc number)) = 45 :: decimalDigits (number + 1) := by
  rw [decimalDigits, ← Nat.toList_repr]
  simp [toString, Int.repr, text]

theorem within_length {limit : Option ℕ} {number digits : ℕ} (lt : number < 10 ^ (digits + 1))
    (room : within limit (digits + 1) = true) :
    within limit (decimalDigits number).length = true := by
  have length := length_decimalDigits lt
  exact within_of_le (by omega) room

theorem spells_integer {levels digits : ℕ} {number : ℤ} (lt : number.natAbs < 10 ^ (digits + 1))
    (room : within dialect.digits (digits + 1) = true) :
    Spells dialect levels (text (toString number)) (.integer number) := by
  intro frames _
  cases number with
  | ofNat number =>
      have literal := text_toString_natCast number
      have signs := signs_of_isDecimal (@isDecimal_of_mem number)
      have fits : within dialect.digits (unsignedPart (decimalDigits number)).length = true := by
        rw [signs.2]
        exact within_length lt room
      have value : signedValue (decimalDigits number) = Int.ofNat number := by
        rw [signs.1, decimalValue_decimalDigits]
        rfl
      rw [Int.ofNat_eq_natCast] at value ⊢
      rw [literal, ← value]
      rcases Nat.eq_zero_or_pos number with rfl | positive
      · exact ⟨_, rfl, holds_number (.inl rfl) fits⟩
      · refine ⟨_, run_decimalDigits [] ?_ number positive, holds_number (.inr rfl) fits⟩
        intro digit digitPos small
        interval_cases digit <;> rfl
  | negSucc number =>
      have signs := signs_of_isDecimal (@isDecimal_of_mem (number + 1))
      have value : signedValue (45 :: decimalDigits (number + 1)) = Int.negSucc number := by
        rw [signedValue, decimalValue_decimalDigits]
        rfl
      rw [text_toString_negSucc, ← value]
      have minus : (JsonState.value frames).step dialect 45 = .ok (.number .minus [45] frames) :=
        rfl
      refine ⟨.number .integer (45 :: decimalDigits (number + 1)) frames, ?_,
        holds_number (.inr rfl) (within_length lt room)⟩
      rw [run_cons_of_ok minus]
      apply run_decimalDigits [45] _ (number + 1) (Nat.succ_pos number)
      intro digit digitPos small
      interval_cases digit <;> rfl

/-! ## Strings -/

/-- The characters of a string that has no escape open. -/
def StringRead.upTo (chars : Text) : StringRead where
  chars := chars
  high := false
  escape := .plain

/-- What characters make of a string that they do not end. -/
def StringRead.feed (read : StringRead) : Text → Option StringRead
  | [] => some read
  | c :: input =>
      match read.step c with
      | some (.inr more) => more.feed input
      | _ => none

theorem StringRead.feed_append {read more : StringRead} {first second : Text}
    (fed : read.feed first = some more) : read.feed (first ++ second) = more.feed second := by
  induction first generalizing read with
  | nil =>
      cases fed
      rfl
  | cons c first ih =>
      rw [List.cons_append, feed]
      rw [feed] at fed
      cases taken : read.step c with
      | none =>
          rw [taken] at fed
          cases fed
      | some next =>
          cases next with
          | inl whole =>
              rw [taken] at fed
              cases fed
          | inr next =>
              rw [taken] at fed
              exact ih fed

theorem run_string {read more : StringRead} {frames : List JsonFrame} {input : Text}
    (fed : read.feed input = some more) :
    (JsonState.string read frames).run dialect input = .ok (.string more frames) := by
  induction input generalizing read with
  | nil =>
      cases fed
      rfl
  | cons c input ih =>
      rw [StringRead.feed] at fed
      split at fed
      · next next taken =>
          rw [run_cons, JsonState.step, taken]
          exact ih fed
      · cases fed

theorem run_key {members : List (Text × Json)} {read more : StringRead} {frames : List JsonFrame}
    {input : Text} (fed : read.feed input = some more) :
    (JsonState.key members read frames).run dialect input = .ok (.key members more frames) := by
  induction input generalizing read with
  | nil =>
      cases fed
      rfl
  | cons c input ih =>
      rw [StringRead.feed] at fed
      split at fed
      · next next taken =>
          rw [run_cons, JsonState.step, taken]
          exact ih fed
      · cases fed

/-- The characters that stand for themselves in a string. -/
def isPlainChar (c : CodePoint) : Bool :=
  c != 34 && c != 92 && 0x20 ≤ c.val

theorem feed_plain {c : CodePoint} (plain : isPlainChar c = true) (chars : Text) :
    (StringRead.upTo chars).feed [c] = some (.upTo (chars ++ [c])) := by
  simp only [isPlainChar, Bool.and_eq_true, bne_iff_ne, decide_eq_true_eq] at plain
  have taken : (StringRead.upTo chars).step c = some (.inr (.upTo (chars ++ [c]))) := by
    rw [StringRead.step, StringRead.upTo]
    dsimp only
    rw [if_neg plain.1.1, if_neg plain.1.2, if_neg (not_lt.mpr plain.2)]
    rfl
  rw [StringRead.feed, taken]
  rfl

/-- A way to write each character that reads back. -/
def Escapes (escape : CodePoint → Text) : Prop :=
  ∀ c chars, (StringRead.upTo chars).feed (escape c) = some (.upTo (chars ++ [c]))

theorem feed_flatMap {escape : CodePoint → Text} {value : Text}
    (escapes : ∀ c ∈ value, ∀ chars,
      (StringRead.upTo chars).feed (escape c) = some (.upTo (chars ++ [c]))) (chars : Text) :
    (StringRead.upTo chars).feed (value.flatMap escape) = some (.upTo (chars ++ value)) := by
  induction value generalizing chars with
  | nil => rw [List.append_nil]; rfl
  | cons c value ih =>
      rw [List.flatMap_cons, StringRead.feed_append (escapes c List.mem_cons_self chars),
        ih (fun d mem => escapes d (List.mem_cons_of_mem c mem)), List.append_assoc]
      rfl

theorem spells_string {levels : ℕ} {escape : CodePoint → Text} (escapes : Escapes escape)
    (value : Text) :
    Spells dialect levels (34 :: value.flatMap escape ++ [34]) (.string value) := by
  intro frames _
  have begins : (JsonState.value frames).step dialect 34 = .ok (.string (.upTo []) frames) := rfl
  have content := feed_flatMap (fun c (_ : c ∈ value) => escapes c) []
  refine ⟨.done (.string value) frames, ?_, holds_done⟩
  rw [List.cons_append, run_cons_of_ok begins, run_append_of_ok (run_string content)]
  rfl

/-- A text that a string can hold as it is. -/
def IsPlain (value : Text) : Prop :=
  ∀ c ∈ value, isPlainChar c = true

theorem isPlain_of_all {value : Text} (all : value.all isPlainChar = true) : IsPlain value :=
  fun c mem => List.all_eq_true.mp all c mem

theorem feed_of_isPlain {value : Text} (plain : IsPlain value) (chars : Text) :
    (StringRead.upTo chars).feed value = some (.upTo (chars ++ value)) := by
  have fed := feed_flatMap (fun c mem => feed_plain (plain c mem)) chars
  rwa [List.flatMap_singleton'] at fed

/-! ## Objects -/

/-- The name of a member with its colon. -/
def nameText (name : Text) : Text :=
  34 :: name ++ [34, 58]

/-- A member with the text that its value is written as. -/
structure WrittenMember : Type where
  name : Text
  input : Text
  value : Json

def WrittenMember.text (member : WrittenMember) : Text :=
  nameText member.name ++ member.input

def WrittenMember.pair (member : WrittenMember) : Text × Json :=
  (member.name, member.value)

/-- The members behind the first one. -/
def laterMembers (members : List WrittenMember) : Text :=
  members.flatMap fun member => 44 :: member.text

structure WrittenMember.Spelled (dialect : JsonDialect) (levels : ℕ) (member : WrittenMember) :
    Prop where
  name : IsPlain member.name
  value : Spells dialect levels member.input member.value

theorem run_keyText {members : List (Text × Json)} {frames : List JsonFrame} {name : Text}
    (plain : IsPlain name) :
    (JsonState.key members .start frames).run dialect (name ++ [34, 58]) =
      .ok (.value (.dict members name :: frames)) := by
  have fed : StringRead.start.feed name = some (.upTo name) := feed_of_isPlain plain []
  rw [run_append_of_ok (run_key fed)]
  rfl

theorem run_nameText_firstKey {frames : List JsonFrame} {name : Text} (plain : IsPlain name) :
    (JsonState.firstKey frames).run dialect (nameText name) =
      .ok (.value (.dict [] name :: frames)) := by
  have quote : (JsonState.firstKey frames).step dialect 34 = .ok (.key [] .start frames) := rfl
  rw [nameText, List.cons_append, run_cons_of_ok quote, run_keyText plain]

/-- An object that is open behind one of its members. -/
def OpenBehind (dialect : JsonDialect) (state : JsonState) (members : List (Text × Json))
    (frames : List JsonFrame) : Prop :=
  ∃ front name value, state.Holds dialect value (.dict front name :: frames) ∧
    members = front ++ [(name, value)]

theorem OpenBehind.run_nameText {state : JsonState} {members : List (Text × Json)} {name : Text}
    {frames : List JsonFrame} (behind : OpenBehind dialect state members frames)
    (plain : IsPlain name) :
    state.run dialect (44 :: nameText name) = .ok (.value (.dict members name :: frames)) := by
  rcases behind with ⟨front, last, value, holds, rfl⟩
  have comma : state.step dialect 44 = .ok (.nextKey (front ++ [(last, value)]) frames) :=
    holds.close 44 (.inl rfl)
  have quote : (JsonState.nextKey (front ++ [(last, value)]) frames).step dialect 34 =
      .ok (.key (front ++ [(last, value)]) .start frames) := rfl
  rw [run_cons_of_ok comma, nameText, List.cons_append, run_cons_of_ok quote, run_keyText plain]

theorem OpenBehind.step_close {state : JsonState} {members : List (Text × Json)}
    {frames : List JsonFrame} (behind : OpenBehind dialect state members frames) :
    state.step dialect 125 = .ok (.done (.dict members) frames) := by
  rcases behind with ⟨front, last, value, holds, rfl⟩
  exact holds.close 125 (.inr (.inr rfl))

theorem run_first {levels : ℕ} {frames : List JsonFrame} {member : WrittenMember}
    (spelled : member.Spelled dialect levels)
    (room : within dialect.depth (frames.length + 1 + levels) = true) :
    ∃ state, (JsonState.firstKey frames).run dialect member.text = .ok state ∧
      OpenBehind dialect state [member.pair] frames := by
  rcases spelled.value (.dict [] member.name :: frames) room with ⟨state, ran, holds⟩
  refine ⟨state, ?_, [], member.name, member.value, holds, rfl⟩
  rw [WrittenMember.text, run_append_of_ok (run_nameText_firstKey spelled.name), ran]

theorem run_laterMembers {levels : ℕ} {frames : List JsonFrame} {members : List WrittenMember}
    {state : JsonState} {before : List (Text × Json)}
    (behind : OpenBehind dialect state before frames)
    (spelled : ∀ member ∈ members, member.Spelled dialect levels)
    (room : within dialect.depth (frames.length + 1 + levels) = true) :
    ∃ final, state.run dialect (laterMembers members) = .ok final ∧
      OpenBehind dialect final (before ++ members.map WrittenMember.pair) frames := by
  induction members generalizing state before with
  | nil =>
      rw [List.map_nil, List.append_nil]
      exact ⟨state, rfl, behind⟩
  | cons member members ih =>
      have own := spelled member List.mem_cons_self
      rcases own.value (.dict before member.name :: frames) room with ⟨next, ran, holds⟩
      have more : OpenBehind dialect next (before ++ [member.pair]) frames :=
        ⟨before, member.name, member.value, holds, rfl⟩
      rcases ih more fun other mem => spelled other (List.mem_cons_of_mem member mem) with
        ⟨final, rest, last⟩
      refine ⟨final, ?_, ?_⟩
      · rw [laterMembers, List.flatMap_cons, WrittenMember.text, ← List.cons_append,
          List.append_assoc, run_append_of_ok (behind.run_nameText own.name), run_append_of_ok ran]
        exact rest
      · rwa [List.map_cons, List.append_cons]

/-- An object with at least one member. -/
def objectText (first : WrittenMember) (others : List WrittenMember) : Text :=
  123 :: first.text ++ laterMembers others ++ [125]

theorem run_openObject {levels : ℕ} {frames : List JsonFrame} {first : WrittenMember}
    {others : List WrittenMember}
    (spelled : ∀ member ∈ first :: others, member.Spelled dialect levels)
    (room : within dialect.depth (frames.length + 1 + levels) = true) :
    ∃ state, (JsonState.value frames).run dialect (123 :: first.text ++ laterMembers others) =
        .ok state ∧ OpenBehind dialect state ((first :: others).map WrittenMember.pair) frames := by
  have opens : (JsonState.value frames).step dialect 123 = .ok (.firstKey frames) :=
    if_pos (within_of_le (by omega) room)
  rcases run_first (spelled first List.mem_cons_self) room with ⟨middle, begun, behind⟩
  rcases run_laterMembers behind (fun other mem => spelled other (List.mem_cons_of_mem _ mem))
    room with ⟨final, ran, last⟩
  refine ⟨final, ?_, last⟩
  rw [List.cons_append, run_cons_of_ok opens, run_append_of_ok begun, ran]

theorem spells_object {levels : ℕ} {first : WrittenMember} {others : List WrittenMember}
    (spelled : ∀ member ∈ first :: others, member.Spelled dialect levels) :
    Spells dialect (levels + 1) (objectText first others)
      (.dict ((first :: others).map WrittenMember.pair)) := by
  intro frames room
  rw [Nat.add_comm levels, ← Nat.add_assoc] at room
  rcases run_openObject spelled room with ⟨state, ran, behind⟩
  refine ⟨.done (.dict ((first :: others).map WrittenMember.pair)) frames, ?_, holds_done⟩
  rw [objectText, run_append_of_ok ran, run_cons_of_ok behind.step_close]
  rfl

/-! ## Lists -/

/-- What is read as a value is read as the first item of a list. -/
theorem run_firstItem {frames : List JsonFrame} {input : Text} {state : JsonState}
    (ran : (JsonState.value (.list [] :: frames)).run dialect input = .ok state)
    (begun : ∀ frames, state ≠ .value frames) :
    (JsonState.firstItem frames).run dialect input = .ok state := by
  induction input with
  | nil =>
      cases ran
      exact absurd rfl (begun _)
  | cons c input ih =>
      rw [run_cons, JsonState.step.eq_1] at ran
      rw [run_cons, JsonState.step.eq_2]
      by_cases space : isJsonSpace c = true
      · rw [if_pos space] at ran ⊢
        exact ih ran
      · have notClose : c ≠ 93 := by
          rintro rfl
          cases ran
        rw [if_neg space] at ran
        rw [if_neg space, if_neg notClose]
        exact ran

theorem JsonState.Holds.begun {state : JsonState} {value : Json} {frame : JsonFrame}
    {outer : List JsonFrame} (holds : state.Holds dialect value (frame :: outer)) :
    ∀ frames, state ≠ .value frames := by
  rintro frames rfl
  have comma := holds.close 44 (.inl rfl)
  cases frame <;> cases comma

/-- The texts of items with commas between them. -/
def separated : List Text → Text
  | [] => []
  | first :: others => first ++ others.flatMap (44 :: ·)

theorem run_laterItems {levels : ℕ} {frames : List JsonFrame} {items : List (Text × Json)}
    {state : JsonState} {value : Json} {before : List Json}
    (holds : state.Holds dialect value (.list before :: frames))
    (spelled : ∀ item ∈ items, Spells dialect levels item.1 item.2)
    (room : within dialect.depth (frames.length + 1 + levels) = true) :
    state.run dialect ((items.map Prod.fst).flatMap (44 :: ·) ++ [93]) =
      .ok (.done (.list (before ++ value :: items.map Prod.snd)) frames) := by
  induction items generalizing state value before with
  | nil =>
      have closes : state.step dialect 93 = .ok (.done (.list (before ++ [value])) frames) :=
        holds.close 93 (.inr (.inl rfl))
      exact run_cons_of_ok closes
  | cons item items ih =>
      have comma : state.step dialect 44 = .ok (.value (.list (before ++ [value]) :: frames)) :=
        holds.close 44 (.inl rfl)
      rcases spelled item List.mem_cons_self (.list (before ++ [value]) :: frames) room with
        ⟨next, ran, nextHolds⟩
      rw [List.map_cons, List.flatMap_cons, List.append_assoc, List.cons_append,
        run_cons_of_ok comma, run_append_of_ok ran]
      rw [ih nextHolds fun other mem => spelled other (List.mem_cons_of_mem item mem)]
      rw [List.map_cons, ← List.append_cons]

def listText (items : List Text) : Text :=
  91 :: separated items ++ [93]

theorem spells_list {levels : ℕ} {items : List (Text × Json)}
    (spelled : ∀ item ∈ items, Spells dialect levels item.1 item.2) :
    Spells dialect (levels + 1) (listText (items.map Prod.fst)) (.list (items.map Prod.snd)) := by
  intro frames room
  rw [Nat.add_comm levels, ← Nat.add_assoc] at room
  have opens : (JsonState.value frames).step dialect 91 = .ok (.firstItem frames) :=
    if_pos (within_of_le (by omega) room)
  refine ⟨.done (.list (items.map Prod.snd)) frames, ?_, holds_done⟩
  rw [listText, List.cons_append, run_cons_of_ok opens]
  cases items with
  | nil => rfl
  | cons item items =>
      rcases spelled item List.mem_cons_self (.list [] :: frames) room with ⟨state, ran, holds⟩
      rw [List.map_cons, separated, List.append_assoc,
        run_append_of_ok (run_firstItem ran holds.begun),
        run_laterItems holds (fun other mem => spelled other (List.mem_cons_of_mem item mem)) room]
      rfl

end

end Foundation
