import Ksnap.Foundation.JsonWriter
import Ksnap.Foundation.Lines

/-!
# Pieces of JSON

What a reader makes of an object that was broken up at line boundaries inside of its
strings. A piece begins within a string, so its first quote ends one string, the next one
begins the name of a member, and the name stands where JSON has punctuation. No such piece
is an object with members.
-/

namespace Foundation

section

variable {dialect : JsonDialect}

/-! ## Up to the first quote -/

/-- No quote has been read yet, or the text is no object with members anyway. -/
def JsonState.Early (state : JsonState) : Prop :=
  state = .value [] ∨ state = .firstKey [] ∨ state.Barred

theorem memberless_of_word {c : CodePoint} {rest : Text} {result : Json}
    (begins : valueStart c = some (.word rest result)) : result.Memberless := by
  rcases valueStart_cases begins with mem | impossible
  · simp only [valueStarts, List.mem_cons, Prod.mk.injEq, List.not_mem_nil, or_false] at mem
    rcases mem with ⟨_, same⟩ | ⟨_, same⟩ | ⟨_, same⟩ | ⟨_, same⟩ | ⟨_, same⟩ | ⟨_, same⟩ |
      ⟨_, same⟩ | ⟨_, same⟩ | ⟨_, same⟩ | ⟨_, same⟩ <;> cases same <;> exact trivial
  · cases impossible

theorem early_beginValue {c : CodePoint} {next : JsonState}
    (begins : beginValue dialect [] c = .ok next) : next.Early := by
  rw [beginValue] at begins
  split at begins
  · cases begins
    exact .inr (.inr (.inl rfl))
  · split at begins <;> cases begins
    exact .inr (.inl rfl)
  · split at begins <;> cases begins
    exact .inr (.inr (.inl rfl))
  · next word =>
      cases begins
      exact .inr (.inr (.inl ⟨rfl, memberless_of_word word⟩))
  · split at begins <;> cases begins
    exact .inr (.inr (.inl ⟨rfl, trivial⟩))
  · cases begins
    exact .inr (.inr (.inl rfl))
  · cases begins

theorem early_step {state next : JsonState} {c : CodePoint} (early : state.Early)
    (notQuote : c ≠ 34) (taken : state.step dialect c = .ok next) : next.Early := by
  rcases early with rfl | rfl | barred
  · rw [JsonState.step] at taken
    split at taken
    · cases taken
      exact .inl rfl
    · exact early_beginValue taken
  · rw [JsonState.step, if_neg notQuote] at taken
    split_ifs at taken <;> cases taken
    · exact .inr (.inl rfl)
    · exact .inr (.inr (.inl ⟨rfl, rfl⟩))
  · exact .inr (.inr (barred_step barred taken))

theorem early_run {state final : JsonState} {input : Text} (early : state.Early)
    (noQuote : 34 ∉ input) (ran : state.run dialect input = .ok final) : final.Early := by
  induction input generalizing state with
  | nil =>
      cases ran
      exact early
  | cons c input ih =>
      rcases run_cons_eq_ok ran with ⟨next, taken, rest⟩
      rw [List.mem_cons, not_or] at noQuote
      exact ih (early_step early (Ne.symm noQuote.1) taken) noQuote.2 rest

theorem memberless_of_early {state : JsonState} {result : Json} (early : state.Early)
    (ended : state.finish dialect = .ok result) : result.Memberless := by
  rcases early with rfl | rfl | barred
  · cases ended
  · cases ended
  · exact memberless_of_barred barred ended

/-! ## Behind it -/

/-- The first member has no name yet, or the text is no object with members anyway. -/
def JsonState.Nameless (state : JsonState) : Prop :=
  (∃ read, state = .key [] read []) ∨ (∃ name, state = .colon [] name []) ∨ state.Barred

theorem memberless_of_nameless {state : JsonState} {result : Json} (nameless : state.Nameless)
    (ended : state.finish dialect = .ok result) : result.Memberless := by
  rcases nameless with ⟨read, rfl⟩ | ⟨name, rfl⟩ | barred
  · cases ended
  · cases ended
  · exact memberless_of_barred barred ended

/-- The rest of an object from the end of one of its strings to the name of a member. -/
def EndsString (rest : Text) : Prop :=
  ∃ between letter more, rest = 34 :: between ++ 34 :: letter :: more ∧ IsPlain between ∧
    97 ≤ letter.val ∧ letter.val ≤ 122

/-- The rest of an object from within one of its strings on. -/
def InsideString (rest : Text) : Prop :=
  ∃ inner tail, rest = inner ++ tail ∧ 34 ∉ inner ∧
    ((∃ more, tail = 92 :: more) ∨ EndsString tail)

/-- A letter is no punctuation. -/
theorem colon_letter {name : Text} {letter : CodePoint} {next : JsonState}
    (isLetter : 97 ≤ letter.val ∧ letter.val ≤ 122) :
    (JsonState.colon [] name []).step dialect letter ≠ .ok next := by
  intro taken
  have notSpace : isJsonSpace letter = false := by
    simp only [isJsonSpace, Bool.or_eq_false_iff, beq_eq_false_iff_ne]
    refine ⟨⟨⟨?_, ?_⟩, ?_⟩, ?_⟩ <;> rintro rfl <;> exact absurd isLetter.1 (by decide)
  have notColon : letter ≠ 58 := by
    rintro rfl
    exact absurd isLetter.1 (by decide)
  rw [JsonState.step, if_neg (Bool.eq_false_iff.mp notSpace), if_neg notColon] at taken
  cases taken

theorem nameless_run_key {between more input : Text} {letter : CodePoint} {final : JsonState}
    (plain : IsPlain between) (isLetter : 97 ≤ letter.val ∧ letter.val ≤ 122)
    (isPrefix : input <+: between ++ 34 :: letter :: more)
    (ran : (JsonState.key [] .start []).run dialect input = .ok final) : final.Nameless := by
  have inName : ∀ part, IsPlain part →
      (JsonState.key [] .start []).run dialect part = .ok (.key [] (.upTo part) []) :=
    fun part plain => run_key (feed_of_isPlain plain [])
  have named : (JsonState.key [] .start []).run dialect (between ++ [34]) =
      .ok (.colon [] between []) := by
    rw [run_append_of_ok (inName between plain)]
    rfl
  have stuck : ∀ rest, (JsonState.key [] .start []).run dialect
      (between ++ [34] ++ letter :: rest) ≠ .ok final := by
    intro rest ran
    rw [run_append_of_ok named] at ran
    rcases run_cons_eq_ok ran with ⟨next, taken, _⟩
    exact colon_letter isLetter taken
  have whole : between ++ [34] ++ [letter] <+: between ++ 34 :: letter :: more := ⟨more, by simp⟩
  rcases List.prefix_or_prefix_of_prefix isPrefix whole with short | ⟨rest, rfl⟩
  · rcases List.prefix_concat_iff.mp short with rfl | shorter
    · exact absurd ran (stuck [])
    · rcases List.prefix_concat_iff.mp shorter with rfl | within
      · rw [named] at ran
        cases ran
        exact .inr (.inl ⟨between, rfl⟩)
      · rw [inName input fun c mem => plain c (within.subset mem)] at ran
        cases ran
        exact .inl ⟨_, rfl⟩
  · rw [List.append_assoc, List.singleton_append] at ran
    exact absurd ran (stuck rest)

theorem nameless_step_quote {state next : JsonState} (early : state.Early)
    (taken : state.step dialect 34 = .ok next) : next.Barred ∨ next = .key [] .start [] := by
  rcases early with rfl | rfl | barred
  · cases taken
    exact .inl (.inl rfl)
  · cases taken
    exact .inr rfl
  · exact .inl (barred_step barred taken)

theorem barred_step_backslash {state next : JsonState} (early : state.Early)
    (taken : state.step dialect 92 = .ok next) : next.Barred := by
  rcases early with rfl | rfl | barred
  · cases taken
  · cases taken
  · exact barred_step barred taken

/-- A piece that begins within a string is no object with members. -/
theorem memberless_of_insideString {rest piece : Text} {result : Json}
    (inside : InsideString rest) (isPrefix : piece <+: rest)
    (read : loads dialect piece = .ok result) : result.Memberless := by
  rcases inside with ⟨inner, tail, rfl, noQuote, ends⟩
  rcases loads_eq_ok_iff.mp read with ⟨final, ran, ended⟩
  have start : (JsonState.value []).Early := .inl rfl
  rcases List.prefix_or_prefix_of_prefix isPrefix (List.prefix_append inner tail) with
    short | ⟨behind, rfl⟩
  · have noneRead : 34 ∉ piece := fun mem => noQuote (short.subset mem)
    exact memberless_of_early (early_run start noneRead ran) ended
  · rcases run_append_eq_ok ran with ⟨middle, before, after⟩
    have early := early_run start noQuote before
    have behindPrefix : behind <+: tail := (List.prefix_append_right_inj inner).mp isPrefix
    cases behind with
    | nil =>
        cases after
        exact memberless_of_early early ended
    | cons c behind =>
        rcases run_cons_eq_ok after with ⟨next, taken, later⟩
        rcases ends with ⟨more, rfl⟩ | ⟨between, letter, more, rfl, plain, isLetter⟩
        · rw [List.cons_prefix_cons] at behindPrefix
          rcases behindPrefix with ⟨rfl, _⟩
          have barred := barred_step_backslash early taken
          exact memberless_of_barred (barred_run barred later) ended
        · rw [List.cons_append, List.cons_prefix_cons] at behindPrefix
          rcases behindPrefix with ⟨rfl, keyPrefix⟩
          rcases nameless_step_quote early taken with barred | rfl
          · exact memberless_of_barred (barred_run barred later) ended
          · exact memberless_of_nameless (nameless_run_key plain isLetter keyPrefix later) ended

/-! ## Pieces that get stuck -/

/-- The input is refused somewhere, and the text is not complete before. -/
def JsonState.strands (dialect : JsonDialect) (state : JsonState) : Text → Bool
  | [] => false
  | c :: input =>
      (match state.finish dialect with
        | .ok _ => false
        | .error _ => true) &&
      match state.step dialect c with
      | .ok next => next.strands dialect input
      | .error _ => true

theorem not_finish_of_strands {state final : JsonState} {input rest piece : Text} {result : Json}
    (strands : state.strands dialect input = true) (isPrefix : piece <+: input ++ rest)
    (ran : state.run dialect piece = .ok final) : final.finish dialect ≠ .ok result := by
  induction input generalizing state piece with
  | nil => cases strands
  | cons c input ih =>
      rw [JsonState.strands, Bool.and_eq_true] at strands
      rcases strands with ⟨incomplete, later⟩
      cases piece with
      | nil =>
          cases ran
          intro ended
          rw [ended] at incomplete
          cases incomplete
      | cons d piece =>
          rw [List.cons_append, List.cons_prefix_cons] at isPrefix
          rcases isPrefix with ⟨rfl, isPrefix⟩
          rcases run_cons_eq_ok ran with ⟨next, taken, ranLater⟩
          rw [taken] at later
          exact ih later isPrefix ranLater

/-! ## White space around a piece -/

theorem dropWhile_prefix_dropWhile {α : Type} {p : α → Bool} {first second : List α}
    (isPrefix : first <+: second) : first.dropWhile p <+: second.dropWhile p := by
  induction first generalizing second with
  | nil => exact List.nil_prefix
  | cons c first ih =>
      rcases isPrefix with ⟨rest, rfl⟩
      rw [List.cons_append, List.dropWhile_cons, List.dropWhile_cons]
      split
      · exact ih (List.prefix_append first rest)
      · exact ⟨rest, rfl⟩

theorem insideString_dropWhile {rest : Text} (inside : InsideString rest) :
    InsideString (rest.dropWhile isWhitespace) := by
  rcases inside with ⟨inner, tail, rfl, noQuote, ends⟩
  have visible : tail.dropWhile isWhitespace = tail := by
    rcases ends with ⟨more, rfl⟩ | ⟨between, letter, more, rfl, _⟩ <;> rfl
  refine ⟨inner.dropWhile isWhitespace, tail, ?_, ?_, ends⟩
  · rw [List.dropWhile_append]
    split
    · next all => rw [visible, List.isEmpty_iff.mp all, List.nil_append]
    · rfl
  · exact fun mem => noQuote ((List.dropWhile_suffix isWhitespace).subset mem)

theorem InsideString.append {rest : Text} (inside : InsideString rest) (more : Text) :
    InsideString (rest ++ more) := by
  rcases inside with ⟨inner, tail, rfl, noQuote, ends⟩
  refine ⟨inner, tail ++ more, List.append_assoc .., noQuote, ?_⟩
  rcases ends with ⟨behind, rfl⟩ | ⟨between, letter, behind, rfl, plain, isLetter⟩
  · exact .inl ⟨behind ++ more, rfl⟩
  · exact .inr ⟨between, letter, behind ++ more, by simp, plain, isLetter⟩

theorem memberless_of_strip {rest piece : Text} {result : Json} (inside : InsideString rest)
    (isPrefix : piece <+: rest) (read : loads dialect (strip piece) = .ok result) :
    result.Memberless := by
  have front : strip piece <+: rest.dropWhile isWhitespace :=
    (List.rdropWhile_prefix isWhitespace _).trans (dropWhile_prefix_dropWhile isPrefix)
  exact memberless_of_insideString (insideString_dropWhile inside) front read

/-! ## Where a text can be cut -/

/-- Whatever stands behind a line boundary begins within a string. -/
def CutInStrings (whole : Text) : Prop :=
  ∀ front c rest, whole = front ++ c :: rest → isLineBoundary c = true → InsideString rest

theorem CutInStrings.of_inner {whole : Text} (inner : ∀ c ∈ whole, isLineBoundary c = false) :
    CutInStrings whole := by
  rintro front c rest rfl boundary
  rw [inner c (List.mem_append_right front List.mem_cons_self)] at boundary
  cases boundary

theorem CutInStrings.append {first second : Text} (cut : CutInStrings second)
    (inner : ∀ c ∈ first, isLineBoundary c = false) : CutInStrings (first ++ second) := by
  intro front c rest same boundary
  rcases List.append_eq_append_iff.mp same with ⟨more, rfl, behind⟩ | ⟨more, isFirst, behind⟩
  · exact cut more c rest behind boundary
  · cases more with
    | nil => exact cut [] c rest behind.symm boundary
    | cons d more =>
        cases behind
        rw [inner c (isFirst ▸ List.mem_append_right front List.mem_cons_self)] at boundary
        cases boundary

/-- A character that is the last one of a string. -/
theorem CutInStrings.cons {tail : Text} (cut : CutInStrings tail) (ends : EndsString tail)
    (c : CodePoint) : CutInStrings (c :: tail) := by
  intro front d rest same boundary
  cases front with
  | nil =>
      cases same
      exact ⟨[], tail, rfl, List.not_mem_nil, .inr ends⟩
  | cons e front =>
      cases same
      exact cut front d rest rfl boundary

/-- Quotes are written with a backslash, and no form of an escape breaks a line. -/
def EscapesQuotes (escape : CodePoint → Text) : Prop :=
  ∀ c, (escape c = [c] ∧ c ≠ 34) ∨
    ∃ more, escape c = 92 :: more ∧ ∀ d ∈ more, isLineBoundary d = false

theorem insideString_escaped {escape : CodePoint → Text} (escapes : EscapesQuotes escape)
    {tail : Text} (ends : EndsString tail) (value : Text) :
    InsideString (value.flatMap escape ++ tail) := by
  induction value with
  | nil => exact ⟨[], tail, rfl, List.not_mem_nil, .inr ends⟩
  | cons c value ih =>
      rw [List.flatMap_cons, List.append_assoc]
      rcases escapes c with ⟨same, notQuote⟩ | ⟨more, same, _⟩
      · rcases ih with ⟨inner, behind, split, noQuote, closes⟩
        rw [same, split]
        refine ⟨c :: inner, behind, rfl, ?_, closes⟩
        rw [List.mem_cons, not_or]
        exact ⟨Ne.symm notQuote, noQuote⟩
      · rw [same]
        exact ⟨[], _, rfl, List.not_mem_nil, .inl ⟨_, rfl⟩⟩

theorem CutInStrings.escaped {escape : CodePoint → Text} (escapes : EscapesQuotes escape)
    {tail : Text} (cut : CutInStrings tail) (ends : EndsString tail) (value : Text) :
    CutInStrings (value.flatMap escape ++ tail) := by
  induction value with
  | nil => exact cut
  | cons c value ih =>
      rw [List.flatMap_cons, List.append_assoc]
      rcases escapes c with ⟨same, _⟩ | ⟨more, same, inner⟩
      · rw [same]
        intro front d rest whole boundary
        cases front with
        | nil =>
            cases whole
            exact insideString_escaped escapes ends value
        | cons e front => exact ih front d rest (List.cons.inj whole).2 boundary
      · rw [same]
        apply ih.append
        exact List.forall_mem_cons.mpr ⟨rfl, inner⟩

end

end Foundation
