import Ksnap.Foundation.Text

/-!
# Lines

A text stream knows one newline, `str.splitlines` knows many. Here is which lines of a
stream come out of decoding, the unification of newlines and `splitlines` as they are or with
less white space around them, and where the lines that come out can begin.
-/

namespace Foundation

section Stands

variable {α : Type}

/-- A part that begins and ends at a newline or at an end of the whole. -/
def Stands (newline : α) (part whole : List α) : Prop :=
  ∃ before after, whole = before ++ part ++ after ∧
    (before = [] ∨ ∃ front, before = front ++ [newline]) ∧
    (after = [] ∨ ∃ back, after = newline :: back)

/-- One of the lines that the newlines cut a sequence into. -/
def IsLineOf (newline : α) (line whole : List α) : Prop :=
  newline ∉ line ∧ Stands newline line whole

end Stands

/-- A line of bytes is a line of the text. -/
theorem decodeStrict_stands {line raw : Bytes} {whole : Text} (stands : Stands 10 line raw)
    (decoded : decodeStrict raw = some whole) :
    ∃ part, decodeStrict line = some part ∧ Stands 10 part whole := by
  have ascii : (10 : UInt8).toNat < 0x80 := by decide
  rcases stands with ⟨before, after, rfl, atStart | ⟨front, afterNewline⟩, atEnd | ⟨back, newline⟩⟩
  · subst atStart atEnd
    rw [List.nil_append, List.append_nil] at decoded
    exact ⟨whole, decoded, [], [], by simp, .inl rfl, .inl rfl⟩
  · subst atStart newline
    rw [List.nil_append] at decoded
    rcases (decodeStrict_append_ascii ascii).mp decoded with ⟨part, rest, isPart, _, rfl⟩
    exact ⟨part, isPart, [], 10 :: rest, rfl, .inl rfl, .inr ⟨rest, rfl⟩⟩
  · subst afterNewline atEnd
    rw [List.append_nil, List.append_assoc] at decoded
    rcases (decodeStrict_append_ascii ascii).mp decoded with ⟨first, part, _, isPart, rfl⟩
    exact ⟨part, isPart, first ++ [10], [], by simp, .inr ⟨first, rfl⟩, .inl rfl⟩
  · subst afterNewline newline
    rw [List.append_assoc, List.append_assoc] at decoded
    rcases (decodeStrict_append_ascii ascii).mp decoded with ⟨first, two, _, isTwo, rfl⟩
    rcases (decodeStrict_append_ascii ascii).mp isTwo with ⟨part, rest, isPart, _, rfl⟩
    exact ⟨part, isPart, first ++ [10], 10 :: rest, by simp, .inr ⟨first, rfl⟩,
      .inr ⟨rest, rfl⟩⟩

/-! ## Newlines -/

theorem universalNewlines_cons {c : CodePoint} (notReturn : c ≠ 13) (rest : Text) :
    universalNewlines (c :: rest) = c :: universalNewlines rest := by
  rw [universalNewlines, if_neg notReturn]
  rintro _ rfl
  exact absurd rfl notReturn

theorem universalNewlines_append {first : Text} (noReturn : 13 ∉ first) (rest : Text) :
    universalNewlines (first ++ rest) = first ++ universalNewlines rest := by
  induction first with
  | nil => rfl
  | cons c first ih =>
      rw [List.mem_cons, not_or] at noReturn
      rw [List.cons_append, universalNewlines_cons (Ne.symm noReturn.1), ih noReturn.2]
      rfl

/-- What stands behind a newline is unified on its own. -/
theorem universalNewlines_newline (before : Text) :
    ∃ front, ∀ rest, universalNewlines (before ++ 10 :: rest) =
      front ++ 10 :: universalNewlines rest := by
  induction before using universalNewlines.induct with
  | case1 => exact ⟨[], universalNewlines_cons (by decide)⟩
  | case2 before ih =>
      rcases ih with ⟨front, same⟩
      refine ⟨10 :: front, fun rest => ?_⟩
      rw [List.cons_append, List.cons_append, universalNewlines, same]
      rfl
  | case3 c before notPair ih =>
      by_cases isReturn : c = 13
      · subst isReturn
        cases before with
        | nil =>
            refine ⟨[], fun rest => ?_⟩
            rw [List.cons_append, List.nil_append, universalNewlines]
            rfl
        | cons d before =>
            rcases ih with ⟨front, same⟩
            have notNewline : d ≠ 10 := fun newline => notPair before rfl (newline ▸ rfl)
            refine ⟨10 :: front, fun rest => ?_⟩
            rw [List.cons_append, universalNewlines, same]
            · rfl
            · intro later _ impossible
              exact notNewline (List.cons.inj impossible).1
      · rcases ih with ⟨front, same⟩
        refine ⟨c :: front, fun rest => ?_⟩
        rw [List.cons_append, universalNewlines_cons isReturn, same]
        rfl

/-- A character that is no newline keeps what is in front of it from what is behind it. -/
theorem universalNewlines_solid {c : CodePoint} (notNewline : c ≠ 10) (before rest : Text) :
    universalNewlines (before ++ c :: rest) =
      universalNewlines before ++ universalNewlines (c :: rest) := by
  induction before using universalNewlines.induct with
  | case1 => rfl
  | case2 before ih =>
      rw [List.cons_append, List.cons_append, universalNewlines, universalNewlines, ih]
      rfl
  | case3 d before notPair ih =>
      have own : universalNewlines (d :: before) =
          (if d = 13 then 10 else d) :: universalNewlines before := by
        rw [universalNewlines]
        exact notPair
      rw [List.cons_append, universalNewlines, ih, own]
      · rfl
      · intro later isReturn impossible
        cases before with
        | nil => exact notNewline (List.cons.inj impossible).1
        | cons e before =>
            rw [List.cons_append, List.cons.injEq] at impossible
            exact notPair before isReturn (impossible.1 ▸ rfl)

/-! ## `splitlines` -/

theorem splitlines_boundary {c : CodePoint} (boundary : isLineBoundary c = true) (rest : Text)
    (alone : c = 13 → ∀ later, rest ≠ 10 :: later) :
    splitlines (c :: rest) = [] :: splitlines rest := by
  rw [splitlines, if_pos boundary]
  intro later isReturn isNewline
  exact alone isReturn later isNewline

theorem splitlines_cons {c : CodePoint} (inner : isLineBoundary c = false) (rest : Text) :
    splitlines (c :: rest) = putOnFirst c (splitlines rest) := by
  rw [splitlines, if_neg (Bool.eq_false_iff.mp inner)]
  rintro _ rfl
  cases inner

theorem splitlines_newline_front (before : Text) :
    ∃ front, front ≠ [] ∧ ∀ rest, splitlines (before ++ 10 :: rest) = front ++ splitlines rest := by
  induction before using splitlines.induct with
  | case1 =>
      refine ⟨[[]], List.cons_ne_nil _ _, fun rest => ?_⟩
      exact splitlines_boundary rfl rest fun impossible => absurd impossible (by decide)
  | case2 before ih =>
      rcases ih with ⟨front, _, same⟩
      refine ⟨[] :: front, List.cons_ne_nil _ _, fun rest => ?_⟩
      rw [List.cons_append, List.cons_append, splitlines, same]
      rfl
  | case3 c before notPair boundary ih =>
      rcases ih with ⟨front, _, same⟩
      by_cases pair : c = 13 ∧ before = []
      · rcases pair with ⟨rfl, rfl⟩
        refine ⟨[[]], List.cons_ne_nil _ _, fun rest => ?_⟩
        rw [List.cons_append, List.nil_append, splitlines]
        rfl
      · refine ⟨[] :: front, List.cons_ne_nil _ _, fun rest => ?_⟩
        rw [List.cons_append, splitlines_boundary boundary, same]
        · rfl
        · intro isReturn later impossible
          cases before with
          | nil => exact pair ⟨isReturn, rfl⟩
          | cons d before =>
              rw [List.cons_append, List.cons.injEq] at impossible
              exact notPair before isReturn (impossible.1 ▸ rfl)
  | case4 c before notPair inner ih =>
      rcases ih with ⟨front, some, same⟩
      cases front with
      | nil => exact absurd rfl some
      | cons line front =>
          refine ⟨(c :: line) :: front, List.cons_ne_nil _ _, fun rest => ?_⟩
          rw [List.cons_append, splitlines_cons (Bool.eq_false_iff.mpr inner), same]
          rfl

/-- What stands behind a newline is split on its own. -/
theorem splitlines_newline (before rest : Text) :
    splitlines (before ++ 10 :: rest) = splitlines (before ++ [10]) ++ splitlines rest := by
  rcases splitlines_newline_front before with ⟨front, _, same⟩
  rw [same rest, same [], splitlines, List.append_nil]

theorem splitlines_inner {part : Text} (inner : ∀ c ∈ part, isLineBoundary c = false)
    (some : part ≠ []) (back : Text) :
    splitlines part = [part] ∧ splitlines (part ++ 10 :: back) = part :: splitlines back := by
  induction part with
  | nil => exact absurd rfl some
  | cons c part ih =>
      have first := inner c List.mem_cons_self
      rw [List.cons_append, splitlines_cons first, splitlines_cons first]
      cases part with
      | nil =>
          refine ⟨rfl, ?_⟩
          rw [List.nil_append, splitlines_boundary rfl back fun impossible =>
            absurd impossible (by decide)]
          rfl
      | cons d part =>
          have later := ih (fun e mem => inner e (List.mem_cons_of_mem _ mem))
            (List.cons_ne_nil _ _)
          rw [later.1, later.2]
          exact ⟨rfl, rfl⟩

theorem splitlines_lines {lines : List Text}
    (inner : ∀ line ∈ lines, ∀ c ∈ line, isLineBoundary c = false) :
    splitlines (lines.flatMap (· ++ [10])) = lines := by
  induction lines with
  | nil => rfl
  | cons line lines ih =>
      have later := ih fun other mem => inner other (List.mem_cons_of_mem _ mem)
      rw [List.flatMap_cons, List.append_assoc, List.singleton_append]
      cases line with
      | nil =>
          rw [List.nil_append, splitlines_boundary rfl _ fun impossible =>
            absurd impossible (by decide), later]
      | cons c line =>
          have own := inner (c :: line) List.mem_cons_self
          rw [(splitlines_inner own (List.cons_ne_nil _ _) _).2, later]

/-- The lines of a text that is written behind a newline. -/
theorem splitlines_decoded (before : Bytes) {rest : Text} (encodable : Encodable rest)
    (noReturn : 13 ∉ rest) :
    splitlines (universalNewlines (decodeReplace (before ++ 10 :: utf8 rest))) =
      splitlines (universalNewlines (decodeReplace (before ++ [10]))) ++ splitlines rest := by
  have newline : (10 : UInt8).toNat < 0x80 := by decide
  have same : universalNewlines rest = rest := by
    simpa [universalNewlines] using universalNewlines_append noReturn []
  rcases universalNewlines_newline (decodeReplace before) with ⟨front, unified⟩
  rw [decodeReplace_append_ascii newline, decodeReplace_append_ascii newline,
    decodeReplace_utf8 encodable]
  change splitlines (universalNewlines (decodeReplace before ++ 10 :: rest)) =
    splitlines (universalNewlines (decodeReplace before ++ 10 :: [])) ++ splitlines rest
  rw [unified, unified, same, splitlines_newline]
  rfl

/-- Up to the first boundary a text is one line. -/
theorem splitlines_takeWhile {c : CodePoint} (inner : isLineBoundary c = false) (rest : Text) :
    ∃ lines, splitlines (c :: rest) = (c :: rest).takeWhile (!isLineBoundary ·) :: lines := by
  induction rest generalizing c with
  | nil =>
      refine ⟨[], ?_⟩
      rw [splitlines_cons inner]
      simp [splitlines, putOnFirst, inner]
  | cons d rest ih =>
      rw [splitlines_cons inner, List.takeWhile_cons_of_pos (by simp [inner])]
      cases boundary : isLineBoundary d with
      | false =>
          rcases ih boundary with ⟨lines, same⟩
          exact ⟨lines, by rw [same]; rfl⟩
      | true =>
          have empty : ∃ lines, splitlines (d :: rest) = [] :: lines := by
            rw [splitlines.eq_def]
            split
            · next nothing => cases nothing
            · exact ⟨_, rfl⟩
            · next single =>
              cases single
              exact ⟨_, if_pos boundary⟩
          rcases empty with ⟨lines, same⟩
          refine ⟨lines, ?_⟩
          rw [same, List.takeWhile_cons_of_neg (by simp [boundary])]
          rfl

/-- `splitlines` leaves no boundary in a line. -/
theorem inner_of_mem_splitlines {whole line : Text} (mem : line ∈ splitlines whole) :
    ∀ c ∈ line, isLineBoundary c = false := by
  have empty : ∀ c ∈ ([] : Text), isLineBoundary c = false :=
    fun c mem => absurd mem List.not_mem_nil
  induction whole using splitlines.induct generalizing line with
  | case1 => cases mem
  | case2 rest ih =>
      rw [splitlines] at mem
      rcases List.mem_cons.mp mem with rfl | later
      · exact empty
      · exact ih later
  | case3 c rest notPair boundary ih =>
      rw [splitlines, if_pos boundary] at mem
      · rcases List.mem_cons.mp mem with rfl | later
        · exact empty
        · exact ih later
      · exact notPair
  | case4 c rest notPair inner ih =>
      have own : isLineBoundary c = false := Bool.eq_false_iff.mpr inner
      rw [splitlines_cons own] at mem
      cases split : splitlines rest with
      | nil =>
          rw [split] at mem
          cases List.mem_singleton.mp mem
          exact List.forall_mem_singleton.mpr own
      | cons first later =>
          rw [split] at mem ih
          rcases List.mem_cons.mp mem with rfl | other
          · exact List.forall_mem_cons.mpr ⟨own, ih List.mem_cons_self⟩
          · exact ih (List.mem_cons_of_mem first other)

/-- A line that begins behind a boundary. -/
def BehindBoundary (line whole : Text) : Prop :=
  ∃ front c rest, whole = front ++ c :: rest ∧ isLineBoundary c = true ∧ line <+: rest

theorem BehindBoundary.cons {line whole : Text} (c : CodePoint)
    (behind : BehindBoundary line whole) : BehindBoundary line (c :: whole) := by
  rcases behind with ⟨front, d, rest, rfl, boundary, isPrefix⟩
  exact ⟨c :: front, d, rest, rfl, boundary, isPrefix⟩

theorem behindBoundary_of_mem {lines : List Text} {whole line : Text} {c : CodePoint}
    (boundary : isLineBoundary c = true)
    (first : ∀ line others, lines = line :: others →
      line <+: whole ∧ ∀ other ∈ others, BehindBoundary other whole)
    (mem : line ∈ lines) : BehindBoundary line (c :: whole) := by
  cases lines with
  | nil => cases mem
  | cons head others =>
      rcases first head others rfl with ⟨isPrefix, later⟩
      rcases List.mem_cons.mp mem with rfl | other
      · exact ⟨[], c, whole, rfl, boundary, isPrefix⟩
      · exact (later line other).cons c

/-- The first line begins the text, and every other one stands behind a boundary. -/
theorem splitlines_shape {whole line : Text} {others : List Text}
    (lines : splitlines whole = line :: others) :
    line <+: whole ∧ ∀ other ∈ others, BehindBoundary other whole := by
  induction whole using splitlines.induct generalizing line others with
  | case1 => cases lines
  | case2 rest ih =>
      rw [splitlines] at lines
      cases lines
      refine ⟨List.nil_prefix, fun other mem => ?_⟩
      exact (behindBoundary_of_mem rfl (fun _ _ => ih) mem).cons 13
  | case3 c rest notPair boundary ih =>
      rw [splitlines, if_pos boundary] at lines
      · cases lines
        exact ⟨List.nil_prefix, fun other mem =>
          behindBoundary_of_mem boundary (fun _ _ => ih) mem⟩
      · exact notPair
  | case4 c rest notPair inner ih =>
      rw [splitlines_cons (Bool.eq_false_iff.mpr inner)] at lines
      cases split : splitlines rest with
      | nil =>
          rw [split] at lines
          cases lines
          exact ⟨⟨rest, rfl⟩, fun other mem => absurd mem List.not_mem_nil⟩
      | cons first later =>
          rw [split] at lines
          cases lines
          rcases ih split with ⟨isPrefix, behind⟩
          exact ⟨List.cons_prefix_cons.mpr ⟨rfl, isPrefix⟩, fun other mem =>
            (behind other mem).cons c⟩

/-! ## Lines with white space around them -/

/-- A text is what `strip` leaves of it, with white space around. -/
theorem strip_parts (value : Text) : ∃ front back, value = front ++ (strip value ++ back) ∧
    (∀ c ∈ front, isWhitespace c = true) ∧ ∀ c ∈ back, isWhitespace c = true := by
  refine ⟨value.takeWhile isWhitespace, (value.dropWhile isWhitespace).rtakeWhile isWhitespace,
    ?_, fun c => List.mem_takeWhile_imp, fun c => List.mem_rtakeWhile_imp⟩
  rw [strip, List.rdropWhile_append_rtakeWhile, List.takeWhile_append_dropWhile]

/-- White space behind what `strip` has left goes again. -/
theorem strip_append {value blank : Text} (some : strip value ≠ [])
    (isBlank : ∀ c ∈ blank, isWhitespace c = true) :
    strip (strip value ++ blank) = strip value := by
  have visible : isWhitespace ((strip value).head some) = false := by
    have isPrefix : strip value <+: value.dropWhile isWhitespace := List.rdropWhile_prefix _ _
    rw [isPrefix.head some]
    exact List.head_dropWhile_not _ _
  have front : (strip value ++ blank).dropWhile isWhitespace = strip value ++ blank := by
    cases same : strip value with
    | nil => exact absurd same some
    | cons c rest =>
        simp only [same, List.head_cons] at visible
        rw [List.cons_append, List.dropWhile_cons_of_neg (by simp [visible])]
  have back : (strip value ++ blank).rdropWhile isWhitespace =
      (strip value).rdropWhile isWhitespace := by
    rw [List.rdropWhile, List.reverse_append, List.dropWhile_append_of_pos]
    · rfl
    · exact fun c mem => isBlank c (List.mem_reverse.mp mem)
  rw [strip, front, back]
  exact List.rdropWhile_idempotent _ _

/-- White space in front of a line, or between it and the newline before it, changes nothing of
it. -/
theorem exists_line_cons {c : CodePoint} {rest core : Text} (white : isWhitespace c = true)
    (found : ∃ line ∈ splitlines (universalNewlines rest), strip line = core) :
    ∃ line ∈ splitlines (universalNewlines (c :: rest)), strip line = core := by
  have put : ∀ d, isWhitespace d = true → d ≠ 13 →
      ∃ line ∈ splitlines (d :: universalNewlines rest), strip line = core := by
    intro d white notReturn
    rcases found with ⟨line, mem, stripped⟩
    cases boundary : isLineBoundary d with
    | true =>
        rw [splitlines_boundary boundary _ fun isReturn => absurd isReturn notReturn]
        exact ⟨line, List.mem_cons_of_mem _ mem, stripped⟩
    | false =>
        rw [splitlines_cons boundary]
        cases split : splitlines (universalNewlines rest) with
        | nil =>
            rw [split] at mem
            cases mem
        | cons first lines =>
            rw [split] at mem
            rcases List.mem_cons.mp mem with rfl | later
            · refine ⟨d :: line, List.mem_cons_self, ?_⟩
              rw [strip, List.dropWhile_cons_of_pos white]
              exact stripped
            · exact ⟨line, List.mem_cons_of_mem _ later, stripped⟩
  by_cases isReturn : c = 13
  · subst isReturn
    cases rest with
    | nil => exact put 10 rfl (by decide)
    | cons d rest =>
        by_cases newline : d = 10
        · subst newline
          rw [universalNewlines_cons (by decide)] at found
          exact found
        · rw [universalNewlines]
          · exact put 10 rfl (by decide)
          · intro later _ impossible
            exact newline (List.cons.inj impossible).1
  · rw [universalNewlines_cons isReturn]
    exact put c white isReturn

/-- Nothing but white space stands between white space and the boundary behind it. -/
theorem white_takeWhile {back after : Text} (white : ∀ c ∈ back, isWhitespace c = true)
    (ends : after = [] ∨ ∃ later, after = 10 :: later) :
    ∀ c ∈ (universalNewlines (back ++ after)).takeWhile (!isLineBoundary ·),
      isWhitespace c = true := by
  induction back with
  | nil =>
      rcases ends with rfl | ⟨later, rfl⟩
      · exact fun c mem => absurd mem List.not_mem_nil
      · rw [List.nil_append, universalNewlines_cons (by decide),
          List.takeWhile_cons_of_neg (by decide)]
        exact fun c mem => absurd mem List.not_mem_nil
  | cons d back ih =>
      rw [List.forall_mem_cons] at white
      by_cases isReturn : d = 13
      · subst isReturn
        have newline : ∃ rest, universalNewlines (13 :: (back ++ after)) = 10 :: rest := by
          rw [universalNewlines.eq_def]
          split
          · next nothing => cases nothing
          · exact ⟨_, rfl⟩
          · next single =>
            cases single
            exact ⟨_, rfl⟩
        rcases newline with ⟨rest, same⟩
        rw [List.cons_append, same, List.takeWhile_cons_of_neg (by decide)]
        exact fun c mem => absurd mem List.not_mem_nil
      · rw [List.cons_append, universalNewlines_cons isReturn, List.takeWhile_cons]
        split
        · exact List.forall_mem_cons.mpr ⟨white.1, ih white.2⟩
        · exact fun c mem => absurd mem List.not_mem_nil

/-- A line of the stream that holds no boundary but in the white space around it comes out in one
piece. -/
theorem exists_line_of_stands {part whole : Text} (stands : Stands 10 part whole)
    (some : strip part ≠ []) (inner : ∀ c ∈ strip part, isLineBoundary c = false) :
    ∃ line ∈ splitlines (universalNewlines whole), strip line = strip part := by
  have noReturn : 13 ∉ strip part := by
    intro mem
    cases inner 13 mem
  rcases strip_parts part with ⟨front, back, isPart, whiteFront, whiteBack⟩
  have fromStart : ∀ after, (after = [] ∨ ∃ later, after = 10 :: later) →
      ∃ line ∈ splitlines (universalNewlines (part ++ after)), strip line = strip part := by
    intro after ends
    have behind : ∃ line ∈ splitlines (universalNewlines (strip part ++ (back ++ after))),
        strip line = strip part := by
      rw [universalNewlines_append noReturn]
      cases core : strip part with
      | nil => exact absurd core some
      | cons c rest =>
          have isInner := inner
          rw [core] at isInner
          rcases splitlines_takeWhile (isInner c List.mem_cons_self)
            (rest ++ universalNewlines (back ++ after)) with ⟨lines, same⟩
          rw [List.cons_append, same]
          refine ⟨_, List.mem_cons_self, ?_⟩
          rw [← List.cons_append, List.takeWhile_append_of_pos (by simpa using isInner), ← core]
          exact strip_append some (white_takeWhile whiteBack ends)
    have whole : part ++ after = front ++ (strip part ++ (back ++ after)) := by
      conv_lhs => rw [isPart]
      simp
    rw [whole]
    clear whole isPart
    induction front with
    | nil => exact behind
    | cons c front ih =>
        rw [List.forall_mem_cons] at whiteFront
        exact exists_line_cons whiteFront.1 (ih whiteFront.2)
  rcases stands with ⟨before, after, rfl, begins, ends⟩
  rw [List.append_assoc]
  rcases begins with rfl | ⟨earlier, rfl⟩
  · exact fromStart after ends
  · rcases universalNewlines_newline earlier with ⟨unified, same⟩
    rcases fromStart after ends with ⟨line, mem, stripped⟩
    refine ⟨line, ?_, stripped⟩
    rw [List.append_assoc, List.singleton_append, same, splitlines_newline]
    exact List.mem_append_right _ mem

end Foundation
