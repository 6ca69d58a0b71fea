import Ksnap.Foundation.Json

/-!
# Reading JSON

`json.loads` of Python as a machine that takes one character after the other, with the
lists and objects that are open on its stack. Python reads more than the standard says,
the constants `NaN` and `Infinity`, and less: nesting is limited, and so is the number of
digits of an integer. A dialect says which of this is in force.

What a dialect reads, a wider one reads as the same value. White space around a text does
not matter, and nothing but white space can follow a text that is complete.
-/

namespace Foundation

/-- Why a text is not read. -/
inductive JsonError : Type where
  | invalid
  | tooDeep
  | tooLong
  deriving DecidableEq

structure JsonDialect where
  constants : Bool
  depth : Option ℕ
  digits : Option ℕ

/-- What the standard calls JSON. -/
def JsonDialect.standard : JsonDialect where
  constants := false
  depth := none
  digits := none

/-- Python with room for so much nesting, and `sys.get_int_max_str_digits()`. -/
def JsonDialect.python (depth : ℕ) : JsonDialect where
  constants := true
  depth := some depth
  digits := some 4300

/-- All of it without limits. -/
def JsonDialect.unlimited : JsonDialect where
  constants := true
  depth := none
  digits := none

def within : Option ℕ → ℕ → Bool
  | none, _ => true
  | some limit, number => number ≤ limit

/-! ## Characters -/

/-- Space, tab, newline and carriage return. -/
def isJsonSpace (c : CodePoint) : Bool :=
  c == 32 || c == 9 || c == 10 || c == 13

def isDecimal (c : CodePoint) : Bool :=
  48 ≤ c.val && c.val ≤ 57

def hexValue (c : CodePoint) : Option ℕ :=
  if isDecimal c then some (c.val - 48)
  else if 97 ≤ c.val ∧ c.val ≤ 102 then some (c.val - 87)
  else if 65 ≤ c.val ∧ c.val ≤ 70 then some (c.val - 55)
  else none

/-! ## Strings -/

/-- Where in an escape sequence a string is. -/
inductive EscapePart : Type where
  | plain
  | backslash
  | hex (missing : ℕ) (bits : ℕ)

/-- The characters so far, and whether the last one came as the escape of a high surrogate. -/
structure StringRead where
  chars : Text
  high : Bool
  escape : EscapePart

def StringRead.start : StringRead where
  chars := []
  high := false
  escape := .plain

def StringRead.put (read : StringRead) (c : CodePoint) : StringRead where
  chars := read.chars ++ [c]
  high := false
  escape := .plain

/-- The escapes of one letter. -/
def shortEscape (c : CodePoint) : Option CodePoint :=
  if c = 34 ∨ c = 92 ∨ c = 47 then some c
  else if c = 98 then some 8
  else if c = 102 then some 12
  else if c = 110 then some 10
  else if c = 114 then some 13
  else if c = 116 then some 9
  else none

/-- A character from its four digits. The escapes of two surrogates are one character. -/
def StringRead.putEscaped (read : StringRead) (bits : ℕ) : StringRead :=
  match read.high, read.chars.getLast? with
  | true, some first =>
      if 0xDC00 ≤ bits ∧ bits ≤ 0xDFFF then
        { chars := read.chars.dropLast ++
            [codePoint (0x10000 + (first.val - 0xD800) * 1024 + (bits - 0xDC00))]
          high := false
          escape := .plain }
      else
        { chars := read.chars ++ [codePoint bits]
          high := 0xD800 ≤ bits ∧ bits ≤ 0xDBFF
          escape := .plain }
  | _, _ =>
      { chars := read.chars ++ [codePoint bits]
        high := 0xD800 ≤ bits ∧ bits ≤ 0xDBFF
        escape := .plain }

/-- The next character of a string: it ends the string, belongs to it, or is none. -/
def StringRead.step (read : StringRead) (c : CodePoint) : Option (Text ⊕ StringRead) :=
  match read.escape with
  | .plain =>
      if c = 34 then some (.inl read.chars)
      else if c = 92 then some (.inr { read with escape := .backslash })
      else if c.val < 0x20 then none
      else some (.inr (read.put c))
  | .backslash =>
      if c = 117 then some (.inr { read with escape := .hex 3 0 })
      else (shortEscape c).map fun short => .inr (read.put short)
  | .hex missing bits =>
      (hexValue c).map fun digit =>
        match missing with
        | 0 => .inr (read.putEscaped (bits * 16 + digit))
        | missing + 1 => .inr { read with escape := .hex missing (bits * 16 + digit) }

/-! ## Numbers -/

/-- Where in a number its last character stands. -/
inductive NumberPart : Type where
  | minus
  | zero
  | integer
  | point
  | fraction
  | exponent
  | sign
  | exponentDigits
  deriving DecidableEq

def NumberPart.next (part : NumberPart) (c : CodePoint) : Option NumberPart :=
  match part with
  | .minus => if c = 48 then some .zero else if isDecimal c then some .integer else none
  | .zero => if c = 46 then some .point else if c = 101 ∨ c = 69 then some .exponent else none
  | .integer =>
      if isDecimal c then some .integer
      else if c = 46 then some .point
      else if c = 101 ∨ c = 69 then some .exponent
      else none
  | .point => if isDecimal c then some .fraction else none
  | .fraction =>
      if isDecimal c then some .fraction else if c = 101 ∨ c = 69 then some .exponent else none
  | .exponent =>
      if c = 43 ∨ c = 45 then some .sign else if isDecimal c then some .exponentDigits else none
  | .sign => if isDecimal c then some .exponentDigits else none
  | .exponentDigits => if isDecimal c then some .exponentDigits else none

/-- The number that decimal digits denote. -/
def decimalValue (digits : Text) : ℕ :=
  digits.foldl (fun number c => number * 10 + (c.val - 48)) 0

def unsignedPart : Text → Text
  | 45 :: digits => digits
  | digits => digits

def signedValue : Text → ℤ
  | 45 :: digits => -(decimalValue digits : ℤ)
  | digits => decimalValue digits

/-- A literal that may end here. -/
def numberValue (dialect : JsonDialect) (part : NumberPart) (literal : Text) :
    Except JsonError Json :=
  if part = .zero ∨ part = .integer then
    if within dialect.digits (unsignedPart literal).length then .ok (.integer (signedValue literal))
    else .error .tooLong
  else if part = .fraction ∨ part = .exponentDigits then .ok (.float literal)
  else .error .invalid

/-! ## The machine -/

/-- A list with its items so far, or an object with its members so far and the name of
the next one. -/
inductive JsonFrame : Type where
  | list (items : List Json)
  | dict (members : List (Text × Json)) (name : Text)

inductive JsonState : Type where
  | value (frames : List JsonFrame)
  | firstItem (frames : List JsonFrame)
  | firstKey (frames : List JsonFrame)
  | nextKey (members : List (Text × Json)) (frames : List JsonFrame)
  | key (members : List (Text × Json)) (read : StringRead) (frames : List JsonFrame)
  | colon (members : List (Text × Json)) (name : Text) (frames : List JsonFrame)
  | string (read : StringRead) (frames : List JsonFrame)
  | word (rest : Text) (result : Json) (frames : List JsonFrame)
  | number (part : NumberPart) (literal : Text) (frames : List JsonFrame)
  | done (result : Json) (frames : List JsonFrame)

/-- What a character can begin. -/
inductive ValueStart : Type where
  | string
  | dict
  | list
  | word (rest : Text) (result : Json)
  | constant (rest : Text) (literal : Text)
  | number (part : NumberPart)

def valueStarts : List (CodePoint × ValueStart) :=
  [(34, .string), (123, .dict), (91, .list), (110, .word (text "ull") .null),
    (116, .word (text "rue") (.boolean true)), (102, .word (text "alse") (.boolean false)),
    (78, .constant (text "aN") (text "NaN")), (73, .constant (text "nfinity") (text "Infinity")),
    (45, .number .minus), (48, .number .zero)]

def valueStart (c : CodePoint) : Option ValueStart :=
  match valueStarts.lookup c with
  | some start => some start
  | none => if isDecimal c then some (.number .integer) else none

/-- The first character of a value. -/
def beginValue (dialect : JsonDialect) (frames : List JsonFrame) (c : CodePoint) :
    Except JsonError JsonState :=
  match valueStart c with
  | some .string => .ok (.string .start frames)
  | some .dict =>
      if within dialect.depth (frames.length + 1) then .ok (.firstKey frames) else .error .tooDeep
  | some .list =>
      if within dialect.depth (frames.length + 1) then .ok (.firstItem frames) else .error .tooDeep
  | some (.word rest result) => .ok (.word rest result frames)
  | some (.constant rest literal) =>
      if dialect.constants then .ok (.word rest (.float literal) frames) else .error .invalid
  | some (.number part) => .ok (.number part [c] frames)
  | none => .error .invalid

/-- The comma or bracket behind a value. -/
def closeValue (result : Json) : List JsonFrame → CodePoint → Except JsonError JsonState
  | [], _ => .error .invalid
  | .list items :: outer, c =>
      if c = 44 then .ok (.value (.list (items ++ [result]) :: outer))
      else if c = 93 then .ok (.done (.list (items ++ [result])) outer)
      else .error .invalid
  | .dict members name :: outer, c =>
      if c = 44 then .ok (.nextKey (members ++ [(name, result)]) outer)
      else if c = 125 then .ok (.done (.dict (members ++ [(name, result)])) outer)
      else .error .invalid

/-- A character behind a value. -/
def afterValue (result : Json) (frames : List JsonFrame) (c : CodePoint) :
    Except JsonError JsonState :=
  if isJsonSpace c then .ok (.done result frames) else closeValue result frames c

/-- A character of a word. -/
def continueWord (result : Json) (frames : List JsonFrame) :
    Text → CodePoint → Except JsonError JsonState
  | [], _ => .error .invalid
  | [last], c => if c = last then .ok (.done result frames) else .error .invalid
  | next :: later, c => if c = next then .ok (.word later result frames) else .error .invalid

/-- A character that does not belong to the number in front of it. -/
def endNumber (dialect : JsonDialect) (part : NumberPart) (literal : Text)
    (frames : List JsonFrame) (c : CodePoint) : Except JsonError JsonState :=
  if part = .minus ∧ c = 73 ∧ dialect.constants then
    .ok (.word (text "nfinity") (.float (text "-Infinity")) frames)
  else
    match numberValue dialect part literal with
    | .ok result => afterValue result frames c
    | .error raised => .error raised

def JsonState.step (dialect : JsonDialect) : JsonState → CodePoint → Except JsonError JsonState
  | .value frames, c =>
      if isJsonSpace c then .ok (.value frames) else beginValue dialect frames c
  | .firstItem frames, c =>
      if isJsonSpace c then .ok (.firstItem frames)
      else if c = 93 then .ok (.done (.list []) frames)
      else beginValue dialect (.list [] :: frames) c
  | .firstKey frames, c =>
      if isJsonSpace c then .ok (.firstKey frames)
      else if c = 125 then .ok (.done (.dict []) frames)
      else if c = 34 then .ok (.key [] .start frames)
      else .error .invalid
  | .nextKey members frames, c =>
      if isJsonSpace c then .ok (.nextKey members frames)
      else if c = 34 then .ok (.key members .start frames)
      else .error .invalid
  | .key members read frames, c =>
      match read.step c with
      | none => .error .invalid
      | some (.inl name) => .ok (.colon members name frames)
      | some (.inr more) => .ok (.key members more frames)
  | .colon members name frames, c =>
      if isJsonSpace c then .ok (.colon members name frames)
      else if c = 58 then .ok (.value (.dict members name :: frames))
      else .error .invalid
  | .string read frames, c =>
      match read.step c with
      | none => .error .invalid
      | some (.inl whole) => .ok (.done (.string whole) frames)
      | some (.inr more) => .ok (.string more frames)
  | .word rest result frames, c => continueWord result frames rest c
  | .number part literal frames, c =>
      match part.next c with
      | some part => .ok (.number part (literal ++ [c]) frames)
      | none => endNumber dialect part literal frames c
  | .done result frames, c => afterValue result frames c

def JsonState.run (dialect : JsonDialect) (start : JsonState) (input : Text) :
    Except JsonError JsonState :=
  input.foldlM (JsonState.step dialect) start

/-- The end of the text. -/
def JsonState.finish (dialect : JsonDialect) : JsonState → Except JsonError Json
  | .done result [] => .ok result
  | .number part literal [] => numberValue dialect part literal
  | _ => .error .invalid

/-- `json.loads`. A byte order mark is refused like any other character in front. -/
def loads (dialect : JsonDialect) (input : Text) : Except JsonError Json := do
  let final ← JsonState.run dialect (.value []) input
  final.finish dialect

/-! ## Wider dialects -/

/-- A dialect that reads whatever the first one reads. -/
structure JsonDialect.Wider (narrow wide : JsonDialect) : Prop where
  constants : narrow.constants = true → wide.constants = true
  depth : ∀ number, within narrow.depth number = true → within wide.depth number = true
  digits : ∀ number, within narrow.digits number = true → within wide.digits number = true

theorem JsonDialect.wider_unlimited (dialect : JsonDialect) : dialect.Wider .unlimited :=
  ⟨fun _ => rfl, fun _ _ => rfl, fun _ _ => rfl⟩

section Wider

variable {narrow wide : JsonDialect}

theorem numberValue_of_wider (wider : narrow.Wider wide) {part : NumberPart} {literal : Text}
    {result : Json} (read : numberValue narrow part literal = .ok result) :
    numberValue wide part literal = .ok result := by
  rw [numberValue] at read ⊢
  split at read
  · next isInteger =>
      rw [if_pos isInteger]
      split at read
      · next fits =>
          rw [if_pos (wider.digits _ fits)]
          exact read
      · cases read
  · next notInteger =>
      rw [if_neg notInteger]
      exact read

theorem beginValue_of_wider (wider : narrow.Wider wide) {frames : List JsonFrame} {c : CodePoint}
    {next : JsonState} (begins : beginValue narrow frames c = .ok next) :
    beginValue wide frames c = .ok next := by
  rw [beginValue] at begins ⊢
  generalize valueStart c = start at begins ⊢
  cases start with
  | none => exact begins
  | some start =>
      cases start with
      | dict =>
          dsimp only at begins ⊢
          split at begins
          · next fits =>
              rw [if_pos (wider.depth _ fits)]
              exact begins
          · cases begins
      | list =>
          dsimp only at begins ⊢
          split at begins
          · next fits =>
              rw [if_pos (wider.depth _ fits)]
              exact begins
          · cases begins
      | constant rest literal =>
          dsimp only at begins ⊢
          split at begins
          · next allowed =>
              rw [if_pos (wider.constants allowed)]
              exact begins
          · cases begins
      | _ => exact begins

theorem endNumber_of_wider (wider : narrow.Wider wide) {part : NumberPart} {literal : Text}
    {frames : List JsonFrame} {c : CodePoint} {next : JsonState}
    (taken : endNumber narrow part literal frames c = .ok next) :
    endNumber wide part literal frames c = .ok next := by
  rw [endNumber] at taken ⊢
  by_cases minus : part = .minus ∧ c = 73
  · by_cases allowed : narrow.constants = true
    · rw [if_pos ⟨minus.1, minus.2, allowed⟩] at taken
      rw [if_pos ⟨minus.1, minus.2, wider.constants allowed⟩]
      exact taken
    · rw [if_neg fun all => allowed all.2.2, minus.1] at taken
      cases taken
  · rw [if_neg fun all => minus ⟨all.1, all.2.1⟩] at taken ⊢
    cases ended : numberValue narrow part literal with
    | error raised =>
        rw [ended] at taken
        cases taken
    | ok result =>
        rw [ended] at taken
        rw [numberValue_of_wider wider ended]
        exact taken

theorem step_of_wider (wider : narrow.Wider wide) {state next : JsonState} {c : CodePoint}
    (taken : state.step narrow c = .ok next) : state.step wide c = .ok next := by
  cases state with
  | value frames =>
      rw [JsonState.step] at taken ⊢
      split at taken
      · next space =>
          rw [if_pos space]
          exact taken
      · next notSpace =>
          rw [if_neg notSpace]
          exact beginValue_of_wider wider taken
  | firstItem frames =>
      rw [JsonState.step] at taken ⊢
      split at taken
      · next space =>
          rw [if_pos space]
          exact taken
      · next notSpace =>
          rw [if_neg notSpace]
          split at taken
          · next closes =>
              rw [if_pos closes]
              exact taken
          · next stays =>
              rw [if_neg stays]
              exact beginValue_of_wider wider taken
  | number part literal frames =>
      rw [JsonState.step] at taken ⊢
      cases continues : part.next c with
      | some more =>
          rw [continues] at taken
          exact taken
      | none =>
          rw [continues] at taken
          exact endNumber_of_wider wider taken
  | _ => exact taken

theorem run_of_wider (wider : narrow.Wider wide) {state final : JsonState} {input : Text}
    (ran : state.run narrow input = .ok final) : state.run wide input = .ok final := by
  induction input generalizing state with
  | nil => exact ran
  | cons c input ih =>
      rw [JsonState.run, List.foldlM_cons] at ran ⊢
      cases taken : state.step narrow c with
      | error raised =>
          rw [taken] at ran
          cases ran
      | ok next =>
          rw [taken] at ran
          rw [step_of_wider wider taken]
          exact ih ran

theorem finish_of_wider (wider : narrow.Wider wide) {state : JsonState} {result : Json}
    (ended : state.finish narrow = .ok result) : state.finish wide = .ok result := by
  cases state with
  | number part literal frames =>
      cases frames with
      | nil => exact numberValue_of_wider wider ended
      | cons frame frames => cases ended
  | done value frames =>
      cases frames with
      | nil => exact ended
      | cons frame frames => cases ended
  | _ => cases ended

theorem loads_eq_ok_iff {dialect : JsonDialect} {input : Text} {result : Json} :
    loads dialect input = .ok result ↔
      ∃ final, JsonState.run dialect (.value []) input = .ok final ∧
        final.finish dialect = .ok result := by
  rw [loads]
  cases ran : JsonState.run dialect (.value []) input with
  | error raised =>
      constructor
      · intro read
        cases read
      · intro both
        rcases both with ⟨_, impossible, _⟩
        cases impossible
  | ok final =>
      constructor
      · exact fun ended => ⟨final, rfl, ended⟩
      · intro both
        rcases both with ⟨_, same, ended⟩
        cases same
        exact ended

/-- What a dialect reads, a wider one reads as the same value. -/
theorem loads_of_wider (wider : narrow.Wider wide) {input : Text} {result : Json}
    (read : loads narrow input = .ok result) : loads wide input = .ok result := by
  rw [loads_eq_ok_iff] at read ⊢
  rcases read with ⟨final, ran, ended⟩
  exact ⟨final, run_of_wider wider ran, finish_of_wider wider ended⟩

/-- Two dialects do not read a text as different values. -/
theorem eq_of_loads {one two : JsonDialect} {input : Text} {first second : Json}
    (readOne : loads one input = .ok first) (readTwo : loads two input = .ok second) :
    first = second := by
  have wideOne := loads_of_wider one.wider_unlimited readOne
  have wideTwo := loads_of_wider two.wider_unlimited readTwo
  rw [wideOne] at wideTwo
  exact Except.ok.inj wideTwo

end Wider

/-! ## Limits -/

section Limits

variable {depth : ℕ}

/-- What Python finds invalid is so without its limits too. -/
theorem numberValue_invalid {part : NumberPart} {literal : Text}
    (failed : numberValue (.python depth) part literal = .error .invalid) :
    numberValue .unlimited part literal = .error .invalid := by
  rw [numberValue] at failed ⊢
  split at failed
  · split at failed <;> cases failed
  · next notInteger =>
    rw [if_neg notInteger]
    exact failed

theorem beginValue_invalid {frames : List JsonFrame} {c : CodePoint}
    (failed : beginValue (.python depth) frames c = .error .invalid) :
    beginValue .unlimited frames c = .error .invalid := by
  rw [beginValue] at failed ⊢
  generalize valueStart c = start at failed ⊢
  cases start with
  | none => rfl
  | some start =>
      cases start with
      | dict =>
          dsimp only at failed
          split at failed <;> cases failed
      | list =>
          dsimp only at failed
          split at failed <;> cases failed
      | _ => cases failed

theorem endNumber_invalid {part : NumberPart} {literal : Text} {frames : List JsonFrame}
    {c : CodePoint} (failed : endNumber (.python depth) part literal frames c = .error .invalid) :
    endNumber .unlimited part literal frames c = .error .invalid := by
  rw [endNumber] at failed ⊢
  by_cases minus : part = .minus ∧ c = 73 ∧ (JsonDialect.python depth).constants = true
  · rw [if_pos minus] at failed
    cases failed
  · rw [if_neg minus] at failed
    have same : JsonDialect.unlimited.constants = (JsonDialect.python depth).constants := rfl
    rw [same, if_neg minus]
    cases ended : numberValue (.python depth) part literal with
    | error raised =>
        rw [ended] at failed
        cases failed
        rw [numberValue_invalid ended]
    | ok result =>
        rw [ended] at failed
        rw [numberValue_of_wider (JsonDialect.wider_unlimited _) ended]
        exact failed

theorem step_invalid {state : JsonState} {c : CodePoint}
    (failed : state.step (.python depth) c = .error .invalid) :
    state.step .unlimited c = .error .invalid := by
  cases state with
  | value frames =>
      rw [JsonState.step] at failed ⊢
      split at failed
      · cases failed
      · next notSpace =>
        rw [if_neg notSpace]
        exact beginValue_invalid failed
  | firstItem frames =>
      rw [JsonState.step] at failed ⊢
      split at failed
      · cases failed
      · next notSpace =>
        rw [if_neg notSpace]
        split at failed
        · cases failed
        · next stays =>
          rw [if_neg stays]
          exact beginValue_invalid failed
  | number part literal frames =>
      rw [JsonState.step] at failed ⊢
      cases continues : part.next c with
      | some more =>
          rw [continues] at failed
          cases failed
      | none =>
          rw [continues] at failed
          exact endNumber_invalid failed
  | _ => exact failed

theorem run_invalid {state : JsonState} {input : Text}
    (failed : state.run (.python depth) input = .error .invalid) :
    state.run .unlimited input = .error .invalid := by
  induction input generalizing state with
  | nil => cases failed
  | cons c input ih =>
      rw [JsonState.run, List.foldlM_cons] at failed ⊢
      cases taken : state.step (.python depth) c with
      | error raised =>
          rw [taken] at failed
          cases failed
          rw [step_invalid taken]
          rfl
      | ok next =>
          rw [taken] at failed
          rw [step_of_wider (JsonDialect.wider_unlimited _) taken]
          exact ih failed

theorem finish_invalid {state : JsonState}
    (failed : state.finish (.python depth) = .error .invalid) :
    state.finish .unlimited = .error .invalid := by
  cases state with
  | number part literal frames =>
      cases frames with
      | nil => exact numberValue_invalid failed
      | cons frame frames => rfl
  | done value frames =>
      cases frames with
      | nil => cases failed
      | cons frame frames => rfl
  | _ => rfl

/-- What the standard calls JSON is read, or it is over a limit. -/
theorem limited_of_loads {input : Text} {value : Json}
    (read : loads .standard input = .ok value) :
    loads (.python depth) input ≠ .error .invalid := by
  intro failed
  have unlimited := loads_of_wider JsonDialect.standard.wider_unlimited read
  rw [loads] at failed unlimited
  cases ran : JsonState.run (.python depth) (.value []) input with
  | error raised =>
      rw [ran] at failed
      cases failed
      rw [run_invalid ran] at unlimited
      cases unlimited
  | ok final =>
      rw [ran] at failed
      rw [run_of_wider (JsonDialect.wider_unlimited _) ran] at unlimited
      have ended : final.finish .unlimited = .error .invalid := finish_invalid failed
      have other : final.finish .unlimited = .ok value := unlimited
      rw [ended] at other
      cases other

end Limits

/-! ## White space -/

section Space

variable {dialect : JsonDialect}

theorem valueStart_of_isWhitespace {c : CodePoint} (space : isWhitespace c = true) :
    valueStart c = none := by
  have noStart : valueStarts.lookup c = none := by
    rw [List.lookup_eq_none_iff]
    have starts : ∀ start ∈ valueStarts, isWhitespace start.1 = false := by decide
    intro start mem
    rw [bne_iff_ne]
    rintro rfl
    rw [starts start mem] at space
    cases space
  have noDigit : isDecimal c = false := by
    simp only [isWhitespace, Bool.or_eq_true, Bool.and_eq_true, decide_eq_true_eq,
      beq_iff_eq] at space
    simp only [isDecimal, Bool.and_eq_false_iff, decide_eq_false_iff_not]
    omega
  rw [valueStart, noStart, noDigit]
  rfl

theorem beginValue_of_isWhitespace {frames : List JsonFrame} {c : CodePoint}
    (space : isWhitespace c = true) : beginValue dialect frames c = .error .invalid := by
  rw [beginValue, valueStart_of_isWhitespace space]

/-- Only a quote ends a string. -/
theorem StringRead.eq_quote_of_ends {read : StringRead} {c : CodePoint} {whole : Text}
    (ends : read.step c = some (.inl whole)) : c = 34 := by
  rw [StringRead.step] at ends
  split at ends
  · split at ends
    · next quote => exact quote
    · split at ends
      · cases ends
      · split at ends <;> cases ends
  · split at ends
    · cases ends
    · rw [Option.map_eq_some_iff] at ends
      rcases ends with ⟨_, _, impossible⟩
      cases impossible
  · next missing bits =>
      rw [Option.map_eq_some_iff] at ends
      rcases ends with ⟨_, _, impossible⟩
      split at impossible <;> cases impossible

theorem NumberPart.next_of_isWhitespace {part : NumberPart} {c : CodePoint}
    (space : isWhitespace c = true) : part.next c = none := by
  have noDigit : isDecimal c = false := by
    simp only [isWhitespace, Bool.or_eq_true, Bool.and_eq_true, decide_eq_true_eq,
      beq_iff_eq] at space
    simp only [isDecimal, Bool.and_eq_false_iff, decide_eq_false_iff_not]
    omega
  have others : c ≠ 48 ∧ c ≠ 46 ∧ c ≠ 101 ∧ c ≠ 69 ∧ c ≠ 43 ∧ c ≠ 45 := by
    simp only [isWhitespace, Bool.or_eq_true, Bool.and_eq_true, decide_eq_true_eq,
      beq_iff_eq] at space
    simp only [ne_eq, Fin.ext_iff]
    omega
  cases part <;> simp [NumberPart.next, noDigit, others]

/-- The words that are still to come are letters. -/
def JsonState.Lettered : JsonState → Prop
  | .word rest _ _ => ∀ c ∈ rest, isWhitespace c = false
  | _ => True

def ValueStart.letters : ValueStart → Text
  | .word rest _ => rest
  | .constant rest _ => rest
  | _ => []

theorem valueStart_cases {c : CodePoint} {start : ValueStart} (starts : valueStart c = some start) :
    (c, start) ∈ valueStarts ∨ start = .number .integer := by
  rw [valueStart] at starts
  split at starts
  · next found =>
      cases starts
      rcases List.lookup_eq_some_iff.mp found with ⟨before, after, whole, _⟩
      left
      rw [whole]
      exact List.mem_append_right before List.mem_cons_self
  · split at starts <;> cases starts
    exact .inr rfl

theorem letters_valueStart {c : CodePoint} {start : ValueStart}
    (starts : valueStart c = some start) : ∀ d ∈ start.letters, isWhitespace d = false := by
  have table : ∀ entry ∈ valueStarts, entry.2.letters.all (!isWhitespace ·) = true := by decide
  intro d isLetter
  rcases valueStart_cases starts with mem | rfl
  · simpa using List.all_eq_true.mp (table _ mem) d isLetter
  · exact absurd isLetter List.not_mem_nil

theorem lettered_beginValue {frames : List JsonFrame} {c : CodePoint} {next : JsonState}
    (begins : beginValue dialect frames c = .ok next) : next.Lettered := by
  rw [beginValue] at begins
  split at begins
  · cases begins
    exact trivial
  · split at begins <;> cases begins
    exact trivial
  · split at begins <;> cases begins
    exact trivial
  · next starts =>
      cases begins
      exact letters_valueStart starts
  · next starts =>
      split at begins <;> cases begins
      exact letters_valueStart starts
  · cases begins
    exact trivial
  · cases begins

theorem lettered_afterValue {result : Json} {frames : List JsonFrame} {c : CodePoint}
    {next : JsonState} (taken : afterValue result frames c = .ok next) : next.Lettered := by
  rw [afterValue] at taken
  split at taken
  · cases taken
    exact trivial
  · cases frames with
    | nil => cases taken
    | cons frame outer =>
        cases frame with
        | list items =>
            rw [closeValue] at taken
            split_ifs at taken <;> cases taken <;> exact trivial
        | dict members name =>
            rw [closeValue] at taken
            split_ifs at taken <;> cases taken <;> exact trivial

theorem lettered_continueWord {rest : Text} {result : Json} {frames : List JsonFrame}
    {c : CodePoint} {next : JsonState} (letters : ∀ d ∈ rest, isWhitespace d = false)
    (taken : continueWord result frames rest c = .ok next) :
    next.Lettered ∧ isWhitespace c = false := by
  cases rest with
  | nil => cases taken
  | cons first later =>
      have letter := letters first List.mem_cons_self
      cases later with
      | nil =>
          rw [continueWord] at taken
          split at taken
          · next same =>
              cases taken
              exact ⟨trivial, same ▸ letter⟩
          · cases taken
      | cons second later =>
          rw [continueWord] at taken
          · split at taken
            · next same =>
                cases taken
                exact ⟨fun d mem => letters d (List.mem_cons_of_mem _ mem), same ▸ letter⟩
            · cases taken
          · simp

theorem lettered_step {state next : JsonState} {c : CodePoint} (lettered : state.Lettered)
    (taken : state.step dialect c = .ok next) : next.Lettered := by
  cases state with
  | value frames =>
      rw [JsonState.step] at taken
      split at taken
      · cases taken
        exact trivial
      · exact lettered_beginValue taken
  | firstItem frames =>
      rw [JsonState.step] at taken
      split at taken
      · cases taken
        exact trivial
      · split at taken
        · cases taken
          exact trivial
        · exact lettered_beginValue taken
  | firstKey frames =>
      rw [JsonState.step] at taken
      split_ifs at taken <;> cases taken <;> exact trivial
  | nextKey members frames =>
      rw [JsonState.step] at taken
      split_ifs at taken <;> cases taken <;> exact trivial
  | key members read frames =>
      rw [JsonState.step] at taken
      split at taken <;> cases taken <;> exact trivial
  | colon members name frames =>
      rw [JsonState.step] at taken
      split_ifs at taken <;> cases taken <;> exact trivial
  | string read frames =>
      rw [JsonState.step] at taken
      split at taken <;> cases taken <;> exact trivial
  | word rest result frames => exact (lettered_continueWord lettered taken).1
  | number part literal frames =>
      rw [JsonState.step] at taken
      split at taken
      · cases taken
        exact trivial
      · rw [endNumber] at taken
        split at taken
        · cases taken
          have letters : (text "nfinity").all (!isWhitespace ·) = true := by decide
          intro d isLetter
          simpa using List.all_eq_true.mp letters d isLetter
        · split at taken
          · exact lettered_afterValue taken
          · cases taken
  | done result frames => exact lettered_afterValue taken

/-- White space changes nothing at the end of a text. -/
theorem finish_of_isWhitespace {state next : JsonState} {c : CodePoint} {result : Json}
    (lettered : state.Lettered) (space : isWhitespace c = true)
    (taken : state.step dialect c = .ok next) (ended : next.finish dialect = .ok result) :
    state.finish dialect = .ok result := by
  have notQuote : c ≠ 34 := by
    rintro rfl
    cases space
  have behind : ∀ value frames, afterValue value frames c = .ok next →
      next = .done value frames := by
    intro value frames after
    rw [afterValue] at after
    split at after
    · cases after
      rfl
    · have others : c ≠ 44 ∧ c ≠ 93 ∧ c ≠ 125 := by
        refine ⟨?_, ?_, ?_⟩ <;> rintro rfl <;> cases space
      cases frames with
      | nil => cases after
      | cons frame outer =>
          cases frame <;> simp only [closeValue, others, if_false] at after <;> cases after
  cases state with
  | done value frames =>
      rw [behind value frames taken] at ended
      exact ended
  | number part literal frames =>
      rw [JsonState.step, NumberPart.next_of_isWhitespace space] at taken
      dsimp only at taken
      rw [endNumber, if_neg fun all => by rw [all.2.1] at space; cases space] at taken
      split at taken
      · next value read =>
          rw [behind value frames taken] at ended
          cases frames with
          | nil =>
              cases ended
              exact read
          | cons frame frames => cases ended
      · cases taken
  | value frames =>
      rw [JsonState.step, beginValue_of_isWhitespace space] at taken
      split at taken <;> cases taken
      cases ended
  | firstItem frames =>
      rw [JsonState.step, beginValue_of_isWhitespace space] at taken
      split_ifs at taken with isSpace closes
      · cases taken
        cases ended
      · rw [closes] at space
        cases space
  | firstKey frames =>
      rw [JsonState.step, if_neg notQuote] at taken
      split_ifs at taken with isSpace closes
      · cases taken
        cases ended
      · rw [closes] at space
        cases space
  | nextKey members frames =>
      rw [JsonState.step, if_neg notQuote] at taken
      split_ifs at taken with isSpace
      cases taken
      cases ended
  | colon members name frames =>
      rw [JsonState.step] at taken
      split_ifs at taken with isSpace colon
      · cases taken
        cases ended
      · rw [colon] at space
        cases space
  | key members read frames =>
      rw [JsonState.step] at taken
      split at taken
      · cases taken
      · next name ends => exact absurd (StringRead.eq_quote_of_ends ends) notQuote
      · cases taken
        cases ended
  | string read frames =>
      rw [JsonState.step] at taken
      split at taken
      · cases taken
      · next name ends => exact absurd (StringRead.eq_quote_of_ends ends) notQuote
      · cases taken
        cases ended
  | word rest value frames =>
      have letter := (lettered_continueWord lettered taken).2
      rw [space] at letter
      cases letter

theorem run_append {state : JsonState} {first second : Text} :
    state.run dialect (first ++ second) =
      (state.run dialect first).bind fun middle => middle.run dialect second :=
  List.foldlM_append

theorem run_cons {state : JsonState} {c : CodePoint} {input : Text} :
    state.run dialect (c :: input) =
      (state.step dialect c).bind fun next => next.run dialect input :=
  List.foldlM_cons

theorem run_append_eq_ok {state final : JsonState} {first second : Text}
    (ran : state.run dialect (first ++ second) = .ok final) :
    ∃ middle, state.run dialect first = .ok middle ∧ middle.run dialect second = .ok final := by
  rw [run_append] at ran
  cases before : state.run dialect first with
  | error raised =>
      rw [before] at ran
      cases ran
  | ok middle =>
      rw [before] at ran
      exact ⟨middle, rfl, ran⟩

theorem run_cons_eq_ok {state final : JsonState} {c : CodePoint} {input : Text}
    (ran : state.run dialect (c :: input) = .ok final) :
    ∃ next, state.step dialect c = .ok next ∧ next.run dialect input = .ok final := by
  rw [run_cons] at ran
  cases taken : state.step dialect c with
  | error raised =>
      rw [taken] at ran
      cases ran
  | ok next =>
      rw [taken] at ran
      exact ⟨next, rfl, ran⟩

theorem lettered_run {state final : JsonState} {input : Text} (lettered : state.Lettered)
    (ran : state.run dialect input = .ok final) : final.Lettered := by
  induction input generalizing state with
  | nil =>
      cases ran
      exact lettered
  | cons c input ih =>
      rcases run_cons_eq_ok ran with ⟨next, taken, rest⟩
      exact ih (lettered_step lettered taken) rest

theorem loads_dropWhile {input : Text} {result : Json}
    (read : loads dialect input = .ok result) :
    loads dialect (input.dropWhile isWhitespace) = .ok result := by
  induction input with
  | nil => exact read
  | cons c input ih =>
      rw [List.dropWhile_cons]
      split
      · next space =>
          apply ih
          rw [loads_eq_ok_iff] at read ⊢
          rcases read with ⟨final, ran, ended⟩
          rcases run_cons_eq_ok ran with ⟨next, taken, rest⟩
          rw [JsonState.step, beginValue_of_isWhitespace space] at taken
          split at taken <;> cases taken
          exact ⟨final, rest, ended⟩
      · exact read

theorem loads_rdropWhile {input : Text} {result : Json}
    (read : loads dialect input = .ok result) :
    loads dialect (input.rdropWhile isWhitespace) = .ok result := by
  induction input using List.reverseRecOn with
  | nil => exact read
  | append_singleton input c ih =>
      by_cases space : isWhitespace c = true
      · rw [List.rdropWhile_concat_pos _ _ _ space]
        apply ih
        rw [loads_eq_ok_iff] at read ⊢
        rcases read with ⟨final, ran, ended⟩
        rcases run_append_eq_ok ran with ⟨middle, before, last⟩
        rcases run_cons_eq_ok last with ⟨next, taken, same⟩
        cases same
        have start : (JsonState.value []).Lettered := trivial
        have lettered := lettered_run start before
        exact ⟨middle, before, finish_of_isWhitespace lettered space taken ended⟩
      · rw [List.rdropWhile_concat_neg _ _ _ space]
        exact read

/-- A text that is read is read without the white space around it. -/
theorem loads_strip {input : Text} {result : Json} (read : loads dialect input = .ok result) :
    loads dialect (strip input) = .ok result :=
  loads_rdropWhile (loads_dropWhile read)

end Space

/-! ## Complete texts -/

section Complete

variable {dialect : JsonDialect}

theorem run_done {value : Json} {input : Text} {final : JsonState}
    (ran : (JsonState.done value []).run dialect input = .ok final) :
    final = .done value [] ∧ ∀ c ∈ input, isJsonSpace c = true := by
  induction input with
  | nil =>
      cases ran
      exact ⟨rfl, fun c mem => absurd mem List.not_mem_nil⟩
  | cons c input ih =>
      rcases run_cons_eq_ok ran with ⟨next, taken, rest⟩
      rw [JsonState.step, afterValue] at taken
      split at taken
      · next space =>
          cases taken
          have later := ih rest
          exact ⟨later.1, List.forall_mem_cons.mpr ⟨space, later.2⟩⟩
      · cases taken

/-- An object that is complete can only be followed by white space. -/
theorem run_of_loads_dict {first second : Text} {members : List (Text × Json)} {final : JsonState}
    (read : loads dialect first = .ok (.dict members))
    (ran : JsonState.run dialect (.value []) (first ++ second) = .ok final) :
    final = .done (.dict members) [] ∧ ∀ c ∈ second, isJsonSpace c = true := by
  rcases loads_eq_ok_iff.mp read with ⟨middle, before, ended⟩
  rcases run_append_eq_ok ran with ⟨same, again, rest⟩
  rw [before] at again
  cases again
  cases middle with
  | done value frames =>
      cases frames with
      | nil =>
          cases ended
          exact run_done rest
      | cons frame frames => cases ended
  | number part literal frames =>
      cases frames with
      | nil =>
          rw [JsonState.finish, numberValue] at ended
          split_ifs at ended <;> cases ended
      | cons frame frames => cases ended
  | _ => cases ended

end Complete

/-! ## Texts that are no objects -/

section Barred

variable {dialect : JsonDialect}

/-- The outermost value is a list. -/
def UnderList : List JsonFrame → Prop
  | [] => False
  | frame :: outer => (outer = [] ∧ ∃ items, frame = .list items) ∨ UnderList outer

/-- No object with members. -/
def Json.Memberless : Json → Prop
  | .dict members => members = []
  | _ => True

/-- Whatever comes, the text is no object with members. -/
def JsonState.Barred : JsonState → Prop
  | .value frames => UnderList frames
  | .firstItem frames => frames = [] ∨ UnderList frames
  | .firstKey frames => UnderList frames
  | .nextKey _ frames => UnderList frames
  | .key _ _ frames => UnderList frames
  | .colon _ _ frames => UnderList frames
  | .string _ frames => frames = [] ∨ UnderList frames
  | .word _ result frames => (frames = [] ∧ result.Memberless) ∨ UnderList frames
  | .number _ _ frames => frames = [] ∨ UnderList frames
  | .done result frames => (frames = [] ∧ result.Memberless) ∨ UnderList frames

theorem barred_beginValue {frames : List JsonFrame} {c : CodePoint} {next : JsonState}
    (under : UnderList frames) (begins : beginValue dialect frames c = .ok next) :
    next.Barred := by
  rw [beginValue] at begins
  split at begins
  · cases begins
    exact .inr under
  · split at begins <;> cases begins
    exact under
  · split at begins <;> cases begins
    exact .inr under
  · cases begins
    exact .inr under
  · split at begins <;> cases begins
    exact .inr under
  · cases begins
    exact .inr under
  · cases begins

theorem barred_afterValue {result : Json} {frames : List JsonFrame} {c : CodePoint}
    {next : JsonState} (barred : (frames = [] ∧ result.Memberless) ∨ UnderList frames)
    (taken : afterValue result frames c = .ok next) : next.Barred := by
  rw [afterValue] at taken
  split at taken
  · cases taken
    exact barred
  · cases frames with
    | nil => cases taken
    | cons frame outer =>
        rcases barred with ⟨impossible, _⟩ | under
        · cases impossible
        · cases frame with
          | list items =>
              rw [closeValue] at taken
              split_ifs at taken <;> cases taken
              · rcases under with ⟨bottom, _⟩ | deeper
                · exact .inl ⟨bottom, _, rfl⟩
                · exact .inr deeper
              · rcases under with ⟨bottom, _⟩ | deeper
                · exact .inl ⟨bottom, trivial⟩
                · exact .inr deeper
          | dict members name =>
              have deeper : UnderList outer := by
                rcases under with ⟨_, items, impossible⟩ | deeper
                · cases impossible
                · exact deeper
              rw [closeValue] at taken
              split_ifs at taken <;> cases taken
              · exact deeper
              · exact .inr deeper

theorem barred_step {state next : JsonState} {c : CodePoint} (barred : state.Barred)
    (taken : state.step dialect c = .ok next) : next.Barred := by
  cases state with
  | value frames =>
      rw [JsonState.step] at taken
      split at taken
      · cases taken
        exact barred
      · exact barred_beginValue barred taken
  | firstItem frames =>
      rw [JsonState.step] at taken
      split at taken
      · cases taken
        exact barred
      · split at taken
        · cases taken
          exact barred.imp (fun bottom => ⟨bottom, trivial⟩) id
        · apply barred_beginValue _ taken
          exact barred.imp (fun bottom => ⟨bottom, _, rfl⟩) id
  | firstKey frames =>
      rw [JsonState.step] at taken
      split_ifs at taken <;> cases taken
      · exact barred
      · exact .inr barred
      · exact barred
  | nextKey members frames =>
      rw [JsonState.step] at taken
      split_ifs at taken <;> cases taken <;> exact barred
  | key members read frames =>
      rw [JsonState.step] at taken
      split at taken <;> cases taken <;> exact barred
  | colon members name frames =>
      rw [JsonState.step] at taken
      split_ifs at taken <;> cases taken
      · exact barred
      · exact .inr barred
  | string read frames =>
      rw [JsonState.step] at taken
      split at taken <;> cases taken
      · exact barred.imp (fun bottom => ⟨bottom, trivial⟩) id
      · exact barred
  | word rest result frames =>
      rw [JsonState.step] at taken
      cases rest with
      | nil => cases taken
      | cons first later =>
          cases later with
          | nil =>
              rw [continueWord] at taken
              split at taken <;> cases taken
              exact barred
          | cons second later =>
              rw [continueWord] at taken
              · split at taken <;> cases taken
                exact barred
              · simp
  | number part literal frames =>
      rw [JsonState.step] at taken
      split at taken
      · cases taken
        exact barred
      · rw [endNumber] at taken
        split at taken
        · cases taken
          exact barred.imp (fun bottom => ⟨bottom, trivial⟩) id
        · split at taken
          · next value read =>
              apply barred_afterValue _ taken
              refine barred.imp (fun bottom => ⟨bottom, ?_⟩) id
              rw [numberValue] at read
              split_ifs at read <;> cases read <;> exact trivial
          · cases taken
  | done result frames => exact barred_afterValue barred taken

theorem barred_run {state final : JsonState} {input : Text} (barred : state.Barred)
    (ran : state.run dialect input = .ok final) : final.Barred := by
  induction input generalizing state with
  | nil =>
      cases ran
      exact barred
  | cons c input ih =>
      rcases run_cons_eq_ok ran with ⟨next, taken, rest⟩
      exact ih (barred_step barred taken) rest

theorem memberless_of_barred {state : JsonState} {result : Json} (barred : state.Barred)
    (ended : state.finish dialect = .ok result) : result.Memberless := by
  cases state with
  | done value frames =>
      cases frames with
      | nil =>
          cases ended
          exact barred.elim (fun bottom => bottom.2) fun under => under.elim
      | cons frame frames => cases ended
  | number part literal frames =>
      cases frames with
      | nil =>
          rw [JsonState.finish, numberValue] at ended
          split_ifs at ended <;> cases ended <;> exact trivial
      | cons frame frames => cases ended
  | _ => cases ended

end Barred

end Foundation
