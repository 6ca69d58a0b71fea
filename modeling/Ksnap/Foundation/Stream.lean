import Ksnap.Foundation.Lines

/-!
# Text streams

A text stream decodes the pieces it reads one after the other. At the end of a piece a
character may have begun, a carriage return may be the first half of a newline, and a
line may not be complete; all three wait for the next piece.

The main fact is `linesOf_append`: however the bytes are cut into pieces, the lines that
come out are those of the whole, or there is none for the whole either.
-/

namespace Foundation

/-! ## Decoding in pieces -/

/-- Strict decoding behind a character that has begun. -/
def strictFrom (pending : Option Pending) (bytes : Bytes) : Option Text :=
  (decodeFrom pending bytes).mapM id

/-- The next byte where it fits: the character it completes, and the one it leaves begun. -/
def nextChar (pending : Option Pending) (byte : UInt8) :
    Option (Option CodePoint × Option Pending) :=
  let started :=
    match pending with
    | none => some (beginChar byte.toNat)
    | some waiting =>
        if waiting.low ≤ byte.toNat ∧ byte.toNat ≤ waiting.high then
          some (waiting.advance byte.toNat)
        else none
  match started with
  | none => none
  | some (.inl none) => none
  | some (.inl (some c)) => some (some c, none)
  | some (.inr next) => some (none, some next)

/-- The characters that a piece completes, and the one it leaves begun. -/
def decodePiece : Option Pending → Bytes → Option (Text × Option Pending)
  | pending, [] => some ([], pending)
  | pending, byte :: rest => do
      let (completed, next) ← nextChar pending byte
      let (decoded, last) ← decodePiece next rest
      some (completed.toList ++ decoded, last)

theorem strictFrom_cons (pending : Option Pending) (byte : UInt8) (rest : Bytes) :
    strictFrom pending (byte :: rest) = (nextChar pending byte).bind fun (completed, next) =>
      (strictFrom next rest).map (completed.toList ++ ·) := by
  have started : ∀ start : Option CodePoint ⊕ Pending, (decodeOn start rest).mapM id =
      (match some start with
        | none => none
        | some (.inl none) => none
        | some (.inl (some c)) => some (some c, none)
        | some (.inr next) => some (none, some next)).bind fun (completed, next) =>
          (strictFrom next rest).map (completed.toList ++ ·) := by
    intro start
    rcases start with (_ | c) | next
    · simp [decodeOn]
    · simp only [decodeOn, strictFrom, List.mapM_cons, id, Option.bind_some, Option.toList_some]
      cases (decodeFrom none rest).mapM id <;> rfl
    · simp [decodeOn, strictFrom]
  cases pending with
  | none =>
      rw [strictFrom, decodeFrom_none_cons]
      exact started _
  | some waiting =>
      rw [strictFrom, decodeFrom_some_cons, nextChar]
      split
      · exact started _
      · simp

/-- A piece in front is decoded on its own. -/
theorem strictFrom_append (pending : Option Pending) (piece rest : Bytes) :
    strictFrom pending (piece ++ rest) = (decodePiece pending piece).bind fun (decoded, next) =>
      (strictFrom next rest).map (decoded ++ ·) := by
  induction piece generalizing pending with
  | nil => simp [decodePiece]
  | cons byte piece ih =>
      rw [List.cons_append, strictFrom_cons, decodePiece]
      rcases nextChar pending byte with _ | ⟨completed, next⟩
      · rfl
      · simp only [Option.bind_some, Option.bind_eq_bind, ih]
        rcases decodePiece next piece with _ | ⟨decoded, last⟩
        · rfl
        · simp [Function.comp_def]

/-! ## Newlines in pieces -/

/-- Newlines are unified on both sides of a cut that goes through none of them. -/
theorem universalNewlines_split {first more : Text}
    (notPair : first.getLast? = some 13 → more.head? ≠ some 10) :
    universalNewlines (first ++ more) = universalNewlines first ++ universalNewlines more := by
  induction first using universalNewlines.induct with
  | case1 => rfl
  | case2 rest ih =>
      have later : rest.getLast? = some 13 → more.head? ≠ some 10 := by
        intro isLast
        apply notPair
        cases rest with
        | nil => cases isLast
        | cons c rest => simpa using isLast
      rw [List.cons_append, List.cons_append, universalNewlines, universalNewlines, ih later]
      rfl
  | case3 c rest alone ih =>
      have later : rest.getLast? = some 13 → more.head? ≠ some 10 := by
        intro isLast
        apply notPair
        cases rest with
        | nil => cases isLast
        | cons d rest => simpa using isLast
      have aloneToo : ∀ back, c = 13 → rest ++ more = 10 :: back → False := by
        intro back isReturn newline
        cases rest with
        | nil =>
            rw [List.nil_append] at newline
            exact notPair (by rw [isReturn]; rfl) (by rw [newline]; rfl)
        | cons d rest => exact alone rest isReturn (by rw [(List.cons.inj newline).1])
      rw [List.cons_append, universalNewlines, universalNewlines, ih later]
      · rfl
      · exact fun back => alone back
      · exact fun back => aloneToo back

/-- What can be told of the newlines by now, and the carriage return that waits. -/
def holdReturn (decoded : Text) : Text × Text :=
  if decoded.getLast? = some 13 then (decoded.dropLast, [13]) else (decoded, [])

theorem universalNewlines_holdReturn (decoded more : Text) :
    universalNewlines (decoded ++ more) = universalNewlines (holdReturn decoded).1 ++
      universalNewlines ((holdReturn decoded).2 ++ more) := by
  unfold holdReturn
  split
  · rename_i isReturn
    have whole : decoded.dropLast ++ [13] = decoded :=
      List.dropLast_append_getLast? 13 isReturn
    rw [← universalNewlines_split (by simp), ← List.append_assoc, whole]
  · rename_i notReturn
    rw [List.nil_append]
    exact universalNewlines_split fun isReturn => absurd isReturn notReturn

/-! ## Lines in pieces -/

/-- The lines that a text completes, each with its newline, and the one it leaves begun. -/
def cutLines (line : Text) : Text → List Text × Text
  | [] => ([], line)
  | c :: rest =>
      if c = 10 then
        let (lines, last) := cutLines [] rest
        ((line ++ [c]) :: lines, last)
      else cutLines (line ++ [c]) rest

theorem cutLines_append (line first more : Text) :
    cutLines line (first ++ more) =
      ((cutLines line first).1 ++ (cutLines (cutLines line first).2 more).1,
        (cutLines (cutLines line first).2 more).2) := by
  induction first generalizing line with
  | nil => rfl
  | cons c first ih =>
      rw [List.cons_append, cutLines, cutLines]
      split
      · rw [ih]
        rfl
      · exact ih _

/-- The line at the end of a stream needs no newline, but a character. -/
def lastLine (line : Text) : List Text :=
  if line = [] then [] else [line]

/-- All lines of a stream behind a line that has begun. -/
def allLines (line : Text) (rest : Text) : List Text :=
  (cutLines line rest).1 ++ lastLine (cutLines line rest).2

theorem allLines_append (line first more : Text) :
    allLines line (first ++ more) =
      (cutLines line first).1 ++ allLines (cutLines line first).2 more := by
  rw [allLines, cutLines_append, List.append_assoc]
  rfl

/-! ## The reader -/

/-- What a text stream keeps between two pieces. -/
structure TextReader where
  pending : Option Pending
  held : Text
  line : Text

namespace TextReader

/-- Nothing was read. -/
def fresh : TextReader := ⟨none, [], []⟩

/-- The lines that the next piece completes. A piece that is malformed raises. -/
def feed (reader : TextReader) (piece : Bytes) : Option (List Text × TextReader) := do
  let (decoded, pending) ← decodePiece reader.pending piece
  let (told, held) := holdReturn (reader.held ++ decoded)
  let (lines, line) := cutLines reader.line (universalNewlines told)
  some (lines, ⟨pending, held, line⟩)

/-- The lines at the end of the stream, which raises within a character. -/
def finish (reader : TextReader) : Option (List Text) :=
  if reader.pending.isSome then none
  else some (allLines reader.line (universalNewlines reader.held))

/-- All lines that are still to come. -/
def linesOf (reader : TextReader) (rest : Bytes) : Option (List Text) :=
  (strictFrom reader.pending rest).map fun decoded =>
    allLines reader.line (universalNewlines (reader.held ++ decoded))

theorem linesOf_nil (reader : TextReader) : reader.linesOf [] = reader.finish := by
  rcases reader with ⟨_ | pending, held, line⟩
  · simp [linesOf, finish, strictFrom, decodeFrom]
  · simp [linesOf, finish, strictFrom, decodeFrom]

/-- The lines of the next piece come first, whatever follows it. -/
theorem linesOf_append (reader : TextReader) (piece rest : Bytes) :
    reader.linesOf (piece ++ rest) = (reader.feed piece).bind fun (lines, next) =>
      (next.linesOf rest).map (lines ++ ·) := by
  rw [linesOf, strictFrom_append, feed]
  rcases decodePiece reader.pending piece with _ | ⟨decoded, pending⟩
  · rfl
  · simp only [Option.bind_some, Option.bind_eq_bind, linesOf, Option.map_map]
    congr 1
    funext more
    simp only [Function.comp_apply]
    rw [← List.append_assoc, universalNewlines_holdReturn, allLines_append]

end TextReader

/-- The lines of a text, as a stream hands them out. -/
def streamLines (whole : Text) : List Text :=
  allLines [] (universalNewlines whole)

theorem linesOf_fresh (bytes : Bytes) :
    TextReader.fresh.linesOf bytes = (decodeStrict bytes).map streamLines := rfl

/-- What is decoded strictly is decoded in the same way with replacement. -/
theorem decodeReplace_of_decodeStrict {bytes : Bytes} {whole : Text}
    (decoded : decodeStrict bytes = some whole) : decodeReplace bytes = whole := by
  rw [decodeStrict] at decoded
  rw [decodeReplace]
  generalize decodeFrom none bytes = units at decoded ⊢
  induction units generalizing whole with
  | nil =>
      cases decoded
      rfl
  | cons unit units ih =>
      rw [List.mapM_cons] at decoded
      cases unit with
      | none => cases decoded
      | some c =>
          cases others : units.mapM id with
          | none =>
              rw [others] at decoded
              cases decoded
          | some rest =>
              rw [others] at decoded
              cases decoded
              rw [List.map_cons, ih others]
              rfl

end Foundation
