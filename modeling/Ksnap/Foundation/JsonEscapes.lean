import Ksnap.Foundation.JsonReader

/-!
# Escapes in the bytes of a string

The body of a JSON string as bytes, which need not be UTF-8. `unescape` undoes its escapes,
byte by byte: an escape stands for the bytes of its character, and any other byte for itself.
It gives up where the body is not one, so a body that it undoes is well formed.
-/

namespace Foundation

/-- The bytes so far, and the first half of a character that two escapes stand for. -/
structure BytesRead where
  bytes : Bytes
  high : Option ℕ
  escape : EscapePart

namespace BytesRead

/-- Between two characters. -/
def between (bytes : Bytes) : BytesRead where
  bytes
  high := none
  escape := .plain

def put (read : BytesRead) (c : CodePoint) : BytesRead :=
  between (read.bytes ++ utf8Char c)

/-- The four digits of an escape. One half of a character is none without the other. -/
def putUnit (read : BytesRead) (bits : ℕ) : Option BytesRead :=
  match read.high with
  | none =>
      if 0xD800 ≤ bits ∧ bits ≤ 0xDBFF then some { read with high := some bits, escape := .plain }
      else if 0xDC00 ≤ bits ∧ bits ≤ 0xDFFF then none
      else some (read.put (codePoint bits))
  | some first =>
      if 0xDC00 ≤ bits ∧ bits ≤ 0xDFFF then
        some (read.put (codePoint (0x10000 + (first - 0xD800) * 1024 + (bits - 0xDC00))))
      else none

def step (read : BytesRead) (byte : UInt8) : Option BytesRead :=
  match read.escape with
  | .plain =>
      if byte = 92 then some { read with escape := .backslash }
      else if byte = 34 ∨ byte < 0x20 ∨ read.high.isSome then none
      else some (between (read.bytes ++ [byte]))
  | .backslash =>
      if byte = 117 then some { read with escape := .hex 3 0 }
      else if read.high.isSome then none
      else (shortEscape (codePoint byte.toNat)).map read.put
  | .hex missing bits =>
      (hexValue (codePoint byte.toNat)).bind fun digit =>
        match missing with
        | 0 => read.putUnit (bits * 16 + digit)
        | missing + 1 => some { read with escape := .hex missing (bits * 16 + digit) }

/-- The end of the body, where no escape may be open. -/
def finish : BytesRead → Option Bytes
  | ⟨bytes, none, .plain⟩ => some bytes
  | _ => none

end BytesRead

/-- The bytes that a body stands for. -/
def unescape (body : Bytes) : Option Bytes :=
  (body.foldlM BytesRead.step (.between [])).bind BytesRead.finish

/-- The bytes of a body that neither are a backslash in front of another nor stand behind one. -/
def bareBytes : Bytes → Bytes
  | 92 :: _ :: rest => bareBytes rest
  | byte :: rest => byte :: bareBytes rest
  | [] => []

/-! ## What a writer has to do -/

section

variable {escape : UInt8 → Bytes} {value : Bytes}

/-- A writer is undone when each of its pieces is, wherever that stands. -/
theorem unescape_flatMap
    (each : ∀ byte ∈ value, ∀ bytes, (escape byte).foldlM BytesRead.step (.between bytes) =
      some (.between (bytes ++ [byte]))) :
    unescape (value.flatMap escape) = some value := by
  suffices general : ∀ bytes, (value.flatMap escape).foldlM BytesRead.step (.between bytes) =
      some (.between (bytes ++ value)) by
    rw [unescape, general []]
    rfl
  induction value with
  | nil =>
      intro bytes
      rw [List.append_nil]
      rfl
  | cons byte value ih =>
      intro bytes
      have first := each byte List.mem_cons_self bytes
      have later := ih (fun other mem => each other (List.mem_cons_of_mem _ mem)) (bytes ++ [byte])
      rw [List.append_assoc, List.singleton_append] at later
      rw [List.flatMap_cons, List.foldlM_append, first]
      exact later

/-- What is not bare in any piece is not bare in the whole. -/
theorem not_mem_bareBytes_flatMap {c : UInt8}
    (each : ∀ byte ∈ value, ∀ rest, c ∉ bareBytes rest → c ∉ bareBytes (escape byte ++ rest)) :
    c ∉ bareBytes (value.flatMap escape) := by
  induction value with
  | nil => exact List.not_mem_nil
  | cons byte value ih =>
      rw [List.flatMap_cons]
      apply each byte List.mem_cons_self
      exact ih fun other mem => each other (List.mem_cons_of_mem _ mem)

end

/-- Bytes without a backslash in front of a body. -/
theorem bareBytes_append {plain : Bytes} (noBackslash : 92 ∉ plain) (rest : Bytes) :
    bareBytes (plain ++ rest) = plain ++ bareBytes rest := by
  induction plain with
  | nil => rfl
  | cons byte plain ih =>
      have later := ih fun mem => noBackslash (List.mem_cons_of_mem _ mem)
      rw [List.cons_append, bareBytes.eq_2, later, List.cons_append]
      rintro other rest rfl
      exact absurd List.mem_cons_self noBackslash

end Foundation
