import Ksnap.Foundation.JsonReader
import Mathlib.Data.Nat.Log

/-!
# `int()`

What Python's `int` makes of a text and of a float. A text may hold decimal digits of any
script, white space around them and single underscores between them. A float is the double
nearest to its literal, and `int` cuts its fraction off.
-/

namespace Foundation

/-! ## Texts -/

/-- The zeros of the scripts of Unicode 15, each followed by its other nine digits. -/
def decimalZeros : List ℕ :=
  [0x30, 0x660, 0x6F0, 0x7C0, 0x966, 0x9E6, 0xA66, 0xAE6, 0xB66, 0xBE6, 0xC66, 0xCE6, 0xD66,
    0xDE6, 0xE50, 0xED0, 0xF20, 0x1040, 0x1090, 0x17E0, 0x1810, 0x1946, 0x19D0, 0x1A80, 0x1A90,
    0x1B50, 0x1BB0, 0x1C40, 0x1C50, 0xA620, 0xA8D0, 0xA900, 0xA9D0, 0xA9F0, 0xAA50, 0xABF0,
    0xFF10, 0x104A0, 0x10D30, 0x11066, 0x110F0, 0x11136, 0x111D0, 0x112F0, 0x11450, 0x114D0,
    0x11650, 0x116C0, 0x11730, 0x118E0, 0x11950, 0x11C50, 0x11D50, 0x11DA0, 0x11F50, 0x16A60,
    0x16AC0, 0x16B50, 0x1D7CE, 0x1D7D8, 0x1D7E2, 0x1D7EC, 0x1D7F6, 0x1E140, 0x1E2F0, 0x1E4F0,
    0x1E950, 0x1FBF0]

def digitOf (c : CodePoint) : Option ℕ :=
  (decimalZeros.find? fun first => first ≤ c.val && c.val ≤ first + 9).map (c.val - ·)

/-- White space that `int` skips: all but the four separators of ASCII. -/
def isIntSpace (c : CodePoint) : Bool :=
  isWhitespace c && !(0x1C ≤ c.val && c.val ≤ 0x1F)

/-- Digits with single underscores between them. -/
def intDigits : Text → Option (List ℕ)
  | [] => none
  | [c] => (digitOf c).map fun digit => [digit]
  | c :: 95 :: rest => (digitOf c).bind fun digit => (intDigits rest).map (digit :: ·)
  | c :: rest => (digitOf c).bind fun digit => (intDigits rest).map (digit :: ·)

/-- `int(value)` of a text, with a limit on the digits. -/
def intOfText (limit : Option ℕ) (value : Text) : Option ℤ :=
  let bare := (value.dropWhile isIntSpace).rdropWhile isIntSpace
  let (negative, unsigned) : Bool × Text :=
    match bare with
    | 45 :: rest => (true, rest)
    | 43 :: rest => (false, rest)
    | rest => (false, rest)
  match intDigits unsigned with
  | none => none
  | some digits =>
      if within limit digits.length then
        let magnitude : ℕ := digits.foldl (fun number digit => number * 10 + digit) 0
        some (if negative then -(magnitude : ℤ) else magnitude)
      else none

/-! ## Floats -/

/-- The greatest power of two that is not above a fraction. -/
def floorLog (numerator denominator : ℕ) : ℤ :=
  let guess : ℤ := (Nat.log 2 numerator : ℤ) - Nat.log 2 denominator
  if denominator * 2 ^ guess.toNat ≤ numerator * 2 ^ (-guess).toNat then guess else guess - 1

/-- The nearest number, the even one of two. -/
def nearestEven (numerator denominator : ℕ) : ℕ :=
  let quotient := numerator / denominator
  let twice := 2 * (numerator % denominator)
  if twice < denominator then quotient
  else if denominator < twice then quotient + 1
  else quotient + quotient % 2

/-- The integer part of the double nearest to a fraction, if it is finite. -/
def truncateDouble (numerator denominator : ℕ) : Option ℕ :=
  if numerator = 0 then some 0
  else
    let exponent := max (-1074) (floorLog numerator denominator - 52)
    let significand := nearestEven (numerator * 2 ^ (-exponent).toNat)
      (denominator * 2 ^ exponent.toNat)
    let whole := significand * 2 ^ exponent.toNat / 2 ^ (-exponent).toNat
    if whole < 2 ^ 1024 then some whole else none

/-- What `int` makes of a float. -/
inductive Truncated : Type where
  | notANumber
  | infinite
  | whole (number : ℤ)
  deriving DecidableEq

/-- A float literal without its sign: the digits in front of the exponent, how many of
them are behind the point, and the exponent. -/
def floatParts (literal : Text) : Text × ℕ × ℤ :=
  let isExponentSign : CodePoint → Bool := fun c => c == 101 || c == 69
  let front := literal.takeWhile (!isExponentSign ·)
  let exponent : ℤ :=
    match literal.drop (front.length + 1) with
    | 43 :: digits => decimalValue digits
    | signed => signedValue signed
  (front.filter (· ≠ 46), (front.dropWhile (· ≠ 46)).length - 1, exponent)

def truncateFloat (literal : Text) : Truncated :=
  if literal = text "NaN" then .notANumber
  else if literal = text "Infinity" ∨ literal = text "-Infinity" then .infinite
  else
    let (digits, behindPoint, exponent) := floatParts (unsignedPart literal)
    let scale : ℤ := exponent - behindPoint
    match truncateDouble (decimalValue digits * 10 ^ scale.toNat) (10 ^ (-scale).toNat) with
    | none => .infinite
    | some magnitude =>
        .whole (match literal with
          | 45 :: _ => -(magnitude : ℤ)
          | _ => magnitude)

/-- Whether the double nearest to a float literal is zero. -/
def isZeroFloat (literal : Text) : Bool :=
  if literal = text "NaN" ∨ literal = text "Infinity" ∨ literal = text "-Infinity" then false
  else
    let (digits, behindPoint, exponent) := floatParts (unsignedPart literal)
    let scale : ℤ := exponent - behindPoint
    nearestEven (decimalValue digits * 10 ^ scale.toNat * 2 ^ 1074) (10 ^ (-scale).toNat) = 0

end Foundation
