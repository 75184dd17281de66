import RecordCheck.Double.Basic

/-!
Decimal numbers, `coefficient · 10 ^ exponent`, their positional text, and the reading of decimal
text. A decimal is read as the nearest double.
-/

namespace RecordCheck

structure Decimal where
  coefficient : Nat
  exponent : Int
  deriving DecidableEq, Repr, Inhabited

namespace Decimal

/-- The number of a list of digits, the most significant first. -/
def ofDigits (digits : List Char) : Nat :=
  digits.foldl (fun n c => 10 * n + (c.toNat - '0'.toNat)) 0

/-- The digits of a number, the most significant first. -/
def digits (n : Nat) : List Char := Nat.toDigits 10 n

/-- Beyond these powers of ten every double is infinite, or zero. -/
def reach : Int := 400

/-- The nearest double with the given sign. The number of digits bounds the decimal between two
powers of ten, so a decimal out of reach is settled without forming its power. -/
def toDouble (negative : Bool) (d : Decimal) : Double :=
  let top := d.exponent + (digits d.coefficient).length
  if d.coefficient = 0 then Double.zero negative
  else if reach < top then Double.inf negative
  else if top < -reach then Double.zero negative
  else Double.ofRatio negative (d.coefficient * Nat.pow 10 d.exponent.toNat)
    (Nat.pow 10 (-d.exponent).toNat)

/-- Positional text: digits, and a point before those that stand for parts of one. -/
def positional (d : Decimal) : List Char :=
  let ds := digits d.coefficient
  let places := (-d.exponent).toNat
  if places = 0 then ds ++ List.replicate d.exponent.toNat '0'
  else
    let padded := List.replicate (places + 1 - ds.length) '0' ++ ds
    padded.take (padded.length - places) ++ '.' :: padded.drop (padded.length - places)

/-- Reads digits, optionally a point and digits, optionally an exponent. At least one digit must
stand before the exponent, and one in it. -/
def ofText? (text : List Char) : Option Decimal :=
  let whole := text.takeWhile Char.isDigit
  let rest := text.dropWhile Char.isDigit
  let (fraction, rest) := match rest with
    | '.' :: r => (r.takeWhile Char.isDigit, r.dropWhile Char.isDigit)
    | _ => ([], rest)
  if whole.isEmpty && fraction.isEmpty then none
  else
    let coefficient := ofDigits (whole ++ fraction)
    let shift : Int := fraction.length
    match rest with
    | [] => some ⟨coefficient, -shift⟩
    | e :: r =>
      if e = 'e' ∨ e = 'E' then
        let (negative, power) := match r with
          | '+' :: r => (false, r)
          | '-' :: r => (true, r)
          | r => (false, r)
        if power.isEmpty || !power.all Char.isDigit then none
        else
          let n : Int := ofDigits power
          some ⟨coefficient, (if negative then -n else n) - shift⟩
      else none

end Decimal

namespace Double

/-- Reads a sign, and then a decimal, an infinity or a NaN; letters count in either case. -/
def ofText? (text : List Char) : Option Double :=
  let (negative, body) := match text with
    | '+' :: r => (false, r)
    | '-' :: r => (true, r)
    | r => (false, r)
  let lower := body.map Char.toLower
  if lower = "nan".toList then some (if negative then nan.neg else nan)
  else if lower = "inf".toList ∨ lower = "infinity".toList then some (inf negative)
  else (Decimal.ofText? body).map (·.toDouble negative)

end Double

end RecordCheck
