/-!
Binary floating-point numbers of 64 bits, given by their words. Sums, products and quotients are
formed exactly and rounded once, to the nearest number and at a tie to the even word. The order
of two numbers is the order of their signed words.
-/

namespace RecordCheck

/-- A number of 64 bits: a sign, eleven bits of exponent, 52 bits of fraction. -/
structure Double where
  word : UInt64
  deriving DecidableEq, Repr, Inhabited

namespace Double

/-- The sign bit is set. -/
def isNegative (x : Double) : Bool := decide (1 <<< 63 ≤ x.word.toNat)

/-- The word without its sign. It grows with the absolute value. -/
def magnitude (x : Double) : Nat := x.word.toNat % (1 <<< 63)

/-- The magnitude of the infinities; all above it are not numbers. -/
def infinity : Nat := 2047 <<< 52

def isNaN (x : Double) : Bool := decide (infinity < x.magnitude)

def isInfinite (x : Double) : Bool := decide (x.magnitude = infinity)

def isFinite (x : Double) : Bool := decide (x.magnitude < infinity)

def isZero (x : Double) : Bool := decide (x.magnitude = 0)

def ofMagnitude (negative : Bool) (m : Nat) : Double :=
  ⟨UInt64.ofNat ((if negative then 1 <<< 63 else 0) + m)⟩

def nan : Double := ofMagnitude false (4095 <<< 51)

def inf (negative : Bool) : Double := ofMagnitude negative infinity

def zero (negative : Bool) : Double := ofMagnitude negative 0

/-- The place of a number on the line; both zeros stand at 0. -/
def key (x : Double) : Int := if x.isNegative then -(x.magnitude : Int) else x.magnitude

/-- Equality of numbers: a NaN equals nothing, and the zeros are equal. -/
def numEq (x y : Double) : Bool := !x.isNaN && !y.isNaN && x.key == y.key

/-- The order of two numbers, none where one is a NaN. -/
def compare? (x y : Double) : Option Ordering :=
  if x.isNaN || y.isNaN then none else some (compare x.key y.key)

/-! ### Exact values -/

/-- The least positive number is one unit, and every finite magnitude is this many of them. -/
def unitsOf (m : Nat) : Nat :=
  let exponent := m >>> 52
  let fraction := m % (1 <<< 52)
  if exponent = 0 then fraction else (1 <<< 52 + fraction) <<< (exponent - 1)

/-- The number of units in 1. -/
def unitsInOne : Nat := 1 <<< 1074

/-- A finite number in units, with its sign. -/
def units (x : Double) : Int :=
  if x.isNegative then -(unitsOf x.magnitude : Int) else unitsOf x.magnitude

/-- The integer nearest to `n / d`, at a tie the even one. -/
def nearestEven (n d : Nat) : Nat :=
  if 2 * (n % d) < d then n / d
  else if d < 2 * (n % d) then n / d + 1
  else n / d + n / d % 2

/-- The exponent of the leading bit of `n / d`. -/
def leading (n d : Nat) : Int :=
  let e : Int := (n.log2 : Int) - d.log2
  if d <<< e.toNat ≤ n <<< (-e).toNat then e else e - 1

/-- The magnitude nearest to `n / d`. The fraction counts steps of the leading bit's binade, so a
carry out of it moves to the next exponent by itself. -/
def magnitudeOf (n d : Nat) : Nat :=
  if n = 0 then 0
  else
    let e := max (leading n d) (-1022)
    let q := nearestEven (n <<< (52 - e).toNat) (d <<< (e - 52).toNat)
    min ((e + 1022).toNat <<< 52 + q) infinity

/-- The number nearest to `n / d` with the given sign. -/
def ofRatio (negative : Bool) (n d : Nat) : Double := ofMagnitude negative (magnitudeOf n d)

/-- The number nearest to an integer. -/
def ofInt (n : Int) : Double := ofRatio (decide (n < 0)) n.natAbs 1

/-! ### Arithmetic -/

def neg (x : Double) : Double := ofMagnitude (!x.isNegative) x.magnitude

def abs (x : Double) : Double := ofMagnitude false x.magnitude

/-- An exact sum of zero is negative only if both terms are. -/
def add (x y : Double) : Double :=
  if x.isNaN || y.isNaN then nan
  else if x.isInfinite then
    if y.isInfinite && x.isNegative != y.isNegative then nan else x
  else if y.isInfinite then y
  else
    let s := x.units + y.units
    if s = 0 then zero (x.isNegative && y.isNegative)
    else ofRatio (decide (s < 0)) s.natAbs unitsInOne

def sub (x y : Double) : Double := x.add y.neg

def mul (x y : Double) : Double :=
  let negative := x.isNegative != y.isNegative
  if x.isNaN || y.isNaN then nan
  else if x.isInfinite || y.isInfinite then
    if x.isZero || y.isZero then nan else inf negative
  else ofRatio negative (unitsOf x.magnitude * unitsOf y.magnitude) (unitsInOne * unitsInOne)

def div (x y : Double) : Double :=
  let negative := x.isNegative != y.isNegative
  if x.isNaN || y.isNaN then nan
  else if x.isInfinite then
    if y.isInfinite then nan else inf negative
  else if y.isInfinite then zero negative
  else if y.isZero then
    if x.isZero then nan else inf negative
  else ofRatio negative (unitsOf x.magnitude) (unitsOf y.magnitude)

/-- The nearest integer; a half goes away from zero, and the sign stays. -/
def roundAway (x : Double) : Double :=
  if x.isFinite then
    ofRatio x.isNegative ((2 * unitsOf x.magnitude + unitsInOne) / (2 * unitsInOne)) 1
  else x

/-- Repeated squaring: the factors of `base ^ n`, from the lowest bit of `n` up, times `acc`. -/
def powNat (base acc : Double) (n : Nat) : Double :=
  let acc := if n % 2 = 1 then acc.mul base else acc
  if n / 2 = 0 then acc else powNat (base.mul base) acc (n / 2)
termination_by n

/-- An integer power; a negative one is the reciprocal of the positive. -/
def powInt (base : Double) (n : Int) : Double :=
  let p := powNat base (ofInt 1) n.natAbs
  if n < 0 then (ofInt 1).div p else p

end Double

end RecordCheck
