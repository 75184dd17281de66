import RecordCheck.Double.Decimal
import RecordCheck.Toml.Basic

/-!
Booleans, numbers and dates, each written as one word.
-/

namespace RecordCheck.Toml

/-! ### Digits -/

/-- Digits with single underscores between them, without the underscores. -/
def grouped? (isDigit : Char → Bool) : List Char → Option (List Char)
  | [] => none
  | [c] => if isDigit c then some [c] else none
  | c :: '_' :: rest => if isDigit c then (grouped? isDigit rest).map (c :: ·) else none
  | c :: d :: rest => if isDigit c then (grouped? isDigit (d :: rest)).map (c :: ·) else none

def digitValue (c : Char) : Nat :=
  if c.isDigit then c.toNat - '0'.toNat
  else if 'a' ≤ c then c.toNat - 'a'.toNat + 10
  else c.toNat - 'A'.toNat + 10

def isDigitOf (base : Nat) (c : Char) : Bool :=
  (c.isDigit || ('a' ≤ c && c ≤ 'f') || ('A' ≤ c && c ≤ 'F')) && decide (digitValue c < base)

/-- The number of some digits, the most significant first. -/
def ofDigits (base : Nat) (digits : List Char) : Nat :=
  digits.foldl (fun n c => base * n + digitValue c) 0

/-- The sign of a number and the text after it. -/
def signed : List Char → Bool × List Char
  | '-' :: rest => (true, rest)
  | '+' :: rest => (false, rest)
  | cs => (false, cs)

/-! ### Integers -/

/-- The digits of a whole number, of which the first is zero only if it is the last. -/
def whole? (cs : List Char) : Option (List Char) :=
  match cs with
  | '0' :: _ :: _ => none
  | _ => grouped? Char.isDigit cs

/-- An integer with a sign, or one of another base without. -/
def integer? : List Char → Option Int
  | '0' :: 'x' :: rest => (grouped? (isDigitOf 16) rest).map fun ds => (ofDigits 16 ds : Int)
  | '0' :: 'o' :: rest => (grouped? (isDigitOf 8) rest).map fun ds => (ofDigits 8 ds : Int)
  | '0' :: 'b' :: rest => (grouped? (isDigitOf 2) rest).map fun ds => (ofDigits 2 ds : Int)
  | cs =>
    let (negative, rest) := signed cs
    (whole? rest).map fun ds => if negative then -(ofDigits 10 ds : Int) else (ofDigits 10 ds : Int)

/-! ### Floats -/

def isExponentMark (c : Char) : Bool := c == 'e' || c == 'E'

/-- The exponent after its mark. -/
def exponent? (cs : List Char) : Option (List Char) :=
  let (negative, rest) := signed cs
  (grouped? Char.isDigit rest).map fun ds => if negative then '-' :: ds else ds

/-- The plain decimal text of a float: whole digits and then a fraction, an exponent or both. -/
def floatText? (cs : List Char) : Option (List Char) := do
  let mantissa := cs.takeWhile fun c => !isExponentMark c
  let power ← match cs.drop mantissa.length with
    | [] => some []
    | _ :: rest => (exponent? rest).map ('e' :: ·)
  let whole ← whole? (mantissa.takeWhile (· != '.'))
  let fraction ← match mantissa.dropWhile (· != '.') with
    | [] => some []
    | _ :: rest => (grouped? Char.isDigit rest).map ('.' :: ·)
  if fraction.isEmpty && power.isEmpty then none else some (whole ++ fraction ++ power)

/-- A float, its digits rounded to the nearest double, or one of the special ones. Digits that
round to positive infinity are no float. -/
def float? (cs : List Char) : Option Double :=
  let (negative, rest) := signed cs
  match rest with
  | ['i', 'n', 'f'] => some (Double.inf negative)
  | ['n', 'a', 'n'] => some Double.nan
  | _ => do
    let decimal ← Decimal.ofText? (← floatText? rest)
    let x := decimal.toDouble negative
    if x = Double.inf false then none else some x

/-! ### Dates and times -/

/-- A number of two digits between bounds at the front of a text, and the text after it. -/
def twoDigits? (least most : Nat) : List Char → Option (Nat × List Char)
  | c :: d :: rest =>
    let n := ofDigits 10 [c, d]
    if c.isDigit && d.isDigit && decide (least ≤ n ∧ n ≤ most) then some (n, rest) else none
  | _ => none

def isLeapYear (year : Nat) : Bool :=
  year % 4 == 0 && (year % 100 != 0 || year % 400 == 0)

def daysInMonth (year month : Nat) : Nat :=
  if month = 2 then if isLeapYear year then 29 else 28
  else if month = 4 ∨ month = 6 ∨ month = 9 ∨ month = 11 then 30
  else 31

/-- The text after a date. -/
def afterDate? (cs : List Char) : Option (List Char) := do
  let year := cs.take 4
  guard (year.length == 4 && year.all Char.isDigit)
  match cs.drop 4 with
  | '-' :: rest =>
    let (month, rest) ← twoDigits? 1 12 rest
    match rest with
    | '-' :: rest =>
      let (_, rest) ← twoDigits? 1 (daysInMonth (ofDigits 10 year) month) rest
      return rest
    | _ => none
  | _ => none

/-- The text after a time of day, which may have parts of seconds. -/
def afterTime? (cs : List Char) : Option (List Char) := do
  match ← twoDigits? 0 23 cs with
  | (_, ':' :: rest) =>
    match ← twoDigits? 0 59 rest with
    | (_, ':' :: rest) =>
      match ← twoDigits? 0 60 rest with
      | (_, '.' :: c :: rest) => if c.isDigit then some (rest.dropWhile Char.isDigit) else none
      | (_, rest) => some rest
    | _ => none
  | _ => none

/-- A distance from universal time, or nothing. -/
def isOffset : List Char → Bool
  | [] => true
  | ['Z'] => true
  | ['z'] => true
  | c :: rest =>
    (c == '+' || c == '-') &&
      match twoDigits? 0 23 rest with
      | some (_, ':' :: rest) => (twoDigits? 0 59 rest).any fun (_, rest) => rest.isEmpty
      | _ => false

def isDateMark (c : Char) : Bool := c == 'T' || c == 't' || c == ' '

/-- A date, a time, or both with or without an offset. -/
def isDateTime (cs : List Char) : Bool :=
  match afterDate? cs with
  | some [] => true
  | some (mark :: rest) => isDateMark mark && (afterTime? rest).any isOffset
  | none => afterTime? cs == some []

/-! ### Words -/

/-- The value that a word stands for. Integers have 64 bits. -/
def Value.ofWord (word : List Char) : Except Fault Value :=
  if word = "true".toList then .ok (.boolean true)
  else if word = "false".toList then .ok (.boolean false)
  else if isDateTime word then .ok (.dateTime (String.ofList word))
  else
    match integer? word with
    | some n =>
      if Int64.minValue.toInt ≤ n ∧ n ≤ Int64.maxValue.toInt then .ok (.integer (Int64.ofInt n))
      else .error .outOfRange
    | none =>
      match float? word with
      | some x => .ok (.float x)
      | none => .error .malformed

end RecordCheck.Toml
