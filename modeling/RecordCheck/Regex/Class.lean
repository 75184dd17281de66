import RecordCheck.Text.CodePoints

/-!
Character classes of regular expressions: ascending ranges of code points that do not touch.
-/

namespace RecordCheck.Regex

/-- The code points from `first` to `last`. -/
structure Range where
  first : Nat
  last : Nat
  deriving DecidableEq, Repr, Inhabited

namespace Range

def ofChars (first last : Char) : Range := ⟨first.toNat, last.toNat⟩

def contains (range : Range) (c : Char) : Bool :=
  decide (range.first ≤ c.toNat ∧ c.toNat ≤ range.last)

/-- The letters of a range in the other case. A range with small letters gives their capitals;
only one without them gives the small letters of its capitals. -/
def otherCase? (range : Range) : Option Range :=
  let small := Range.mk (max range.first 'a'.toNat) (min range.last 'z'.toNat)
  let capital := Range.mk (max range.first 'A'.toNat) (min range.last 'Z'.toNat)
  if small.first ≤ small.last then some ⟨small.first - 32, small.last - 32⟩
  else if capital.first ≤ capital.last then some ⟨capital.first + 32, capital.last + 32⟩
  else none

end Range

/-- The last code point. -/
def lastPoint : Nat := 0x10ffff

abbrev Class := List Range

namespace Class

/-- Joins each range of an ascending list with those after it that it overlaps or touches. -/
def join (range : Range) : List Range → List Range
  | [] => [range]
  | next :: rest =>
    if next.first ≤ range.last + 1 then join ⟨range.first, max range.last next.last⟩ rest
    else range :: join next rest

/-- The class of some ranges in any order. -/
def ofRanges (ranges : List Range) : Class :=
  match ranges.mergeSort fun a b => decide (a.first ≤ b.first) with
  | [] => []
  | range :: rest => join range rest

def contains (set : Class) (c : Char) : Bool := List.any set (·.contains c)

/-- The gaps of a class from the code point `start` on. -/
def gaps (start : Nat) : List Range → List Range
  | [] => if start ≤ lastPoint then [⟨start, lastPoint⟩] else []
  | range :: rest =>
    let later := gaps (range.last + 1) rest
    if start < range.first then ⟨start, range.first - 1⟩ :: later else later

def complement (set : Class) : Class := gaps 0 set

/-- The class with the other case of its ranges. -/
def foldCase (set : Class) : Class := ofRanges (set ++ List.filterMap Range.otherCase? set)

def ofPairs (pairs : List (Char × Char)) : Class :=
  ofRanges (pairs.map fun (first, last) => .ofChars first last)

def digit : Class := ofPairs [('0', '9')]

def word : Class := ofPairs [('0', '9'), ('A', 'Z'), ('_', '_'), ('a', 'z')]

def space : Class := ofPairs [('\t', '\r'), (' ', ' ')]

/-- The classes with a name between `[:` and `:]`. -/
def named? (name : String) : Option Class :=
  match name with
  | "alnum" => some (ofPairs [('0', '9'), ('A', 'Z'), ('a', 'z')])
  | "alpha" => some (ofPairs [('A', 'Z'), ('a', 'z')])
  | "ascii" => some (ofPairs [('\x00', '\x7f')])
  | "blank" => some (ofPairs [('\t', '\t'), (' ', ' ')])
  | "cntrl" => some (ofPairs [('\x00', '\x1f'), ('\x7f', '\x7f')])
  | "digit" => some digit
  | "graph" => some (ofPairs [('!', '~')])
  | "lower" => some (ofPairs [('a', 'z')])
  | "print" => some (ofPairs [(' ', '~')])
  | "punct" => some (ofPairs [('!', '/'), (':', '@'), ('[', '`'), ('\x7b', '~')])
  | "space" => some space
  | "upper" => some (ofPairs [('A', 'Z')])
  | "word" => some word
  | "xdigit" => some (ofPairs [('0', '9'), ('A', 'F'), ('a', 'f')])
  | _ => none

end Class

end RecordCheck.Regex
