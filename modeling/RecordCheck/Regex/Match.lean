import RecordCheck.Regex.Basic

/-!
Matching. A set of places in a text is a number whose bits are the places, and an expression leads
from the places where a match may start to those where it may end. Which of several matches is
found does not matter, so all are followed at once.
-/

namespace RecordCheck

namespace Regex

/-- The number whose bit `i` says whether the `i`-th item of a list has a property. -/
def bits {α : Type} (p : α → Bool) : List α → Nat
  | [] => 0
  | a :: rest => 2 * bits p rest + (p a).toNat

/-- The characters around each place of a text, from its start to its end. -/
def gapsOf (before : Option Char) : List Char → List (Option Char × Option Char)
  | [] => [(before, none)]
  | c :: rest => (before, some c) :: gapsOf (some c) rest

def isWordChar (c : Option Char) : Bool := c.any Class.word.contains

end Regex

/-- Whether an anchor holds between two characters. At an end of the text one is missing. -/
def Anchor.holds (anchor : Anchor) (gap : Option Char × Option Char) : Bool :=
  let (before, after) := gap
  let wordBefore := Regex.isWordChar before
  let wordAfter := Regex.isWordChar after
  match anchor with
  | .textStart => before.isNone
  | .textEnd => after.isNone
  | .lineStart => before.isNone || before == some '\n'
  | .lineEnd => after.isNone || after == some '\n'
  | .crlfStart =>
    before.isNone || before == some '\n' || (before == some '\r' && after != some '\n')
  | .crlfEnd =>
    after.isNone || after == some '\r' || (after == some '\n' && before != some '\r')
  | .boundary => wordBefore != wordAfter
  | .noBoundary => wordBefore == wordAfter
  | .wordStart => !wordBefore && wordAfter
  | .wordEnd => wordBefore && !wordAfter
  | .wordStartHalf => !wordBefore
  | .wordEndHalf => !wordAfter

namespace Regex

/-- An expression on one text. Instead of conditions on characters it has the sets of the places
where they hold. -/
inductive Walk where
  | stay
  | blocked
  /-- Goes on by one place, from any of the given places. -/
  | step (places : Nat)
  /-- Stays, at any of the given places. -/
  | hold (places : Nat)
  /-- Repeats a walk so many times, and then up to so many times more. -/
  | repeat (least further : Nat) (body : Walk)
  | andThen (first second : Walk)
  | orElse (first second : Walk)
  deriving Repr, Inhabited

namespace Walk

/-- Applies a function so many times, or until nothing changes. -/
def iterate (f : Nat → Nat) : Nat → Nat → Nat
  | 0, places => places
  | count + 1, places =>
    let next := f places
    if next = places then places else iterate f count next

/-- Adds the places that up to so many applications of a function lead to. Those in `fresh` are
the ones that the last application led to for the first time. -/
def spread (f : Nat → Nat) : Nat → (places fresh : Nat) → Nat
  | 0, places, _ => places
  | count + 1, places, fresh =>
    let all := places ||| f fresh
    if all = places then places else spread f count all (all ^^^ places)

/-- The places where a walk may end that starts at one of the given places. -/
def ends : Walk → Nat → Nat
  | stay, places => places
  | blocked, _ => 0
  | step allowed, places => 2 * (places &&& allowed)
  | hold allowed, places => places &&& allowed
  | .repeat least further body, places =>
    let reached := iterate body.ends least places
    spread body.ends further reached reached
  | andThen first second, places => second.ends (first.ends places)
  | orElse first second, places => first.ends places ||| second.ends places

end Walk

mutual

/-- The walk of an expression on a text. A body that is repeated more often than the text has
places repeats an empty match, so that its count may stop there. -/
def walk (text : List Char) : Regex → Walk
  | empty => .stay
  | char c => .step (bits (· == c) text)
  | .class set => .step (bits set.contains text)
  | anchor kind => .hold (bits kind.holds (gapsOf none text))
  | .repeat least most body =>
    let limit := text.length + 1
    .repeat (min least limit) (min ((most.map (· - least)).getD limit) limit) (walk text body)
  | group _ body => walk text body
  | sequence parts => walkAll text parts
  | choice branches => walkAny text branches

def walkAll (text : List Char) : List Regex → Walk
  | [] => .stay
  | part :: rest => .andThen (walk text part) (walkAll text rest)

def walkAny (text : List Char) : List Regex → Walk
  | [] => .blocked
  | branch :: rest => .orElse (walk text branch) (walkAny text rest)

end

/-- The expression matches some part of the text. -/
def isMatch (regex : Regex) (text : String) : Bool :=
  let chars := text.toList
  (regex.walk chars).ends (1 <<< (chars.length + 1) - 1) != 0

end Regex

end RecordCheck
