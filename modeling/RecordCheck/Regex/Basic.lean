import RecordCheck.Regex.Class

/-!
Regular expressions as trees. Which of several matches is preferred is not kept, for all that is
asked of an expression is whether it matches.
-/

namespace RecordCheck

/-- Conditions on the place between two characters. -/
inductive Anchor where
  | textStart
  | textEnd
  | lineStart
  | lineEnd
  /-- Lines end in a carriage return, a line feed, or both together. -/
  | crlfStart
  | crlfEnd
  | boundary
  | noBoundary
  | wordStart
  | wordEnd
  | wordStartHalf
  | wordEndHalf
  deriving DecidableEq, Repr, Inhabited

/-- A group whose match would be kept has a number, from one on, and perhaps a name. -/
structure Capture where
  number : Nat
  name : Option String
  deriving DecidableEq, Repr, Inhabited

inductive Regex where
  | empty
  | char (c : Char)
  | class (set : Regex.Class)
  | anchor (kind : Anchor)
  | repeat (least : Nat) (most : Option Nat) (body : Regex)
  | group (capture : Capture) (body : Regex)
  | sequence (parts : List Regex)
  | choice (branches : List Regex)
  deriving Repr, Inhabited

namespace Regex

/-- A repetition; one of no times is empty, and one of one time is its body. -/
def repetition (least : Nat) (most : Option Nat) (body : Regex) : Regex :=
  if least = 0 ∧ most = some 0 then empty
  else if least = 1 ∧ most = some 1 then body
  else .repeat least most body

def ofParts : List Regex → Regex
  | [] => empty
  | [part] => part
  | parts => sequence parts

def ofBranches : List Regex → Regex
  | [branch] => branch
  | branches => choice branches

mutual

/-- The number of nested nodes below the outermost one. -/
def depth : Regex → Nat
  | .repeat _ _ body => depth body + 1
  | group _ body => depth body + 1
  | sequence parts => depthOf parts
  | choice branches => depthOf branches
  | _ => 0

/-- The depth of a node with the given nodes directly below it. -/
def depthOf : List Regex → Nat
  | [] => 0
  | part :: rest => max (depth part + 1) (depthOf rest)

end

end Regex

end RecordCheck
