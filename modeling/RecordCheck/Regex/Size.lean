import RecordCheck.Regex.Basic

/-!
The size of an expression, in bytes of the program that runs it. A program has a state for each
character, class or anchor, and forks between them. Counted repetitions are written out, so that a
short expression may have a long program.
-/

namespace RecordCheck

/-- The size of a name, which is kept with a number of four bytes. -/
def Capture.nameSize (capture : Capture) : Nat :=
  match capture.name with
  | some name => name.utf8ByteSize + 4
  | none => 0

namespace Regex

/-- The size of the largest program. -/
def sizeLimit : Nat := 10 <<< 20

/-- The size of a state without its ranges or targets. -/
def stateSize : Nat := 32

/-- The size of each range of a class. -/
def rangeSize : Nat := 8

/-- The size of each target of a fork. Other states have one target, which is part of them. -/
def targetSize : Nat := 4

/-- The size of the entry for each group with a number. -/
def captureSize : Nat := 16

mutual

/-- The expression may match no character at all. -/
def isNullable : Regex → Bool
  | empty => true
  | char _ => false
  | .class _ => false
  | anchor _ => true
  | .repeat least _ body => least == 0 || isNullable body
  | group _ body => isNullable body
  | sequence parts => areNullable parts
  | choice branches => anyNullable branches

def areNullable : List Regex → Bool
  | [] => true
  | part :: rest => isNullable part && areNullable rest

def anyNullable : List Regex → Bool
  | [] => false
  | branch :: rest => isNullable branch || anyNullable rest

end

mutual

/-- The program leaves at a fork, which needs a target more for what follows. -/
def endsInFork : Regex → Bool
  | .repeat least none body => least != 0 || !isNullable body
  | .repeat least (some most) body => least == most && endsInFork body
  | sequence parts => lastEndsInFork parts
  | _ => false

def lastEndsInFork : List Regex → Bool
  | [] => false
  | part :: rest => if rest.isEmpty then endsInFork part else lastEndsInFork rest

end

/-- The size that what follows adds at the end of the program. -/
def linkSize (regex : Regex) : Nat := if regex.endsInFork then targetSize else 0

/-- The size of a repetition, given the size of its body and of a link after it. A repetition
without a most number has a fork back; if nothing need be matched, a fork past the body goes with
it. One with a most number has a fork past each copy above the least number. -/
def repeatSize (least : Nat) (most : Option Nat) (nullable : Bool) (body link : Nat) : Nat :=
  match most with
  | none =>
    if least = 0 ∧ nullable then body + link + 3 * stateSize + 4 * targetSize
    else max least 1 * (body + link) + stateSize + targetSize
  | some most =>
    let forks := (most - least) * (stateSize + 2 * targetSize)
    if least = most then most * body + (most - 1) * link
    else if least = 0 ∧ most = 1 then body + link + forks + stateSize
    else if least = 0 then most * (body + link) + forks + 2 * stateSize
    else most * (body + link) + forks + stateSize

mutual

/-- The size of the states for an expression. -/
def size : Regex → Nat
  | empty => stateSize
  | char _ => stateSize
  | .class set => stateSize + rangeSize * set.length
  | anchor _ => stateSize
  | .repeat least most body =>
    repeatSize least most (isNullable body) (size body) (linkSize body)
  | group _ body => size body + linkSize body + 2 * stateSize
  | sequence parts => sequenceSize parts
  | choice branches => choiceSize branches + 2 * stateSize

/-- The size of some parts with the links between them. -/
def sequenceSize : List Regex → Nat
  | [] => 0
  | part :: rest =>
    if rest.isEmpty then size part else size part + linkSize part + sequenceSize rest

/-- The size of some branches with the targets of the fork before them. -/
def choiceSize : List Regex → Nat
  | [] => 0
  | branch :: rest => size branch + linkSize branch + targetSize + choiceSize rest

end

mutual

/-- The groups with a number, in the order of their numbers. -/
def captures : Regex → List Capture
  | .repeat _ _ body => captures body
  | group capture body => capture :: captures body
  | sequence parts => capturesOf parts
  | choice branches => capturesOf branches
  | _ => []

def capturesOf : List Regex → List Capture
  | [] => []
  | part :: rest => captures part ++ capturesOf rest

end

/-- The size of the whole program. The whole match is a group as well, with the number zero, and
numbers that are not in use below the last one have an entry too. -/
def programSize (regex : Regex) : Nat :=
  let last := (regex.captures.getLast?.map Capture.number).getD 0
  let names := regex.captures.foldl (fun size capture => size + capture.nameSize) 0
  captureSize * (last + 1) + names + regex.size + regex.linkSize + 3 * stateSize

end Regex

end RecordCheck
