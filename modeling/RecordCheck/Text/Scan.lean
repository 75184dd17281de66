/-!
Readers of text. A reader takes characters from the front and leaves the others, and what it
leaves is never longer than what it found. Its failures are of a type `ε`.
-/

namespace RecordCheck.Text

/-- The characters that a reader of `cs` leaves. -/
abbrev Left (cs : List Char) : Type := { rest : List Char // rest.length ≤ cs.length }

/-- A reader with a result. -/
def Scan (ε α : Type) : Type := (cs : List Char) → Except ε (α × Left cs)

/-- All of the text, left as it is. -/
def Left.all (cs : List Char) : Left cs := ⟨cs, Nat.le_refl _⟩

namespace Scan

variable {ε α β : Type}

def pure (a : α) : Scan ε α := fun cs => .ok (a, .all cs)

def bind (x : Scan ε α) (f : α → Scan ε β) : Scan ε β := fun cs =>
  match x cs with
  | .error e => .error e
  | .ok (a, rest) =>
    match f a rest.1 with
    | .error e => .error e
    | .ok (b, more) => .ok (b, ⟨more.1, Nat.le_trans more.2 rest.2⟩)

instance : Monad (Scan ε) where
  pure := pure
  bind := bind

def fail (e : ε) : Scan ε α := fun _ => .error e

/-- All characters to come. -/
def ahead : Scan ε (List Char) := fun cs => .ok (cs, .all cs)

/-- The next character, which stays. -/
def peek : Scan ε (Option Char) := do return (← ahead).head?

/-- Takes some characters, if there are as many. -/
def skip (count : Nat) : Scan ε Unit := fun cs =>
  .ok ((), ⟨cs.drop count, by simp⟩)

/-- Takes the next character. -/
def next : Scan ε (Option Char) := do
  let c ← peek
  skip 1
  return c

/-- Takes a word, if it comes next. -/
def word (w : String) : Scan ε Bool := do
  if w.toList.isPrefixOf (← ahead) then
    skip w.length
    return true
  else return false

/-- Takes the characters at the front that have a property. -/
def takeWhile (p : Char → Bool) : Scan ε (List Char) := do
  let taken := (← ahead).takeWhile p
  skip taken.length
  return taken

/-- The results of a step that is repeated until it has none. A step with a result that takes
nothing would go on for ever and fails as `stuck`. -/
def many (stuck : ε) (step : Scan ε (Option α)) : Scan ε (List α) := fun cs =>
  match step cs with
  | .error e => .error e
  | .ok (none, left) => .ok ([], left)
  | .ok (some a, left) =>
    if _h : left.1.length < cs.length then
      match many stuck step left.1 with
      | .error e => .error e
      | .ok (more, last) => .ok (a :: more, ⟨last.1, Nat.le_trans last.2 left.2⟩)
    else .error stuck
termination_by cs => cs.length

end Scan

end RecordCheck.Text
