/-!
Orders that respect dependencies. `deps` lists for each index from 0 on the indexes that it waits
for. Each index counts down those that are not placed yet, and of the indexes that wait for nothing
more the least goes next, so the order is the given one where nothing forces another.
-/

namespace RecordCheck.Dependencies

/-- The indexes that `i` waits for. -/
def waitsFor (deps : List (List Nat)) (i : Nat) : List Nat := deps[i]?.getD []

/-- The indexes that wait for `i`, in ascending order, each as often as it names `i`. -/
def waitingFor (deps : List (List Nat)) (i : Nat) : List Nat :=
  (List.range deps.length).flatMap fun j => List.replicate ((waitsFor deps j).count i) j

/-- How far the placing of the indexes has come. -/
structure Progress where
  /-- How many indexes each index still waits for. As an integer it would show a count too many. -/
  pending : List Int
  /-- The indexes that are not placed and wait for nothing more. -/
  ready : List Nat
  /-- The indexes that are placed, in this order. -/
  placed : List Nat

namespace Progress

def start (deps : List (List Nat)) : Progress :=
  let pending := deps.map fun waits => (waits.length : Int)
  { pending
    ready := (List.range deps.length).filter fun i => pending[i]? == some 0
    placed := [] }

/-- One that `i` waits for has been placed. -/
def countDown (p : Progress) (i : Nat) : Progress :=
  let left := p.pending[i]?.getD 0 - 1
  { p with
    pending := p.pending.set i left
    ready := if left = 0 then i :: p.ready else p.ready }

/-- Moves `i` to the placed indexes. -/
def take (p : Progress) (i : Nat) : Progress :=
  { p with ready := p.ready.erase i, placed := p.placed ++ [i] }

def place (deps : List (List Nat)) (p : Progress) (i : Nat) : Progress :=
  (waitingFor deps i).foldl countDown (p.take i)

/-- Places up to so many more indexes, each time the least that is ready. -/
def run (deps : List (List Nat)) : Nat → Progress → Progress
  | 0, p => p
  | count + 1, p =>
    match p.ready.min? with
    | some i => run deps count (p.place deps i)
    | none => p

end Progress

/-- The first index that `i` waits for and that is not placed. -/
def open? (deps : List (List Nat)) (placed : List Nat) (i : Nat) : Option Nat :=
  (waitsFor deps i).find? fun d => !placed.contains d

/-- Follows from the last index of a path the first dependency that is not placed, until an index
comes back. The result starts and ends with that index. -/
def follow (deps : List (List Nat)) (placed : List Nat) : Nat → List Nat → Nat → List Nat
  | 0, path, _ => path
  | count + 1, path, current =>
    match open? deps placed current with
    | none => path
    | some d =>
      if path.contains d then path.dropWhile (· != d) ++ [d]
      else follow deps placed count (path ++ [d]) d

/-- A cycle among the indexes that are not placed. -/
def cycle (deps : List (List Nat)) (placed : List Nat) : List Nat :=
  match (List.range deps.length).find? fun i => !placed.contains i with
  | some i => follow deps placed deps.length [i] i
  | none => []

/-- The indexes that are placed in the end. -/
def finished (deps : List (List Nat)) : List Nat :=
  ((Progress.start deps).run deps deps.length).placed

/-- The order of all indexes, or a cycle. -/
def order (deps : List (List Nat)) : Except (List Nat) (List Nat) :=
  let placed := finished deps
  if placed.length < deps.length then .error (cycle deps placed) else .ok placed

end RecordCheck.Dependencies
