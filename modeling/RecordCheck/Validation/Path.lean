import RecordCheck.Text.Quoted

/-!
Places inside a value: the name of the outermost value, and the steps that lead inwards from it.
-/

namespace RecordCheck

/-- One step into an object, a list or a map. -/
inductive Step where
  | field (name : String)
  | index (i : Nat)
  | key (key : String)
  deriving DecidableEq, Repr, Inhabited

namespace Step

def text : Step → String
  | field name => "." ++ name
  | index i => "[" ++ toString i ++ "]"
  | key k => "[" ++ Text.quoted k ++ "]"

end Step

/-- A place: steps from the outside in. -/
structure Path where
  root : String
  steps : List Step := []
  deriving DecidableEq, Repr, Inhabited

namespace Path

def push (path : Path) (step : Step) : Path := { path with steps := path.steps ++ [step] }

/-- The number of steps. -/
def depth (path : Path) : Nat := path.steps.length

def text (path : Path) : String := path.root ++ String.join (path.steps.map Step.text)

end Path

end RecordCheck
