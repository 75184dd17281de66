import RecordCheck.Double.Decimal
import RecordCheck.Text.Pieces
import RecordCheck.Validation.Validated

/-!
Addresses of nodes, such as `items[1].id`: names of fields between points, and indexes in brackets.
The empty address is that of the outermost node. Empty names and empty brackets lead nowhere and
are passed over.
-/

namespace RecordCheck

namespace Validated

/-- The node that some steps lead to. -/
def at? (t : Validated) (steps : List Step) : Option Validated := steps.foldlM child? t

end Validated

namespace Address

/-- An index: digits, after a plus sign or none. -/
def index? (text : List Char) : Option Nat :=
  let ds := match text with
    | '+' :: rest => rest
    | _ => text
  if !ds.isEmpty && ds.all Char.isDigit then some (Decimal.ofDigits ds) else none

def isBracket (c : Char) : Bool := c == '[' || c == ']'

/-- The steps of the part of an address between two points. -/
def partSteps? (part : List Char) : Option (List Step) := do
  let name := part.takeWhile (· != '[')
  let indexes ← (Text.pieces isBracket (part.dropWhile (· != '['))).mapM index?
  return (if name.isEmpty then [] else [.field (String.ofList name)]) ++ indexes.map .index

/-- The steps of an address. -/
def steps? (address : String) : Option (List Step) :=
  (·.flatten) <$> (Text.pieces (· == '.') address.toList).mapM partSteps?

end Address

/-- The node at an address. -/
def Validated.node? (t : Validated) (address : String) : Option Validated :=
  (Address.steps? address).bind t.at?

end RecordCheck
