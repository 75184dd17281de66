import RecordCheck.Eval.Error
import RecordCheck.Text.Search
import RecordCheck.Value.Equality
import RecordCheck.Value.Order

/-!
The operators of expressions on values. Integers are computed exactly and must fit into 64 bits.
Null stands for a missing value: most operators pass it on.
-/

namespace RecordCheck.Eval

abbrev Result (α : Type) : Type := Except EvalError α

def typeError {α : Type} (fault : TypeFault) : Result α := .error (.type fault)

/-- An integer, if it fits into 64 bits. -/
def fit (n : Int) : Result Value :=
  if Int64.minValue.toInt ≤ n ∧ n ≤ Int64.maxValue.toInt then .ok (.int (Int64.ofInt n))
  else typeError .overflow

/-! ### Arithmetic -/

/-- An operator on two integers or two numbers, of which an integer beside a float is widened. -/
def arithmetic (op : BinaryOp) (onInts : Int → Int → Result Value)
    (onFloats : Double → Double → Result Value) : Value → Value → Result Value
  | .null, _ => .ok .null
  | _, .null => .ok .null
  | .int a, .int b => onInts a.toInt b.toInt
  | x, y =>
    match x.float?, y.float? with
    | some a, some b => onFloats a b
    | _, _ => typeError (.arithmetic op x.typeName y.typeName)

/-- Sums of numbers, and strings and lists put together. -/
def add : Value → Value → Result Value
  | .string s, .string t => .ok (.string (s ++ t))
  | .list xs, .list ys => .ok (.list (xs ++ ys))
  | x, y => arithmetic .add (fun a b => fit (a + b)) (fun a b => .ok (.float (a.add b))) x y

def sub : Value → Value → Result Value :=
  arithmetic .sub (fun a b => fit (a - b)) (fun a b => .ok (.float (a.sub b)))

def mul : Value → Value → Result Value :=
  arithmetic .mul (fun a b => fit (a * b)) (fun a b => .ok (.float (a.mul b)))

/-- Quotients; those of integers are cut towards zero. -/
def div : Value → Value → Result Value :=
  arithmetic .div
    (fun a b => if b = 0 then .error .divisionByZero else fit (a.tdiv b))
    (fun a b => if b.isZero then .error .divisionByZero else .ok (.float (a.div b)))

/-- Remainders of integers, with the sign of the dividend, where the quotient fits. -/
def mod : Value → Value → Result Value
  | .null, _ => .ok .null
  | _, .null => .ok .null
  | .int a, .int b =>
    if b.toInt = 0 then .error .divisionByZero
    else (fit (a.toInt.tdiv b.toInt)).bind fun _ => fit (a.toInt.tmod b.toInt)
  | x, y => typeError (.arithmetic .mod x.typeName y.typeName)

def neg : Value → Result Value
  | .null => .ok .null
  | .int a => fit (-a.toInt)
  | .float x => .ok (.float x.neg)
  | v => typeError (.negation v.typeName)

/-! ### Logic -/

def not : Value → Result Value
  | .bool b => .ok (.bool !b)
  | .null => .ok .null
  | v => typeError (.complement v.typeName)

/-- An operand of `and` or `or`; null is neither true nor false. -/
def truth (op : BinaryOp) : Value → Result (Option Bool)
  | .bool b => .ok (some b)
  | .null => .ok none
  | v => typeError (.logical op v.typeName)

def ofTruth : Option Bool → Value
  | some b => .bool b
  | none => .null

/-- `and` and `or`. An operand equal to `decisive` decides; the right one is asked for only if the
left one does not. -/
def connective (op : BinaryOp) (decisive : Bool) (left : Value) (right : Result Value) :
    Result Value := do
  match ← truth op left with
  | some a =>
    if a = decisive then return .bool decisive
    else return ofTruth (← truth op (← right))
  | none =>
    if (← truth op (← right)) = some decisive then return .bool decisive else return .null

/-! ### Comparisons -/

/-- Equality of values in expressions: a member of an enumeration also equals its variant as a
string. -/
def equal : Value → Value → Bool
  | .member _ variant, .string s => variant == s
  | .string s, .member _ variant => s == variant
  | x, y => x.looseEq y

/-- The order of values in expressions: members of enumerations stand where their variants do. -/
def order? (x y : Value) : Option Ordering :=
  match x.text?, y.text? with
  | some s, some t => some (compareText s t)
  | _, _ => x.compare? y

def isNaN : Value → Bool
  | .float x => x.isNaN
  | _ => false

def holds (op : CompareOp) (o : Ordering) : Bool :=
  match op with
  | .eq => o == .eq
  | .ne => o != .eq
  | .lt => o == .lt
  | .le => o != .gt
  | .gt => o == .gt
  | .ge => o != .lt

/-- Compares two values. Null has no place in the order, and a NaN none either. -/
def compare (op : CompareOp) (x y : Value) : Result Value :=
  match op with
  | .eq => .ok (.bool (equal x y))
  | .ne => .ok (.bool !(equal x y))
  | op =>
    if x.isNull || y.isNull then .ok .null
    else if isNaN x || isNaN y then .ok (.bool false)
    else
      match order? x y with
      | some o => .ok (.bool (holds op o))
      | none => typeError (.comparison op x.typeName y.typeName)

/-! ### Parts of values -/

/-- The field of an object or the entry of a map. -/
def fieldOf (base : Value) (name : String) : Result Value :=
  match base with
  | .object className fields =>
    match Fields.find? name fields with
    | some v => .ok v
    | none => .error (.unknownField name className)
  | .map entries =>
    match Fields.find? name entries with
    | some v => .ok v
    | none => .error (.missingKey name)
  | .null => .ok .null
  | v => typeError (.access name v.typeName)

/-- The item at a position; negative positions count from the end. -/
def itemAt {α : Type} (items : List α) (i : Int64) : Result α :=
  let position := if i.toInt < 0 then (items.length : Int) + i.toInt else i.toInt
  if position < 0 then .error (.indexOutOfRange i items.length)
  else
    match items[position.toNat]? with
    | some a => .ok a
    | none => .error (.indexOutOfRange i items.length)

def indexOf (base index : Value) : Result Value :=
  match base, index with
  | .string s, .int i => (itemAt s.toList i).map fun c => .string c.toString
  | .null, _ => .ok .null
  | .list items, .int i => itemAt items i
  | .map entries, key =>
    match key.text? with
    | some k => fieldOf (.map entries) k
    | none => typeError (.index base.typeName key.typeName)
  | .object className fields, key =>
    match key.text? with
    | some k => fieldOf (.object className fields) k
    | none => typeError (.index base.typeName key.typeName)
  | base, index => typeError (.index base.typeName index.typeName)

/-- Membership: items of a list, keys of a map, names of an object, parts of a string. -/
def membership (needle haystack : Value) : Result Value :=
  let fault : Result Value :=
    typeError (.membership needle.typeName haystack.typeName)
  match haystack with
  | .null => .ok .null
  | .list items => .ok (.bool (items.any (equal needle)))
  | .map entries =>
    match needle.text? with
    | some key => .ok (.bool (Fields.contains key entries))
    | none => fault
  | .object _ fields =>
    match needle.text? with
    | some name => .ok (.bool (Fields.contains name fields))
    | none => fault
  | .string s =>
    match needle.text? with
    | some part => .ok (.bool (Text.contains s part))
    | none => fault
  | _ => fault

end RecordCheck.Eval
