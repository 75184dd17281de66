import RecordCheck.Eval.Call
import RecordCheck.Expr.Formula

/-!
The value of an expression, given the values of its roots. Operands are evaluated from left to
right, and the first failure is that of the whole.
-/

namespace RecordCheck.Eval

/-- The values of the roots. -/
structure Context where
  this : Value
  block : Value
  root : Value

namespace Context

def value (ctx : Context) : Root → Value
  | .this => ctx.this
  | .block => ctx.block
  | .root => ctx.root

/-- For a constraint on an object as a whole. -/
def ofObject (object root : Value) : Context := ⟨object, object, root⟩

/-- For an expression on its own. -/
def ofValue (v : Value) : Context := ⟨v, v, v⟩

end Context

def ofLiteral : Literal → Value
  | .null => .null
  | .bool b => .bool b
  | .int i => .int i
  | .float x => .float x
  | .string s => .string s

def unary : UnaryOp → Value → Result Value
  | .not => not
  | .neg => neg

/-- A binary operator on evaluated operands. -/
def binary : BinaryOp → Value → Value → Result Value
  | .add, x, y => add x y
  | .sub, x, y => sub x y
  | .mul, x, y => mul x y
  | .div, x, y => div x y
  | .mod, x, y => mod x y
  | .isIn, x, y => membership x y
  | .notIn, x, y => (membership x y).bind not
  | .and, x, y => connective .and false x (.ok y)
  | .or, x, y => connective .or true x (.ok y)

def matchPattern (pattern : Pattern) (v : Value) : Result Value :=
  match v with
  | .null => .ok .null
  | v =>
    match v.text? with
    | some s => .ok (.bool (pattern.occursIn s))
    | none => typeError (.matching v.typeName)

mutual

def eval (ctx : Context) : Expr → Result Value
  | .literal value _ => .ok (ofLiteral value)
  | .root r _ => .ok (ctx.value r)
  | .field base name _ => do fieldOf (← eval ctx base) name
  | .index base i _ => do
    let x ← eval ctx base
    indexOf x (← eval ctx i)
  | .binary .and left right _ => do
    connective .and false (← eval ctx left) (eval ctx right)
  | .binary .or left right _ => do
    connective .or true (← eval ctx left) (eval ctx right)
  | .binary op left right _ => do
    let x ← eval ctx left
    binary op x (← eval ctx right)
  | .compare first links _ => do evalLinks ctx (.bool true) (← eval ctx first) links
  | .unary op operand _ => do unary op (← eval ctx operand)
  | .matches operand pattern _ => do matchPattern pattern (← eval ctx operand)
  | .call name arguments _ => do call name (← evalAll ctx arguments)
  | .list items _ => return .list (← evalAll ctx items)

def evalAll (ctx : Context) : List Expr → Result (List Value)
  | [] => .ok []
  | e :: rest => do
    let v ← eval ctx e
    return v :: (← evalAll ctx rest)

/-- The rest of a chain of comparisons after the operand `left`. The first false link decides, and
else a null one makes the chain null. -/
def evalLinks (ctx : Context) (result left : Value) :
    List (CompareOp × Expr) → Result Value
  | [] => .ok result
  | (op, e) :: rest => do
    let right ← eval ctx e
    match ← compare op left right with
    | .bool false => return .bool false
    | .null => evalLinks ctx .null right rest
    | _ => evalLinks ctx result right rest

end

/-- The verdict of a constraint: null counts as false. -/
def holds? (ctx : Context) (e : Expr) : Result Bool := do
  match ← eval ctx e with
  | .bool b => return b
  | .null => return false
  | v => throw (.notBoolean v.typeName)

end RecordCheck.Eval
