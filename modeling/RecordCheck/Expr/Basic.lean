import RecordCheck.Double.Basic
import RecordCheck.Regex.Pattern

/-!
Expressions of constraints, each node with the part of the text it was read from.
-/

namespace RecordCheck

/-- A part of a text: its first byte and the byte after its last, and the line and column of its
start, both counted from one. -/
structure Span where
  start : Nat
  stop : Nat
  line : Nat
  column : Nat
  deriving DecidableEq, Repr, Inhabited

/-- The span from the same start to another end. -/
def Span.upTo (span : Span) (stop : Nat) : Span := { span with stop := stop }

/-- The values that an expression can start from. -/
inductive Root where
  /-- The value that the constraint is attached to. -/
  | this
  /-- The object around it. -/
  | block
  /-- The outermost value. -/
  | root
  deriving DecidableEq, Repr, Inhabited

namespace Root

def text : Root → String
  | this => "this"
  | block => "block"
  | root => "root"

def ofName? (name : String) : Option Root :=
  if name = "this" then some this
  else if name = "block" then some block
  else if name = "root" then some root
  else none

end Root

inductive Literal where
  | null
  | bool (b : Bool)
  | int (i : Int64)
  | float (x : Double)
  | string (s : String)
  deriving DecidableEq, Repr, Inhabited

inductive BinaryOp where
  | add
  | sub
  | mul
  | div
  | mod
  | and
  | or
  | isIn
  | notIn
  deriving DecidableEq, Repr, Inhabited

def BinaryOp.text : BinaryOp → String
  | add => "+"
  | sub => "-"
  | mul => "*"
  | div => "/"
  | mod => "%"
  | and => "and"
  | or => "or"
  | isIn => "in"
  | notIn => "not in"

inductive CompareOp where
  | eq
  | ne
  | lt
  | le
  | gt
  | ge
  deriving DecidableEq, Repr, Inhabited

def CompareOp.text : CompareOp → String
  | eq => "=="
  | ne => "!="
  | lt => "<"
  | le => "<="
  | gt => ">"
  | ge => ">="

inductive UnaryOp where
  | not
  | neg
  deriving DecidableEq, Repr, Inhabited

def UnaryOp.text : UnaryOp → String
  | not => "not"
  | neg => "-"

inductive Expr where
  | literal (value : Literal) (span : Span)
  | root (start : Root) (span : Span)
  | field (base : Expr) (name : String) (span : Span)
  | index (base index : Expr) (span : Span)
  | binary (op : BinaryOp) (left right : Expr) (span : Span)
  /-- A chain of comparisons, each operand compared with the one before it. -/
  | compare (first : Expr) (links : List (CompareOp × Expr)) (span : Span)
  | unary (op : UnaryOp) (operand : Expr) (span : Span)
  | matches (operand : Expr) (pattern : Pattern) (span : Span)
  | call (name : String) (arguments : List Expr) (span : Span)
  | list (items : List Expr) (span : Span)

namespace Expr

def span : Expr → Span
  | literal _ s => s
  | root _ s => s
  | field _ _ s => s
  | index _ _ s => s
  | binary _ _ _ s => s
  | compare _ _ s => s
  | unary _ _ s => s
  | .matches _ _ s => s
  | call _ _ s => s
  | list _ s => s

instance : Inhabited Expr := ⟨literal .null default⟩

mutual

/-- An expression and all within it, each before its own parts, from left to right. -/
def subterms (e : Expr) : List Expr :=
  e :: match e with
    | literal _ _ => []
    | root _ _ => []
    | field base _ _ => subterms base
    | index base i _ => subterms base ++ subterms i
    | binary _ left right _ => subterms left ++ subterms right
    | compare first links _ => subterms first ++ subtermsOfLinks links
    | unary _ operand _ => subterms operand
    | .matches operand _ _ => subterms operand
    | call _ arguments _ => subtermsOfAll arguments
    | list items _ => subtermsOfAll items

def subtermsOfAll : List Expr → List Expr
  | [] => []
  | e :: rest => subterms e ++ subtermsOfAll rest

def subtermsOfLinks : List (CompareOp × Expr) → List Expr
  | [] => []
  | (_, e) :: rest => subterms e ++ subtermsOfLinks rest

end

end Expr

end RecordCheck
