import Mathlib.Data.List.Basic
import RecordCheck.Expr.Parser

/-! The grammar of expressions: which trees some tokens stand for. The strata are those of the
operators, from the loosest to the tightest; an operand of an operator is of a tighter stratum than
the operator, or of the same one where the operator may be repeated. -/

namespace RecordCheck

namespace Expr

mutual

/-- An expression without its places in the text. -/
def spanless : Expr → Expr
  | literal value _ => literal value default
  | root start _ => root start default
  | field base name _ => field base.spanless name default
  | index base i _ => index base.spanless i.spanless default
  | binary op left right _ => binary op left.spanless right.spanless default
  | compare first links _ => compare first.spanless (spanlessLinks links) default
  | unary op operand _ => unary op operand.spanless default
  | .matches operand pattern _ => .matches operand.spanless pattern default
  | call name arguments _ => call name (spanlessAll arguments) default
  | list items _ => list (spanlessAll items) default

def spanlessAll : List Expr → List Expr
  | [] => []
  | e :: rest => e.spanless :: spanlessAll rest

def spanlessLinks : List (CompareOp × Expr) → List (CompareOp × Expr)
  | [] => []
  | (op, e) :: rest => (op, e.spanless) :: spanlessLinks rest

end

/-- The levels of operators. -/
inductive Stratum where
  | disjunction
  | conjunction
  | negation
  /-- At most one membership or match after comparisons. -/
  | relation
  | comparison
  | sum
  | product
  | signed
  | postfixed
  | primary
  deriving DecidableEq, Repr

namespace Stratum

/-- The next tighter level. -/
def tighter? : Stratum → Option Stratum
  | disjunction => some conjunction
  | conjunction => some negation
  | negation => some relation
  | relation => some comparison
  | comparison => some sum
  | sum => some product
  | product => some signed
  | signed => some postfixed
  | postfixed => some primary
  | primary => none

/-- The operators that stand between operands and group to the left. -/
def binaryOp? : Stratum → Token.Kind → Option BinaryOp
  | disjunction, .keyword .or _ => some .or
  | conjunction, .keyword .and _ => some .and
  | sum, .symbol .plus => some .add
  | sum, .symbol .minus => some .sub
  | product, .symbol .star => some .mul
  | product, .symbol .slash => some .div
  | product, .symbol .percent => some .mod
  | _, _ => none

/-- The operators that stand before their operand. -/
def unaryOp? : Stratum → Token.Kind → Option UnaryOp
  | negation, .keyword .not _ => some .not
  | signed, .symbol .minus => some .neg
  | _, _ => none

end Stratum

/-- The literal that a token stands for. -/
def literal? : Token.Kind → Option Literal
  | .int i => some (.int i)
  | .float x => some (.float x)
  | .string s => some (.string s)
  | .keyword .true _ => some (.bool true)
  | .keyword .false _ => some (.bool false)
  | .keyword .null _ => some .null
  | _ => none

/-- The name that a token is after a point: keywords are names as they were written. -/
def fieldName? : Token.Kind → Option String
  | .ident name => some name
  | .keyword _ spelling => some spelling
  | _ => none

/-- The operator of comparison that a token is. -/
def compareOp? : Token.Kind → Option CompareOp
  | .symbol symbol => symbol.compareOp?
  | _ => none

/-- What tokens can stand for: an expression of a stratum, expressions with commas between them, or
operators of comparison, each with its right operand. -/
inductive Phrase where
  | expr (stratum : Stratum) (e : Expr)
  | items (es : List Expr)
  | links (ls : List (CompareOp × Expr))

/-- The tokens stand for the phrase. The trees have no places in the text. -/
inductive Derives : Phrase → List Token.Kind → Prop
  | tighter {s t : Stratum} {e ts} (ht : s.tighter? = some t) (he : Derives (.expr t e) ts) :
      Derives (.expr s e) ts
  | binary {s t : Stratum} {k op left right ts us} (ht : s.tighter? = some t)
      (hk : s.binaryOp? k = some op) (hl : Derives (.expr s left) ts)
      (hr : Derives (.expr t right) us) :
      Derives (.expr s (.binary op left right default)) (ts ++ k :: us)
  | unary {s : Stratum} {k op operand ts} (hk : s.unaryOp? k = some op)
      (he : Derives (.expr s operand) ts) :
      Derives (.expr s (.unary op operand default)) (k :: ts)
  | isIn {left right spelling ts us} (hl : Derives (.expr .comparison left) ts)
      (hr : Derives (.expr .sum right) us) :
      Derives (.expr .relation (.binary .isIn left right default))
        (ts ++ .keyword .isIn spelling :: us)
  | notIn {left right not spelling ts us} (hl : Derives (.expr .comparison left) ts)
      (hr : Derives (.expr .sum right) us) :
      Derives (.expr .relation (.binary .notIn left right default))
        (ts ++ .keyword .not not :: .keyword .isIn spelling :: us)
  | isMatch {operand spelling ts} (p : Pattern) (he : Derives (.expr .comparison operand) ts) :
      Derives (.expr .relation (.matches operand p default))
        (ts ++ [.keyword .matches spelling, .string p.source])
  | compare {first ls ts us} (hls : ls ≠ []) (hf : Derives (.expr .sum first) ts)
      (hl : Derives (.links ls) us) :
      Derives (.expr .comparison (.compare first ls default)) (ts ++ us)
  | noLinks : Derives (.links []) []
  | link {k op right ls ts us} (ho : compareOp? k = some op)
      (hr : Derives (.expr .sum right) ts) (hl : Derives (.links ls) us) :
      Derives (.links ((op, right) :: ls)) (k :: ts ++ us)
  | field {base k name ts} (hk : fieldName? k = some name)
      (hb : Derives (.expr .postfixed base) ts) :
      Derives (.expr .postfixed (.field base name default)) (ts ++ [.symbol .dot, k])
  | index {base i ts us} (hb : Derives (.expr .postfixed base) ts)
      (hi : Derives (.expr .disjunction i) us) :
      Derives (.expr .postfixed (.index base i default))
        (ts ++ .symbol .leftBracket :: us ++ [.symbol .rightBracket])
  /-- A value piped into a function is its only argument. -/
  | pipe {base name ts} (hb : Derives (.expr .postfixed base) ts) :
      Derives (.expr .postfixed (.call name [base] default)) (ts ++ [.symbol .pipe, .ident name])
  /-- A value piped into a call is its first argument. -/
  | pipeCall {base name arguments ts us} (hb : Derives (.expr .postfixed base) ts)
      (ha : Derives (.items arguments) us) :
      Derives (.expr .postfixed (.call name (base :: arguments) default))
        (ts ++ .symbol .pipe :: .ident name :: .symbol .leftParen :: us ++ [.symbol .rightParen])
  | literal {k value} (hk : literal? k = some value) :
      Derives (.expr .primary (.literal value default)) [k]
  | root {name start} (hr : Root.ofName? name = some start) :
      Derives (.expr .primary (.root start default)) [.ident name]
  /-- A name that is no root stands before arguments only. -/
  | call {name arguments ts} (hr : Root.ofName? name = none) (ha : Derives (.items arguments) ts) :
      Derives (.expr .primary (.call name arguments default))
        (.ident name :: .symbol .leftParen :: ts ++ [.symbol .rightParen])
  | list {es ts} (hl : Derives (.items es) ts) :
      Derives (.expr .primary (.list es default))
        (.symbol .leftBracket :: ts ++ [.symbol .rightBracket])
  | parens {e ts} (he : Derives (.expr .disjunction e) ts) :
      Derives (.expr .primary e) (.symbol .leftParen :: ts ++ [.symbol .rightParen])
  | noItems : Derives (.items []) []
  | lastItem {e ts} (he : Derives (.expr .disjunction e) ts) : Derives (.items [e]) ts
  /-- No further items need to follow the comma. -/
  | nextItem {e es ts us} (he : Derives (.expr .disjunction e) ts) (hl : Derives (.items es) us) :
      Derives (.items (e :: es)) (ts ++ .symbol .comma :: us)

end Expr

/-- What the tokens of a text are, without their places. -/
def Tokens.kinds (tokens : Tokens) : List Token.Kind := tokens.items.map (·.kind)

/-- What the tokens to come are. -/
def Parser.Cursor.kinds (c : Cursor) : List Token.Kind := c.rest.map (·.kind)

end RecordCheck
