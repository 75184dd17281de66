import RecordCheck.Expr.Basic

/-!
Tokens of expressions, and how messages name them.
-/

namespace RecordCheck

inductive Keyword where
  | and
  | or
  | not
  | isIn
  | matches
  | null
  | true
  | false
  deriving DecidableEq, Repr, Inhabited

namespace Keyword

/-- The name of a keyword, which is also its spelling in small letters. -/
def text : Keyword → String
  | and => "and"
  | or => "or"
  | not => "not"
  | isIn => "in"
  | .matches => "matches"
  | null => "null"
  | .true => "true"
  | .false => "false"

/-- The keyword of a word in small letters. Null has a second spelling. -/
def ofLower? (word : String) : Option Keyword :=
  match word with
  | "and" => some and
  | "or" => some or
  | "not" => some not
  | "in" => some isIn
  | "matches" => some .matches
  | "null" => some null
  | "none" => some null
  | "true" => some .true
  | "false" => some .false
  | _ => none

/-- The keyword of a word; ASCII letters count in either case. -/
def ofWord? (word : List Char) : Option Keyword :=
  ofLower? (String.ofList (word.map Char.toLower))

end Keyword

inductive Symbol where
  | leftParen
  | rightParen
  | leftBracket
  | rightBracket
  | comma
  | dot
  | plus
  | minus
  | star
  | slash
  | percent
  | pipe
  | eq
  | ne
  | lt
  | le
  | gt
  | ge
  deriving DecidableEq, Repr, Inhabited

namespace Symbol

def text : Symbol → String
  | leftParen => "("
  | rightParen => ")"
  | leftBracket => "["
  | rightBracket => "]"
  | comma => ","
  | dot => "."
  | plus => "+"
  | minus => "-"
  | star => "*"
  | slash => "/"
  | percent => "%"
  | pipe => "|"
  | eq => "=="
  | ne => "!="
  | lt => "<"
  | le => "<="
  | gt => ">"
  | ge => ">="

/-- The symbols of one character that start no longer one. -/
def ofChar? : Char → Option Symbol
  | '(' => some leftParen
  | ')' => some rightParen
  | '[' => some leftBracket
  | ']' => some rightBracket
  | ',' => some comma
  | '.' => some dot
  | '+' => some plus
  | '-' => some minus
  | '*' => some star
  | '/' => some slash
  | '%' => some percent
  | '|' => some pipe
  | _ => none

def compareOp? : Symbol → Option CompareOp
  | eq => some .eq
  | ne => some .ne
  | lt => some .lt
  | le => some .le
  | gt => some .gt
  | ge => some .ge
  | _ => none

def additive? : Symbol → Option BinaryOp
  | plus => some .add
  | minus => some .sub
  | _ => none

def multiplicative? : Symbol → Option BinaryOp
  | star => some .mul
  | slash => some .div
  | percent => some .mod
  | _ => none

end Symbol

namespace Token

inductive Kind where
  /-- A keyword as it was written. -/
  | keyword (keyword : Keyword) (spelling : String)
  | ident (name : String)
  | int (i : Int64)
  | float (x : Double)
  | string (s : String)
  | symbol (symbol : Symbol)
  deriving DecidableEq, Repr, Inhabited

/-- The name of a kind of token in messages. -/
def Kind.name : Kind → String
  | keyword k _ => k.text
  | ident _ => "identifier"
  | int _ => "integer"
  | float _ => "float"
  | string _ => "string"
  | symbol s => s.text

end Token

structure Token where
  kind : Token.Kind
  span : Span
  deriving DecidableEq, Repr, Inhabited

end RecordCheck
