import RecordCheck.Expr.Basic
import RecordCheck.Expr.Intrinsic

/-!
What can be wrong with the text of an expression, and where.
-/

namespace RecordCheck

inductive Fault where
  | unexpectedChar (c : Char)
  | unterminatedString
  | unterminatedEscape
  | invalidExponent (text : String)
  | invalidInteger (text : String)
  | unexpected (expected found : String)
  | unknownName (name : String)
  | unknownFunction (name : String)
  | wrongArity (name : String) (arity : Arity) (count : Nat)
  | invalidPattern (source : String) (reason : Regex.Reason)
  deriving DecidableEq, Repr, Inhabited

namespace Fault

def detail : Fault → String
  | unexpectedChar c => "unexpected character '" ++ c.toString ++ "'"
  | unterminatedString => "unterminated string literal"
  | unterminatedEscape => "unterminated escape sequence"
  | invalidExponent text => "invalid exponent in number literal '" ++ text ++ "'"
  | invalidInteger text => "invalid integer literal '" ++ text ++ "'"
  | unexpected expected found => "expected " ++ expected ++ ", found " ++ found
  | unknownName name =>
    "unknown name '" ++ name ++ "': expected this, block, root or a function call"
  | unknownFunction name => "unknown function '" ++ name ++ "'"
  | wrongArity name arity count =>
    "function '" ++ name ++ "' takes " ++ arity.text ++ " argument(s), found " ++ toString count
  | invalidPattern source reason =>
    "invalid regular expression '" ++ source ++ "': " ++ reason.message

/-- What should have stood there. -/
def expected? : Fault → Option String
  | unexpected expected _ => some expected
  | unknownName _ => some "this, block or root"
  | unknownFunction _ => some "an intrinsic function"
  | wrongArity _ arity _ => some arity.text
  | _ => none

/-- What stood there. -/
def found? : Fault → Option String
  | unexpected _ found => some found
  | unknownName name => some name
  | unknownFunction name => some name
  | wrongArity _ _ count => some (toString count)
  | _ => none

end Fault

/-- A fault and its place. -/
structure SyntaxError where
  fault : Fault
  span : Span
  deriving DecidableEq, Repr, Inhabited

def SyntaxError.message (e : SyntaxError) : String :=
  "parse error at line " ++ toString e.span.line ++ ", column " ++ toString e.span.column ++
    ": " ++ e.fault.detail

end RecordCheck
