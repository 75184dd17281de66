import RecordCheck.Expr.Basic

/-!
What an expression reads of its roots: the fields that it takes directly from a root, and whether
it uses a root in any other way.
-/

namespace RecordCheck.Expr

/-- The expression is the root itself. -/
def isRoot (r : Root) : Expr → Bool
  | root s _ => s == r
  | _ => false

def stringLiteral? : Expr → Option String
  | literal (.string s) _ => some s
  | _ => none

/-- The field that an expression takes directly from a root, by a point or by a string in
brackets. -/
def access? (r : Root) : Expr → Option String
  | field base name _ => if base.isRoot r then some name else none
  | index base i _ => if base.isRoot r then i.stringLiteral? else none
  | _ => none

/-- The names of the fields taken directly from a root, in the order of the text, each once. -/
def references (e : Expr) (r : Root) : List String :=
  (e.subterms.filterMap (access? r)).eraseDups

/-- The root occurs in the expression. -/
def uses (e : Expr) (r : Root) : Bool := e.subterms.any (isRoot r)

mutual

/-- Some use of the root is more than taking a field directly from it. -/
def readsWhole (r : Root) (e : Expr) : Bool :=
  match e with
  | literal _ _ => false
  | root s _ => s == r
  | field base _ _ => !base.isRoot r && readsWhole r base
  | index base i _ =>
    if base.isRoot r && i.stringLiteral?.isSome then false
    else readsWhole r base || readsWhole r i
  | binary _ left right _ => readsWhole r left || readsWhole r right
  | compare first links _ => readsWhole r first || anyLinkReadsWhole r links
  | unary _ operand _ => readsWhole r operand
  | .matches operand _ _ => readsWhole r operand
  | call _ arguments _ => anyReadsWhole r arguments
  | list items _ => anyReadsWhole r items

def anyReadsWhole (r : Root) : List Expr → Bool
  | [] => false
  | e :: rest => readsWhole r e || anyReadsWhole r rest

def anyLinkReadsWhole (r : Root) : List (CompareOp × Expr) → Bool
  | [] => false
  | (_, e) :: rest => readsWhole r e || anyLinkReadsWhole r rest

end

end RecordCheck.Expr
