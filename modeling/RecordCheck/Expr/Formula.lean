import RecordCheck.Expr.Parser
import RecordCheck.Expr.References

/-!
Formulas: expressions whose calls are known to name a function and to give it as many arguments as
it takes, each with its source text. The source may stand between double braces.
-/

namespace RecordCheck

/-- An expression and the text it was read from. -/
structure Formula where
  source : String
  expr : Expr

namespace Formula

/-- What is wrong with an expression itself, its parts aside: a call of no function, or with a
number of arguments that the function does not take. -/
def callError? : Expr → Option SyntaxError
  | .call name arguments span =>
    match arityOf? name with
    | none => some ⟨.unknownFunction name, span⟩
    | some arity =>
      if arity.accepts arguments.length then none
      else some ⟨.wrongArity name arity arguments.length, span⟩
  | _ => none

/-- The first wrong call of an expression, in the order of the text. -/
def firstCallError? (e : Expr) : Option SyntaxError := e.subterms.findSome? callError?

/-- The text between `\x7b\x7b` and `\x7d\x7d`, if a text starts and ends with them. -/
def unwrapped? : List Char → Option (List Char)
  | '\x7b' :: '\x7b' :: rest =>
    if ['\x7d', '\x7d'].isSuffixOf rest then some (rest.take (rest.length - 2)) else none
  | _ => none

/-- The text with blanks in the place of double braces around it, so that all else keeps its
place. -/
def blankBraces (text : List Char) : List Char :=
  let before := text.takeWhile Text.isBlank
  let body := Text.trim text
  let after := text.drop (before.length + body.length)
  match unwrapped? body with
  | some inner => before ++ [' ', ' '] ++ inner ++ [' ', ' '] ++ after
  | none => text

/-- The formula of a source text. -/
def compile (source : String) : Except SyntaxError Formula := do
  let expr ← Expr.parse (String.ofList (blankBraces source.toList))
  match firstCallError? expr with
  | some e => throw e
  | none => return ⟨String.ofList (Text.trim source.toList), expr⟩

/-- The fields that the formula takes directly from the object around its value. -/
def blockReferences (formula : Formula) : List String := formula.expr.references .block

/-- The formula reads the object around its value as a whole. -/
def readsWholeBlock (formula : Formula) : Bool := formula.expr.readsWhole .block

end Formula

end RecordCheck
