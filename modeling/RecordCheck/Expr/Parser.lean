import RecordCheck.Expr.Lexer

/-!
The reading of expressions from tokens. From the loosest to the tightest there are `or`, `and`,
`not`, comparisons, sums, products, signs, and what follows a value: fields, indexes and pipes.
Each level is a function of the parser for the parts between brackets, which have fewer tokens.
-/

namespace RecordCheck.Parser

/-- The tokens to come, the end of the last one taken, and the end of the text. -/
structure Cursor where
  rest : List Token
  stop : Nat
  finish : Mark
  deriving Repr, Inhabited

namespace Cursor

/-- The number of tokens to come. -/
def size (c : Cursor) : Nat := c.rest.length

def span (c : Cursor) : Span :=
  match c.rest with
  | [] => c.finish.spanTo c.finish
  | token :: _ => token.span

/-- The name of the next token. -/
def found (c : Cursor) : String :=
  match c.rest with
  | [] => "end of input"
  | token :: _ => token.kind.name

def unexpected (c : Cursor) (expected : String) : SyntaxError :=
  ⟨.unexpected expected c.found, c.span⟩

/-- The cursor after a token, with the tokens after that. -/
def after (c : Cursor) (token : Token) (rest : List Token) : Cursor :=
  { c with rest := rest, stop := token.span.stop }

/-- The next token is a given symbol. -/
def sees (c : Cursor) (symbol : Symbol) : Bool :=
  c.rest.head?.any fun token => token.kind == .symbol symbol

theorem size_after {c : Cursor} {token : Token} {rest : List Token}
    (h : c.rest = token :: rest) : (c.after token rest).size < c.size := by
  simp [size, after, h]

theorem size_after₂ {c : Cursor} {first token : Token} {rest : List Token}
    (h : c.rest = first :: token :: rest) : (c.after token rest).size < c.size := by
  simp only [size, after, h, List.length_cons]
  omega

end Cursor

/-- What was read, and the cursor after it, which has fewer than `n` tokens. -/
structure Parsed (α : Type) (n : Nat) where
  value : α
  next : Cursor
  shorter : next.size < n

abbrev Outcome (α : Type) (n : Nat) : Type := Except SyntaxError (Parsed α n)

/-- A parser for cursors of at most `n` tokens. -/
abbrev Level (n : Nat) : Type := (c : Cursor) → c.size ≤ n → Outcome Expr c.size

/-- A parser for cursors of fewer than `n` tokens. -/
abbrev Inner (n : Nat) : Type := (c : Cursor) → c.size < n → Outcome Expr c.size

/-- Takes a symbol that must come next. -/
def expect (symbol : Symbol) (c : Cursor) : Outcome Unit c.size :=
  match h : c.rest with
  | [] => .error (c.unexpected symbol.text)
  | token :: rest =>
    if token.kind = .symbol symbol then
      .ok ⟨(), c.after token rest, Cursor.size_after h⟩
    else .error (c.unexpected symbol.text)

variable {n : Nat}

/-- Expressions with commas between them up to a closing symbol, which is taken. A comma may stand
before it. -/
def items (inner : Inner n) (close : Symbol) (c : Cursor) (h : c.size < n) :
    Outcome (List Expr) c.size :=
  if c.sees close then do
    let closed ← expect close c
    return ⟨[], closed.next, closed.shorter⟩
  else do
    let item ← inner c h
    have := item.shorter
    if item.next.sees .comma then
      let comma ← expect .comma item.next
      have := comma.shorter
      let more ← items inner close comma.next (by omega)
      have := more.shorter
      return ⟨item.value :: more.value, more.next, by omega⟩
    else
      let closed ← expect close item.next
      have := closed.shorter
      return ⟨[item.value], closed.next, by omega⟩
termination_by c.size

/-- Literals, the three roots, calls, lists, and expressions between parentheses. -/
def primary (inner : Inner n) : Level n := fun c hc =>
  match h : c.rest with
  | [] => .error (c.unexpected "expression")
  | token :: rest =>
    let next := c.after token rest
    have shorter : next.size < c.size := Cursor.size_after h
    let literal (value : Literal) : Outcome Expr c.size :=
      .ok ⟨.literal value token.span, next, shorter⟩
    match token.kind with
    | .int i => literal (.int i)
    | .float x => literal (.float x)
    | .string s => literal (.string s)
    | .keyword .true _ => literal (.bool true)
    | .keyword .false _ => literal (.bool false)
    | .keyword .null _ => literal .null
    | .symbol .leftParen => do
      let body ← inner next (by omega)
      have := body.shorter
      let closed ← expect .rightParen body.next
      have := closed.shorter
      return ⟨body.value, closed.next, by omega⟩
    | .symbol .leftBracket => do
      let list ← items inner .rightBracket next (by omega)
      have := list.shorter
      return ⟨.list list.value (token.span.upTo list.next.stop), list.next, by omega⟩
    | .ident name =>
      match Root.ofName? name with
      | some start => .ok ⟨.root start token.span, next, shorter⟩
      | none =>
        if next.sees .leftParen then do
          let opened ← expect .leftParen next
          have := opened.shorter
          let arguments ← items inner .rightParen opened.next (by omega)
          have := arguments.shorter
          return ⟨.call name arguments.value (token.span.upTo arguments.next.stop),
            arguments.next, by omega⟩
        else .error ⟨.unknownName name, token.span⟩
    | _ => .error (c.unexpected "expression")

/-- The name of a field: an identifier, or a keyword as it was written. -/
def fieldName (c : Cursor) : Outcome String c.size :=
  match h : c.rest with
  | [] => .error (c.unexpected "field name")
  | token :: rest =>
    match token.kind with
    | .ident name => .ok ⟨name, c.after token rest, Cursor.size_after h⟩
    | .keyword _ spelling => .ok ⟨spelling, c.after token rest, Cursor.size_after h⟩
    | _ => .error (c.unexpected "field name")

def functionName (c : Cursor) : Outcome String c.size :=
  match h : c.rest with
  | [] => .error (c.unexpected "identifier")
  | token :: rest =>
    match token.kind with
    | .ident name => .ok ⟨name, c.after token rest, Cursor.size_after h⟩
    | _ => .error (c.unexpected "identifier")

/-- Fields, indexes and pipes after an expression. A value piped into a function is its first
argument. -/
def suffixes (inner : Inner n) (base : Expr) (c : Cursor) (hc : c.size < n) :
    Outcome Expr (c.size + 1) :=
  if c.sees .dot then do
    let dot ← expect .dot c
    have := dot.shorter
    let name ← fieldName dot.next
    have := name.shorter
    let whole ← suffixes inner (.field base name.value (base.span.upTo name.next.stop)) name.next
      (by omega)
    have := whole.shorter
    return ⟨whole.value, whole.next, by omega⟩
  else if c.sees .leftBracket then do
    let opened ← expect .leftBracket c
    have := opened.shorter
    let i ← inner opened.next (by omega)
    have := i.shorter
    let closed ← expect .rightBracket i.next
    have := closed.shorter
    let whole ← suffixes inner (.index base i.value (base.span.upTo closed.next.stop)) closed.next
      (by omega)
    have := whole.shorter
    return ⟨whole.value, whole.next, by omega⟩
  else if c.sees .pipe then do
    let pipe ← expect .pipe c
    have := pipe.shorter
    let name ← functionName pipe.next
    have := name.shorter
    if name.next.sees .leftParen then
      let opened ← expect .leftParen name.next
      have := opened.shorter
      let arguments ← items inner .rightParen opened.next (by omega)
      have := arguments.shorter
      let call := Expr.call name.value (base :: arguments.value)
        (base.span.upTo arguments.next.stop)
      let whole ← suffixes inner call arguments.next (by omega)
      have := whole.shorter
      return ⟨whole.value, whole.next, by omega⟩
    else
      let call := Expr.call name.value [base] (base.span.upTo name.next.stop)
      let whole ← suffixes inner call name.next (by omega)
      have := whole.shorter
      return ⟨whole.value, whole.next, by omega⟩
  else return ⟨base, c, Nat.lt_succ_self _⟩
termination_by c.size

def postfixed (inner : Inner n) : Level n := fun c hc => do
  let base ← primary inner c hc
  have := base.shorter
  let whole ← suffixes inner base.value base.next (by omega)
  have := whole.shorter
  return ⟨whole.value, whole.next, by omega⟩

/-- An operator that may stand before an operand, any number of times. -/
def leading (op : UnaryOp) (marks : Token.Kind → Bool) (operand : Level n) (c : Cursor)
    (hc : c.size ≤ n) : Outcome Expr c.size :=
  match h : c.rest with
  | [] => operand c hc
  | token :: rest =>
    if marks token.kind then do
      have shorter := Cursor.size_after h
      let inner ← leading op marks operand (c.after token rest) (by omega)
      have := inner.shorter
      return ⟨.unary op inner.value (token.span.upTo inner.next.stop), inner.next, by omega⟩
    else operand c hc
termination_by c.size

/-- More operands after a first one, each behind an operator; operators group to the left. -/
def chainAfter (op? : Token.Kind → Option BinaryOp) (operand : Level n) (left : Expr) (c : Cursor)
    (hc : c.size ≤ n) : Outcome Expr (c.size + 1) :=
  match h : c.rest with
  | [] => .ok ⟨left, c, Nat.lt_succ_self _⟩
  | token :: rest =>
    match op? token.kind with
    | none => .ok ⟨left, c, Nat.lt_succ_self _⟩
    | some op => do
      have shorter := Cursor.size_after h
      let right ← operand (c.after token rest) (by omega)
      have := right.shorter
      let both := Expr.binary op left right.value (left.span.upTo right.next.stop)
      let whole ← chainAfter op? operand both right.next (by omega)
      have := whole.shorter
      return ⟨whole.value, whole.next, by omega⟩
termination_by c.size

/-- Operands with operators between them. -/
def chain (op? : Token.Kind → Option BinaryOp) (operand : Level n) : Level n := fun c hc => do
  let first ← operand c hc
  have := first.shorter
  let whole ← chainAfter op? operand first.value first.next (by omega)
  have := whole.shorter
  return ⟨whole.value, whole.next, by omega⟩

/-- The operators and operands of a chain of comparisons. -/
def links (operand : Level n) (c : Cursor) (hc : c.size ≤ n) :
    Outcome (List (CompareOp × Expr)) (c.size + 1) :=
  match h : c.rest with
  | [] => .ok ⟨[], c, Nat.lt_succ_self _⟩
  | token :: rest =>
    match token.kind with
    | .symbol symbol =>
      match symbol.compareOp? with
      | none => .ok ⟨[], c, Nat.lt_succ_self _⟩
      | some op => do
        have shorter := Cursor.size_after h
        let right ← operand (c.after token rest) (by omega)
        have := right.shorter
        let more ← links operand right.next (by omega)
        have := more.shorter
        return ⟨(op, right.value) :: more.value, more.next, by omega⟩
    | _ => .ok ⟨[], c, Nat.lt_succ_self _⟩
termination_by c.size

/-- The pattern behind `matches`. -/
def pattern (c : Cursor) : Outcome Pattern c.size :=
  match h : c.rest with
  | [] => .error (c.unexpected "string pattern")
  | token :: rest =>
    match token.kind with
    | .string source =>
      match Pattern.ofSource source with
      | .ok pattern => .ok ⟨pattern, c.after token rest, Cursor.size_after h⟩
      | .error reason => .error ⟨.invalidPattern source reason, token.span⟩
    | _ => .error (c.unexpected "string pattern")

/-- The list or map on the right of a membership. -/
def membership (operand : Level n) (op : BinaryOp) (start : Span) (left : Expr)
    (c next : Cursor) (shorter : next.size < c.size) (hc : c.size ≤ n) :
    Outcome Expr (c.size + 1) := do
  let right ← operand next (by omega)
  have := right.shorter
  return ⟨.binary op left right.value (start.upTo right.next.stop), right.next, by omega⟩

/-- The pattern on the right of a match. -/
def matching (start : Span) (left : Expr) (c next : Cursor) (shorter : next.size < c.size) :
    Outcome Expr (c.size + 1) := do
  let p ← pattern next
  have := p.shorter
  return ⟨.matches left p.value (start.upTo p.next.stop), p.next, by omega⟩

/-- At most one membership or match after a chain of comparisons. All of them start where the
first operand does. -/
def relation (operand : Level n) (start : Span) (left : Expr) (c : Cursor) (hc : c.size ≤ n) :
    Outcome Expr (c.size + 1) :=
  match h : c.rest with
  | ⟨.keyword .isIn spelling, span⟩ :: rest =>
    membership operand .isIn start left c (c.after ⟨.keyword .isIn spelling, span⟩ rest)
      (Cursor.size_after h) hc
  | ⟨.keyword .not _, _⟩ :: ⟨.keyword .isIn spelling, span⟩ :: rest =>
    membership operand .notIn start left c (c.after ⟨.keyword .isIn spelling, span⟩ rest)
      (Cursor.size_after₂ h) hc
  | ⟨.keyword .matches spelling, span⟩ :: rest =>
    matching start left c (c.after ⟨.keyword .matches spelling, span⟩ rest) (Cursor.size_after h)
  | _ => .ok ⟨left, c, Nat.lt_succ_self _⟩

def comparison (operand : Level n) : Level n := fun c hc => do
  let first ← operand c hc
  have := first.shorter
  let start := first.value.span
  let more ← links operand first.next (by omega)
  have := more.shorter
  let left := if more.value.isEmpty then first.value
    else .compare first.value more.value (start.upTo more.next.stop)
  let whole ← relation operand start left more.next (by omega)
  have := whole.shorter
  return ⟨whole.value, whole.next, by omega⟩

def symbolOp (op? : Symbol → Option BinaryOp) : Token.Kind → Option BinaryOp
  | .symbol symbol => op? symbol
  | _ => none

def keywordOp (keyword : Keyword) (op : BinaryOp) : Token.Kind → Option BinaryOp
  | .keyword k _ => if k = keyword then some op else none
  | _ => none

def isMinus (kind : Token.Kind) : Bool := kind == .symbol .minus

def isNot : Token.Kind → Bool
  | .keyword .not _ => true
  | _ => false

def signed (inner : Inner n) : Level n := leading .neg isMinus (postfixed inner)

def product (inner : Inner n) : Level n := chain (symbolOp Symbol.multiplicative?) (signed inner)

def sum (inner : Inner n) : Level n := chain (symbolOp Symbol.additive?) (product inner)

def negation (inner : Inner n) : Level n := leading .not isNot (comparison (sum inner))

def conjunction (inner : Inner n) : Level n := chain (keywordOp .and .and) (negation inner)

def disjunction (inner : Inner n) : Level n := chain (keywordOp .or .or) (conjunction inner)

/-- An expression, and the cursor after it. -/
def expression (c : Cursor) : Outcome Expr c.size :=
  disjunction (fun d (_ : d.size < c.size) => expression d) c (Nat.le_refl _)
termination_by c.size

end Parser

/-- The expression that some tokens stand for; none may be left. -/
def Expr.ofTokens (tokens : Tokens) : Except SyntaxError Expr := do
  let whole ← Parser.expression ⟨tokens.items, 0, tokens.finish⟩
  if whole.next.rest.isEmpty then return whole.value
  else throw (whole.next.unexpected "end of expression")

/-- The expression that a text stands for. -/
def Expr.parse (text : String) : Except SyntaxError Expr := do
  Expr.ofTokens (← Tokens.ofText text)

end RecordCheck
