import RecordCheck.Proofs.Expr.Parsing
import RecordCheck.Proofs.Expr.Spelling

/-! A printer of expressions. Every operand stands in parentheses, so no precedence is needed; a
call can be printed as a pipe into the function. What is printed reads as the expression. -/

namespace RecordCheck

/-- The token of a name after a point. -/
def nameToken (name : String) : Token.Kind :=
  match Keyword.ofWord? name.toList with
  | some keyword => .keyword keyword name
  | none => .ident name

def Literal.token : Literal → Token.Kind
  | null => .keyword .null "null"
  | bool true => .keyword .true "true"
  | bool false => .keyword .false "false"
  | int i => .int i
  | float x => .float x
  | string s => .string s

/-- No text stands for a negative integer, and none is printed for a number with a fraction. -/
def Literal.Printable : Literal → Prop
  | .int i => 0 ≤ i
  | .float _ => False
  | _ => True

def CompareOp.token : CompareOp → Token.Kind
  | eq => .symbol .eq
  | ne => .symbol .ne
  | lt => .symbol .lt
  | le => .symbol .le
  | gt => .symbol .gt
  | ge => .symbol .ge

def UnaryOp.token : UnaryOp → Token.Kind
  | not => .keyword .not "not"
  | neg => .symbol .minus

/-- An operator can be two words. -/
def BinaryOp.tokens : BinaryOp → List Token.Kind
  | add => [.symbol .plus]
  | sub => [.symbol .minus]
  | mul => [.symbol .star]
  | div => [.symbol .slash]
  | mod => [.symbol .percent]
  | and => [.keyword .and "and"]
  | or => [.keyword .or "or"]
  | isIn => [.keyword .isIn "in"]
  | notIn => [.keyword .not "not", .keyword .isIn "in"]

namespace Expr

/-- The calls of an expression that are printed as pipes, each by the numbers of the parts that
lead to it. -/
abbrev Pipes : Type := List Nat → Bool

/-- The pipes within a part. -/
def Pipes.part (pipes : Pipes) (i : Nat) : Pipes := fun path => pipes (i :: path)

def parens (tokens : List Token.Kind) : List Token.Kind :=
  .symbol .leftParen :: tokens ++ [.symbol .rightParen]

mutual

/-- The tokens that an expression is printed as. -/
def tokens (pipes : Pipes) : Expr → List Token.Kind
  | literal value _ => [value.token]
  | root start _ => [.ident start.text]
  | field base name _ => parens (base.tokens (pipes.part 0)) ++ [.symbol .dot, nameToken name]
  | index base i _ =>
    parens (base.tokens (pipes.part 0)) ++ .symbol .leftBracket :: i.tokens (pipes.part 1) ++
      [.symbol .rightBracket]
  | binary op left right _ =>
    parens (left.tokens (pipes.part 0)) ++ op.tokens ++ parens (right.tokens (pipes.part 1))
  | compare first links _ => parens (first.tokens (pipes.part 0)) ++ linkTokens pipes 1 links
  | unary op operand _ => op.token :: parens (operand.tokens (pipes.part 0))
  | .matches operand pattern _ =>
    parens (operand.tokens (pipes.part 0)) ++ [.keyword .matches "matches", .string pattern.source]
  | call name [] _ => [.ident name, .symbol .leftParen, .symbol .rightParen]
  | call name (e :: rest) _ =>
    if pipes [] then
      parens (e.tokens (pipes.part 0)) ++ .symbol .pipe :: .ident name :: .symbol .leftParen ::
        itemTokens pipes 1 rest ++ [.symbol .rightParen]
    else
      .ident name :: .symbol .leftParen ::
        (e.tokens (pipes.part 0) ++ moreTokens pipes 1 rest) ++ [.symbol .rightParen]
  | list items _ => .symbol .leftBracket :: itemTokens pipes 0 items ++ [.symbol .rightBracket]

/-- Expressions with commas between them, numbered from `i` on. -/
def itemTokens (pipes : Pipes) (i : Nat) : List Expr → List Token.Kind
  | [] => []
  | e :: rest => e.tokens (pipes.part i) ++ moreTokens pipes (i + 1) rest

/-- Expressions with commas before them. -/
def moreTokens (pipes : Pipes) (i : Nat) : List Expr → List Token.Kind
  | [] => []
  | e :: rest => .symbol .comma :: (e.tokens (pipes.part i) ++ moreTokens pipes (i + 1) rest)

def linkTokens (pipes : Pipes) (i : Nat) : List (CompareOp × Expr) → List Token.Kind
  | [] => []
  | (op, e) :: rest => op.token :: parens (e.tokens (pipes.part i)) ++ linkTokens pipes (i + 1) rest

end

/-- The text that an expression is printed as. -/
def render (layout : Layout) (pipes : Pipes) (e : Expr) : String :=
  String.ofList (layout.text (e.tokens pipes))

mutual

/-- The expression has a text: fields are identifiers, keywords or not, and functions are
identifiers that are neither keywords nor roots. -/
def Printable : Expr → Prop
  | literal value _ => value.Printable
  | root _ _ => True
  | field base name _ => base.Printable ∧ Lexer.isIdentifier name
  | index base i _ => base.Printable ∧ i.Printable
  | binary _ left right _ => left.Printable ∧ right.Printable
  | compare first links _ => first.Printable ∧ links ≠ [] ∧ LinksPrintable links
  | unary _ operand _ => operand.Printable
  | .matches operand _ _ => operand.Printable
  | call name arguments _ => Lexer.isIdentifier name ∧ Keyword.ofWord? name.toList = none ∧
      Root.ofName? name = none ∧ AllPrintable arguments
  | list items _ => AllPrintable items

def AllPrintable : List Expr → Prop
  | [] => True
  | e :: rest => e.Printable ∧ AllPrintable rest

def LinksPrintable : List (CompareOp × Expr) → Prop
  | [] => True
  | (_, e) :: rest => e.Printable ∧ LinksPrintable rest

end

/-! ### Grammar -/

/-- An expression is of all looser strata. -/
theorem Derives.loosen {s : Stratum} {e : Expr} {ts : List Token.Kind}
    (h : Derives (.expr s e) ts) (t : Stratum) (hr : s.rank ≤ t.rank) : Derives (.expr t e) ts := by
  by_cases hst : s = t
  · exact hst ▸ h
  · have hne : s.rank ≠ t.rank := fun h => hst (Stratum.rank_injective h)
    cases ht : t.tighter? with
    | none =>
      have ht : t.rank = 0 := by cases t <;> first | rfl | cases ht
      omega
    | some u =>
      have hu := Stratum.rank_tighter ht
      exact .tighter ht (h.loosen u (by omega))
termination_by t.rank

theorem derives_parens {s : Stratum} {e : Expr} {ts : List Token.Kind}
    (h : Derives (.expr .disjunction e) ts) : Derives (.expr s e) (parens ts) :=
  .loosen (.parens h) s (Nat.zero_le _)

theorem literal?_token {value : Literal} : literal? value.token = some value := by
  cases value with
  | bool b => cases b <;> rfl
  | _ => rfl

theorem fieldName?_nameToken {name : String} : fieldName? (nameToken name) = some name := by
  unfold nameToken
  split <;> rfl

theorem compareOp?_token (op : CompareOp) : compareOp? op.token = some op := by
  cases op <;> rfl

theorem ofName?_text (start : Root) : Root.ofName? start.text = some start := by
  cases start <;> rfl

theorem derives_unary {op : UnaryOp} {e : Expr} {ts : List Token.Kind}
    (h : Derives (.expr .disjunction e) ts) :
    Derives (.expr .disjunction (.unary op e default)) (op.token :: parens ts) := by
  cases op with
  | not => exact .loosen (s := .negation) (.unary rfl (derives_parens h)) _ (by decide)
  | neg => exact .loosen (s := .signed) (.unary rfl (derives_parens h)) _ (by decide)

theorem derives_binary {op : BinaryOp} {left right : Expr} {ts us : List Token.Kind}
    (hl : Derives (.expr .disjunction left) ts) (hr : Derives (.expr .disjunction right) us) :
    Derives (.expr .disjunction (.binary op left right default))
      (parens ts ++ op.tokens ++ parens us) := by
  rw [List.append_assoc]
  -- Parentheses are of every stratum, so each operand is of the one that its operator asks for.
  cases op with
  | add | sub =>
    exact .loosen (s := .sum) (.binary rfl rfl (derives_parens hl) (derives_parens hr)) _
      (by decide)
  | mul | div | mod =>
    exact .loosen (s := .product) (.binary rfl rfl (derives_parens hl) (derives_parens hr)) _
      (by decide)
  | and =>
    exact .loosen (s := .conjunction) (.binary rfl rfl (derives_parens hl) (derives_parens hr)) _
      (by decide)
  | or => exact .binary rfl rfl (derives_parens hl) (derives_parens hr)
  | isIn =>
    exact .loosen (s := .relation) (.isIn (derives_parens hl) (derives_parens hr)) _ (by decide)
  | notIn =>
    exact .loosen (s := .relation) (.notIn (derives_parens hl) (derives_parens hr)) _ (by decide)

mutual

/-- The grammar derives an expression from its tokens. -/
theorem derives_tokens (e : Expr) (h : e.Printable) (pipes : Pipes) :
    Derives (.expr .disjunction e.spanless) (e.tokens pipes) := by
  match e with
  | .literal value _ => exact .loosen (.literal literal?_token) _ (Nat.zero_le _)
  | .root start _ => exact .loosen (.root (ofName?_text start)) _ (Nat.zero_le _)
  | .field base name _ =>
    have hb := derives_tokens base h.1 (pipes.part 0)
    exact .loosen (.field fieldName?_nameToken (derives_parens hb)) _ (by decide)
  | .index base i _ =>
    have hb := derives_tokens base h.1 (pipes.part 0)
    have hi := derives_tokens i h.2 (pipes.part 1)
    exact .loosen (.index (derives_parens hb) hi) _ (by decide)
  | .binary op left right _ =>
    exact derives_binary (derives_tokens left h.1 _) (derives_tokens right h.2 _)
  | .compare first links _ =>
    obtain ⟨hf, hne, hl⟩ := h
    have hf := derives_tokens first hf (pipes.part 0)
    have hl := derives_linkTokens links hl pipes 1
    refine .loosen (.compare ?_ (derives_parens hf) hl) _ (by decide)
    cases links with
    | nil => exact absurd rfl hne
    | cons l links => exact List.cons_ne_nil _ _
  | .unary op operand _ => exact derives_unary (derives_tokens operand h _)
  | .matches operand pattern _ =>
    have ho := derives_tokens operand h (pipes.part 0)
    exact .loosen (.isMatch pattern (derives_parens ho)) _ (by decide)
  | .call name [] _ => exact .loosen (.call h.2.2.1 .noItems) _ (Nat.zero_le _)
  | .call name (e :: rest) _ =>
    obtain ⟨-, -, hr, he, hrest⟩ := h
    have he := derives_tokens e he (pipes.part 0)
    rw [tokens]
    split
    · have hl := derives_itemTokens rest hrest pipes 1
      exact .loosen (.pipeCall (derives_parens he) hl) _ (by decide)
    · exact .loosen (.call hr (derives_moreTokens rest hrest pipes 1 he)) _ (Nat.zero_le _)
  | .list items _ => exact .loosen (.list (derives_itemTokens items h pipes 0)) _ (Nat.zero_le _)

theorem derives_itemTokens (es : List Expr) (h : AllPrintable es) (pipes : Pipes) (i : Nat) :
    Derives (.items (spanlessAll es)) (itemTokens pipes i es) := by
  match es with
  | [] => exact .noItems
  | e :: rest =>
    exact derives_moreTokens rest h.2 pipes (i + 1) (derives_tokens e h.1 (pipes.part i))

theorem derives_moreTokens (es : List Expr) (h : AllPrintable es) (pipes : Pipes) (i : Nat)
    {e : Expr} {ts : List Token.Kind} (he : Derives (.expr .disjunction e) ts) :
    Derives (.items (e :: spanlessAll es)) (ts ++ moreTokens pipes i es) := by
  match es with
  | [] => simpa [moreTokens, spanlessAll] using Derives.lastItem he
  | e' :: rest =>
    have he' := derives_tokens e' h.1 (pipes.part i)
    exact .nextItem he (derives_moreTokens rest h.2 pipes (i + 1) he')

theorem derives_linkTokens (ls : List (CompareOp × Expr)) (h : LinksPrintable ls) (pipes : Pipes)
    (i : Nat) : Derives (.links (spanlessLinks ls)) (linkTokens pipes i ls) := by
  match ls with
  | [] => exact .noLinks
  | (op, e) :: rest =>
    have he := derives_tokens e h.1 (pipes.part i)
    have hl := derives_linkTokens rest h.2 pipes (i + 1)
    exact .link (compareOp?_token op) (derives_parens he) hl

end

/-! ### Texts -/

/-- All the tokens have texts. -/
def AllSpellable (ts : List Token.Kind) : Prop := ∀ k ∈ ts, k.Spellable

@[simp] theorem allSpellable_nil : AllSpellable [] := List.forall_mem_nil _

@[simp] theorem allSpellable_cons {k : Token.Kind} {ts : List Token.Kind} :
    AllSpellable (k :: ts) ↔ k.Spellable ∧ AllSpellable ts := List.forall_mem_cons

@[simp] theorem allSpellable_append {ts us : List Token.Kind} :
    AllSpellable (ts ++ us) ↔ AllSpellable ts ∧ AllSpellable us := List.forall_mem_append

@[simp] theorem spellable_symbol (symbol : Symbol) : (Token.Kind.symbol symbol).Spellable := trivial

@[simp] theorem spellable_string (s : String) : (Token.Kind.string s).Spellable := trivial

@[simp] theorem allSpellable_parens {ts : List Token.Kind} :
    AllSpellable (parens ts) ↔ AllSpellable ts := by
  simp [parens]

theorem spellable_nameToken {name : String} (h : Lexer.isIdentifier name = true) :
    (nameToken name).Spellable := by
  unfold nameToken
  split
  · next keyword hk => exact ⟨h, hk⟩
  · next hk => exact ⟨h, hk⟩

theorem spellable_literal {value : Literal} (h : value.Printable) : value.token.Spellable := by
  cases value with
  | null => exact ⟨by decide, by decide⟩
  | bool b => cases b <;> exact ⟨by decide, by decide⟩
  | int i => exact h
  | float x => exact h.elim
  | string s => trivial

theorem spellable_root (start : Root) : (Token.Kind.ident start.text).Spellable := by
  cases start <;> exact ⟨by decide, by decide⟩

@[simp] theorem allSpellable_binaryOp (op : BinaryOp) : AllSpellable op.tokens := by
  cases op <;> simp [BinaryOp.tokens, Token.Kind.Spellable] <;> decide

@[simp] theorem spellable_unaryOp (op : UnaryOp) : op.token.Spellable := by
  cases op
  · exact ⟨by decide, by decide⟩
  · trivial

@[simp] theorem spellable_compareOp (op : CompareOp) : op.token.Spellable := by
  cases op <;> trivial

theorem spellable_matches : (Token.Kind.keyword .matches "matches").Spellable :=
  ⟨by decide, by decide⟩

mutual

theorem spellable_tokens (e : Expr) (h : e.Printable) (pipes : Pipes) :
    AllSpellable (e.tokens pipes) := by
  match e with
  | .literal value _ => simpa [tokens] using spellable_literal h
  | .root start _ => simpa [tokens] using spellable_root start
  | .field base name _ =>
    have hb := spellable_tokens base h.1 (pipes.part 0)
    simp [tokens, hb, spellable_nameToken h.2]
  | .index base i _ =>
    have hb := spellable_tokens base h.1 (pipes.part 0)
    have hi := spellable_tokens i h.2 (pipes.part 1)
    simp [tokens, hb, hi]
  | .binary op left right _ =>
    have hl := spellable_tokens left h.1 (pipes.part 0)
    have hr := spellable_tokens right h.2 (pipes.part 1)
    simp [tokens, hl, hr]
  | .compare first links _ =>
    have hf := spellable_tokens first h.1 (pipes.part 0)
    have hl := spellable_linkTokens links h.2.2 pipes 1
    simp [tokens, hf, hl]
  | .unary op operand _ =>
    have ho := spellable_tokens operand h (pipes.part 0)
    simp [tokens, ho]
  | .matches operand pattern _ =>
    have ho := spellable_tokens operand h (pipes.part 0)
    simp [tokens, ho, spellable_matches]
  | .call name [] _ =>
    have hname : (Token.Kind.ident name).Spellable := ⟨h.1, h.2.1⟩
    simp [tokens, hname]
  | .call name (e :: rest) _ =>
    obtain ⟨hi, hk, -, he, hrest⟩ := h
    have hname : (Token.Kind.ident name).Spellable := ⟨hi, hk⟩
    have he := spellable_tokens e he (pipes.part 0)
    have hitems := spellable_itemTokens rest hrest pipes 1
    have hmore := spellable_moreTokens rest hrest pipes 1
    rw [tokens]
    split
    · simp [hname, he, hitems]
    · simp [hname, he, hmore]
  | .list items _ =>
    have hl := spellable_itemTokens items h pipes 0
    simp [tokens, hl]

theorem spellable_itemTokens (es : List Expr) (h : AllPrintable es) (pipes : Pipes) (i : Nat) :
    AllSpellable (itemTokens pipes i es) := by
  match es with
  | [] => simp [itemTokens]
  | e :: rest =>
    have he := spellable_tokens e h.1 (pipes.part i)
    have hmore := spellable_moreTokens rest h.2 pipes (i + 1)
    simp [itemTokens, he, hmore]

theorem spellable_moreTokens (es : List Expr) (h : AllPrintable es) (pipes : Pipes) (i : Nat) :
    AllSpellable (moreTokens pipes i es) := by
  match es with
  | [] => simp [moreTokens]
  | e :: rest =>
    have he := spellable_tokens e h.1 (pipes.part i)
    have hmore := spellable_moreTokens rest h.2 pipes (i + 1)
    simp [moreTokens, he, hmore]

theorem spellable_linkTokens (ls : List (CompareOp × Expr)) (h : LinksPrintable ls)
    (pipes : Pipes) (i : Nat) : AllSpellable (linkTokens pipes i ls) := by
  match ls with
  | [] => simp [linkTokens]
  | (op, e) :: rest =>
    have he := spellable_tokens e h.1 (pipes.part i)
    have hl := spellable_linkTokens rest h.2 pipes (i + 1)
    simp [linkTokens, he, hl]

end

/-- What is printed of an expression reads as the expression, whichever calls are printed as
pipes. -/
theorem parse_render {e : Expr} (h : e.Printable) (layout : Layout) (pipes : Pipes) :
    ∃ e', Expr.parse (e.render layout pipes) = .ok e' ∧ e'.spanless = e.spanless := by
  obtain ⟨tokens, htokens, hkinds⟩ :=
    Tokens.ofChars_text layout (spellable_tokens e h pipes) Mark.start
  have hd := derives_tokens e h pipes
  rw [← hkinds] at hd
  obtain ⟨e', he', hspanless⟩ := exists_ofTokens_of_derives hd
  refine ⟨e', ?_, hspanless⟩
  rw [Expr.parse, Tokens.ofText, render, String.toList_ofList, htokens, Results.ok_bind, he']

/-- A keyword as a field and a string with a quote and a backslash, printed with two calls and a
space between any two tokens, and with two pipes. -/
theorem exists_parse_render : ∃ e : Expr, e.Printable ∧
    e.render .wide (fun _ => false) =
      "contains ( split ( ( this ) . In , \"a\\\"\\\\d\" ) , 10 )" ∧
    e.render .compact (fun _ => true) =
      "( ( ( this ).In )|split( \"a\\\"\\\\d\" ) )|contains( 10 )" ∧
    (∃ e', Expr.parse (e.render .wide fun _ => false) = .ok e' ∧ e'.spanless = e.spanless) ∧
    ∃ e', Expr.parse (e.render .compact fun _ => true) = .ok e' ∧ e'.spanless = e.spanless := by
  let e : Expr := .call "contains" [.call "split" [.field (.root .this default) "In" default,
    .literal (.string "a\"\\d") default] default, .literal (.int 10) default] default
  have h : e.Printable := by
    simp only [e, Printable, AllPrintable, Literal.Printable]
    decide
  exact ⟨e, h, by decide +kernel, by decide +kernel, parse_render h .wide fun _ => false,
    parse_render h .compact fun _ => true⟩

end Expr

end RecordCheck
