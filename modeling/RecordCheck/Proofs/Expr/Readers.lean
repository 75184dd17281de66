import RecordCheck.Proofs.Expr.Grammar

/-! What the parser reads, as relations between cursors: one relation for each of its functions,
without the bounds on the number of tokens that make the functions terminate. -/

namespace RecordCheck.Parser

open RecordCheck.Expr (Stratum)

/-- The next token is of the kind, and the second cursor is the one after it. -/
def Takes (c : Cursor) (kind : Token.Kind) (d : Cursor) : Prop :=
  ∃ token rest, c.rest = token :: rest ∧ token.kind = kind ∧ d = c.after token rest

/-- What some parser reads: from the first cursor an expression, and on from the second. -/
abbrev Reader : Type := Cursor → Expr → Cursor → Prop

/-- Expressions with commas between them up to a closing symbol. -/
inductive Items (R : Reader) (close : Symbol) : Cursor → List Expr → Cursor → Prop
  | closed {c d} (h : Takes c (.symbol close) d) : Items R close c [] d
  | last {c e d₁ d} (hs : c.sees close = false) (he : R c e d₁) (hn : d₁.sees .comma = false)
      (hc : Takes d₁ (.symbol close) d) : Items R close c [e] d
  | more {c e d₁ d₂ es d} (hs : c.sees close = false) (he : R c e d₁)
      (hc : Takes d₁ (.symbol .comma) d₂) (hl : Items R close d₂ es d) : Items R close c (e :: es) d

/-- The expressions that need no operator. -/
inductive Primary (R : Reader) : Reader
  | literal {c k value d} (hk : Expr.literal? k = some value) (h : Takes c k d) :
      Primary R c (.literal value c.span) d
  | root {c name start d} (hr : Root.ofName? name = some start) (h : Takes c (.ident name) d) :
      Primary R c (.root start c.span) d
  | call {c name arguments d₁ d₂ d} (hr : Root.ofName? name = none) (h : Takes c (.ident name) d₁)
      (ho : Takes d₁ (.symbol .leftParen) d₂) (ha : Items R .rightParen d₂ arguments d) :
      Primary R c (.call name arguments (c.span.upTo d.stop)) d
  | list {c es d₁ d} (h : Takes c (.symbol .leftBracket) d₁) (hl : Items R .rightBracket d₁ es d) :
      Primary R c (.list es (c.span.upTo d.stop)) d
  | parens {c e d₁ d₂ d} (h : Takes c (.symbol .leftParen) d₁) (he : R d₁ e d₂)
      (hc : Takes d₂ (.symbol .rightParen) d) : Primary R c e d

/-- Fields, indexes and pipes after a first expression, up to where none follows. -/
inductive Suffixes (R : Reader) : Expr → Reader
  | done {base c} (hd : c.sees .dot = false) (hi : c.sees .leftBracket = false)
      (hp : c.sees .pipe = false) : Suffixes R base c base c
  | field {base c d₁ k name d₂ e d} (hd : Takes c (.symbol .dot) d₁)
      (hk : Expr.fieldName? k = some name) (h : Takes d₁ k d₂)
      (hw : Suffixes R (.field base name (base.span.upTo d₂.stop)) d₂ e d) : Suffixes R base c e d
  | index {base c d₁ i d₂ d₃ e d} (ho : Takes c (.symbol .leftBracket) d₁) (hi : R d₁ i d₂)
      (hc : Takes d₂ (.symbol .rightBracket) d₃)
      (hw : Suffixes R (.index base i (base.span.upTo d₃.stop)) d₃ e d) : Suffixes R base c e d
  | pipe {base c d₁ name d₂ e d} (hp : Takes c (.symbol .pipe) d₁) (h : Takes d₁ (.ident name) d₂)
      (hs : d₂.sees .leftParen = false)
      (hw : Suffixes R (.call name [base] (base.span.upTo d₂.stop)) d₂ e d) : Suffixes R base c e d
  | pipeCall {base c d₁ name d₂ d₃ arguments d₄ e d} (hp : Takes c (.symbol .pipe) d₁)
      (h : Takes d₁ (.ident name) d₂) (ho : Takes d₂ (.symbol .leftParen) d₃)
      (ha : Items R .rightParen d₃ arguments d₄)
      (hw : Suffixes R (.call name (base :: arguments) (base.span.upTo d₄.stop)) d₄ e d) :
      Suffixes R base c e d

inductive Postfixed (R : Reader) : Reader
  | mk {c base d₁ e d} (hb : Primary R c base d₁) (hs : Suffixes R base d₁ e d) : Postfixed R c e d

/-- The operators before an operand, as many as there are. -/
inductive Leading (op? : Token.Kind → Option UnaryOp) (R : Reader) : Reader
  | operand {c e d} (hn : ∀ k d₁, Takes c k d₁ → op? k = none) (h : R c e d) : Leading op? R c e d
  | marked {c k op d₁ e d} (h : Takes c k d₁) (ho : op? k = some op) (he : Leading op? R d₁ e d) :
      Leading op? R c (.unary op e (c.span.upTo d.stop)) d

/-- More operands after a first one, as many as there are operators. -/
inductive ChainAfter (op? : Token.Kind → Option BinaryOp) (R : Reader) : Expr → Reader
  | done {left c} (hn : ∀ k d₁, Takes c k d₁ → op? k = none) : ChainAfter op? R left c left c
  | more {left c k op d₁ right d₂ e d} (h : Takes c k d₁) (ho : op? k = some op)
      (hr : R d₁ right d₂)
      (hw : ChainAfter op? R (.binary op left right (left.span.upTo d₂.stop)) d₂ e d) :
      ChainAfter op? R left c e d

inductive Chain (op? : Token.Kind → Option BinaryOp) (R : Reader) : Reader
  | mk {c first d₁ e d} (hf : R c first d₁) (hs : ChainAfter op? R first d₁ e d) : Chain op? R c e d

/-- Operators of comparison with their right operands, as many as there are. -/
inductive Links (R : Reader) : Cursor → List (CompareOp × Expr) → Cursor → Prop
  | done {c} (hn : ∀ k d₁, Takes c k d₁ → Expr.compareOp? k = none) : Links R c [] c
  | more {c k op d₁ right d₂ ls d} (h : Takes c k d₁) (ho : Expr.compareOp? k = some op)
      (hr : R d₁ right d₂) (hl : Links R d₂ ls d) : Links R c ((op, right) :: ls) d

/-- At most one membership or match. -/
inductive Relation (R : Reader) (start : Span) (left : Expr) : Reader
  | isIn {c spelling d₁ right d} (h : Takes c (.keyword .isIn spelling) d₁) (hr : R d₁ right d) :
      Relation R start left c (.binary .isIn left right (start.upTo d.stop)) d
  | notIn {c not d₁ spelling d₂ right d} (h : Takes c (.keyword .not not) d₁)
      (h' : Takes d₁ (.keyword .isIn spelling) d₂) (hr : R d₂ right d) :
      Relation R start left c (.binary .notIn left right (start.upTo d.stop)) d
  | isMatch {c spelling d₁ p d} (h : Takes c (.keyword .matches spelling) d₁)
      (hp : Takes d₁ (.string (Pattern.source p)) d) :
      Relation R start left c (.matches left p (start.upTo d.stop)) d
  | done {c} (hi : ∀ spelling d₁, ¬ Takes c (.keyword .isIn spelling) d₁)
      (hn : ∀ not d₁ spelling d₂, Takes c (.keyword .not not) d₁ →
        ¬ Takes d₁ (.keyword .isIn spelling) d₂)
      (hm : ∀ spelling d₁, ¬ Takes c (.keyword .matches spelling) d₁) :
      Relation R start left c left c

/-- The comparisons of a first operand. -/
def compared (first : Expr) (ls : List (CompareOp × Expr)) (stop : Nat) : Expr :=
  if ls.isEmpty then first else .compare first ls (first.span.upTo stop)

inductive Comparison (R : Reader) : Reader
  | mk {c first d₁ ls d₂ e d} (hf : R c first d₁) (hl : Links R d₁ ls d₂)
      (hr : Relation R first.span (compared first ls d₂.stop) d₂ e d) : Comparison R c e d

/-! ### Levels -/

def Signed (R : Reader) : Reader := Leading Stratum.signed.unaryOp? (Postfixed R)

def Product (R : Reader) : Reader := Chain Stratum.product.binaryOp? (Signed R)

def Sum (R : Reader) : Reader := Chain Stratum.sum.binaryOp? (Product R)

def Negation (R : Reader) : Reader := Leading Stratum.negation.unaryOp? (Comparison (Sum R))

def Conjunction (R : Reader) : Reader := Chain Stratum.conjunction.binaryOp? (Negation R)

def Disjunction (R : Reader) : Reader := Chain Stratum.disjunction.binaryOp? (Conjunction R)

/-! ### Tokens -/

namespace Takes

variable {c d d' : Cursor} {k k' : Token.Kind}

theorem kinds (h : Takes c k d) : c.kinds = k :: d.kinds := by
  obtain ⟨token, rest, hc, rfl, rfl⟩ := h
  simp [Cursor.kinds, Cursor.after, hc]

theorem size_lt (h : Takes c k d) : d.size < c.size := by
  obtain ⟨token, rest, hc, -, rfl⟩ := h
  exact Cursor.size_after hc

theorem unique (h : Takes c k d) (h' : Takes c k' d') : k = k' ∧ d = d' := by
  obtain ⟨token, rest, hc, rfl, rfl⟩ := h
  obtain ⟨token', rest', hc', rfl, rfl⟩ := h'
  rw [hc] at hc'
  cases hc'
  exact ⟨rfl, rfl⟩

theorem not_sees {symbol symbol' : Symbol} (h : Takes c (.symbol symbol) d)
    (hn : symbol ≠ symbol') : ¬ c.sees symbol' = true := by
  unfold Cursor.sees
  obtain ⟨token, rest, hc, hk, -⟩ := h
  simpa [hc, hk] using hn

end Takes

theorem exists_takes {c : Cursor} {k : Token.Kind} {ks : List Token.Kind} (h : c.kinds = k :: ks) :
    ∃ d, Takes c k d ∧ d.kinds = ks := by
  obtain ⟨token, rest, hc, rfl, rfl⟩ := List.map_eq_cons_iff.mp h
  exact ⟨c.after token rest, ⟨token, rest, hc, rfl, rfl⟩, rfl⟩

theorem takes_iff {c d : Cursor} {k : Token.Kind} {token : Token} {rest : List Token}
    (h : c.rest = token :: rest) : Takes c k d ↔ k = token.kind ∧ d = c.after token rest := by
  simp [Takes, h, eq_comm]

theorem sees_iff {c : Cursor} {symbol : Symbol} :
    c.sees symbol = true ↔ ∃ d, Takes c (.symbol symbol) d := by
  unfold Cursor.sees
  cases hc : c.rest with
  | nil => simp [Takes, hc]
  | cons token rest => simp [Takes, hc]

end RecordCheck.Parser
