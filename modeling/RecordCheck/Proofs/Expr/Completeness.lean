import RecordCheck.Proofs.Expr.Lookahead
import RecordCheck.Proofs.Expr.Reading

/-! The parser reads whatever is of the grammar, if the tokens behind it do not go on with it. The
strata whose phrases repeat to the left are read by loops: for those, reading the tokens of a phrase
comes down to the loop with that phrase as what has been read so far. -/

namespace RecordCheck.Parser

open RecordCheck.Expr

variable {R : Reader} {s t : Stratum} {c d : Cursor} {ks : List Token.Kind}

/-- The relation of the parser for a stratum. -/
def readerOf (R : Reader) : Stratum → Reader
  | .disjunction => Disjunction R
  | .conjunction => Conjunction R
  | .negation => Negation R
  | .relation => Comparison (Sum R)
  | .comparison => Comparison (Sum R)
  | .sum => Sum R
  | .product => Product R
  | .signed => Signed R
  | .postfixed => Postfixed R
  | .primary => Primary R

/-- What the parser for a stratum still reads after an expression of the stratum. -/
def After (R : Reader) : Stratum → Span → Expr → Reader
  | .disjunction, _, left => ChainAfter Stratum.disjunction.binaryOp? (Conjunction R) left
  | .conjunction, _, left => ChainAfter Stratum.conjunction.binaryOp? (Negation R) left
  | .comparison, start, left => Relation (Sum R) start left
  | .sum, _, left => ChainAfter Stratum.sum.binaryOp? (Product R) left
  | .product, _, left => ChainAfter Stratum.product.binaryOp? (Signed R) left
  | .postfixed, _, left => Suffixes R left
  | _, _, left => fun c e d => e = left ∧ d = c

/-- The parser for the stratum is a loop. -/
def loops : Stratum → Bool
  | .disjunction | .conjunction | .sum | .product | .postfixed => true
  | _ => false

/-- The tokens behind an expression of the stratum do not go on with a part of it at its end. A
loop takes what goes on with the expression itself. -/
def Ready (s : Stratum) (ks : List Token.Kind) : Prop :=
  (loops s = false → s.Stops ks) ∧ ∀ t, s.tighter? = some t → t.Stops ks

theorem Ready.of_stops (h : s.Stops ks) : Ready s ks := ⟨fun _ => h, fun _ ht => h.tighter ht⟩

theorem ready_binaryOp {k : Token.Kind} {op : BinaryOp} (ho : s.binaryOp? k = some op) :
    Ready s (k :: ks) := by
  refine ⟨fun hl => ?_, fun t ht => Stratum.stops_binaryOp ht ho⟩
  cases s with
  | disjunction | conjunction | sum | product => cases hl
  | _ => cases ho

theorem ready_suffix {symbol : Symbol} (hs : symbol ∈ [.dot, .leftBracket, .pipe]) :
    Ready .postfixed (.symbol symbol :: ks) := by
  refine ⟨fun hl => (by cases hl), fun t ht => ?_⟩
  cases ht
  exact Stratum.stops_suffix hs

/-- The parser for the stratum comes down to reading on after the expression. -/
def Continued (R : Reader) (s : Stratum) (e : Expr) (c : Cursor) (rest : List Token.Kind) : Prop :=
  ∃ e' d start, e'.spanless = e ∧ d.kinds = rest ∧
    ∀ a z, After R s start e' d a z → readerOf R s c a z

/-- The parser for the stratum reads the expression. -/
def Read (R : Reader) (s : Stratum) (e : Expr) (c : Cursor) (rest : List Token.Kind) : Prop :=
  ∃ e' d, e'.spanless = e ∧ d.kinds = rest ∧ readerOf R s c e' d

/-! ### Lookahead -/

theorem sees_eq (symbol : Symbol) :
    c.sees symbol = c.kinds.head?.any (fun k => k == .symbol symbol) := by
  unfold Cursor.sees Cursor.kinds
  cases c.rest <;> rfl

theorem sees_of_stops {symbol : Symbol} (hs : s.Stops c.kinds)
    (hk : ∀ ks, s.continues (.symbol symbol :: ks) = true) : c.sees symbol = false := by
  rw [Bool.eq_false_iff]
  intro h
  obtain ⟨d, hd⟩ := sees_iff.mp h
  have hc := hs s (Nat.le_refl _)
  rw [hd.kinds, hk] at hc
  cases hc

theorem binaryOp_of_stops (hs : s.Stops c.kinds) (hl : s ≠ .comparison) (hr : s ≠ .relation)
    {k : Token.Kind} (h : Takes c k d) : s.binaryOp? k = none := by
  have hc := hs s (Nat.le_refl _)
  rw [h.kinds] at hc
  cases ho : s.binaryOp? k with
  | none => rfl
  | some op =>
    unfold Stratum.continues at hc
    split at hc <;> simp_all

/-- Where an expression of the stratum ends, nothing more is read after it. -/
theorem after_done (hs : s.Stops d.kinds) (hc : s ≠ .comparison) {start : Span} {e : Expr} :
    After R s start e d e d := by
  cases s with
  | disjunction => exact .done fun k d₁ h => binaryOp_of_stops hs (by decide) (by decide) h
  | conjunction => exact .done fun k d₁ h => binaryOp_of_stops hs (by decide) (by decide) h
  | sum => exact .done fun k d₁ h => binaryOp_of_stops hs (by decide) (by decide) h
  | product => exact .done fun k d₁ h => binaryOp_of_stops hs (by decide) (by decide) h
  | postfixed =>
    exact .done (sees_of_stops hs fun _ => rfl) (sees_of_stops hs fun _ => rfl)
      (sees_of_stops hs fun _ => rfl)
  | comparison => exact absurd rfl hc
  | _ => exact ⟨rfl, rfl⟩

theorem Continued.read {e : Expr} {rest : List Token.Kind} (h : Continued R s e c rest)
    (hs : s.Stops rest) (hc : s ≠ .comparison) : Read R s e c rest := by
  obtain ⟨e', d, start, he, rfl, ha⟩ := h
  exact ⟨e', d, he, rfl, ha e' d (after_done hs hc)⟩

/-- Of most strata that are no loops, an expression is all that is read. -/
theorem Read.continued {e : Expr} {rest : List Token.Kind} (h : Read R s e c rest)
    (hs : s ∈ [.negation, .relation, .signed, .primary]) : Continued R s e c rest := by
  obtain ⟨e', d, he, hd, hread⟩ := h
  refine ⟨e', d, default, he, hd, ?_⟩
  simp only [List.mem_cons, List.not_mem_nil, or_false] at hs
  rcases hs with rfl | rfl | rfl | rfl
  all_goals
    rintro a z ⟨rfl, rfl⟩
    exact hread

/-- Without a membership or match behind it, a chain of comparisons is all that is read. -/
theorem relation_done (hs : Stratum.relation.Stops c.kinds) {start : Span} {left : Expr} :
    Relation R start left c left c := by
  have hn := hs .relation (Nat.le_refl _)
  refine .done ?_ ?_ ?_
  · intro spelling d₁ h
    rw [h.kinds] at hn
    cases hn
  · intro not d₁ spelling d₂ h h'
    rw [h.kinds, h'.kinds] at hn
    cases hn
  · intro spelling d₁ h
    rw [h.kinds] at hn
    cases hn

theorem links_done (hs : Stratum.comparison.Stops c.kinds) : Links R c [] c := by
  refine .done fun k d₁ h => ?_
  have hn := hs .comparison (Nat.le_refl _)
  rw [h.kinds] at hn
  simpa [Stratum.continues] using hn

/-! ### Phrases -/

/-- The parser reads the phrase from its tokens, if they stand before tokens that do not go on
with it. -/
def Complete (R : Reader) : Phrase → List Token.Kind → Prop
  | .expr s e, ts => ∀ c rest, c.kinds = ts ++ rest → Ready s rest → Continued R s e c rest
  | .items es, ts => ∀ close ∈ [Symbol.rightParen, .rightBracket], ∀ c rest,
      c.kinds = ts ++ .symbol close :: rest →
      ∃ es' d, spanlessAll es' = es ∧ d.kinds = rest ∧ Items R close c es' d
  | .links ls, ts => ∀ c rest, c.kinds = ts ++ rest → Stratum.comparison.Stops rest →
      ∃ ls' d, spanlessLinks ls' = ls ∧ d.kinds = rest ∧ Links (Sum R) c ls' d

variable {e : Expr} {k : Token.Kind} {ts us rest : List Token.Kind}

theorem Complete.read (h : Complete R (.expr s e) ts) (hk : c.kinds = ts ++ rest)
    (hs : s.Stops rest) (hc : s ≠ .comparison) : Read R s e c rest :=
  (h c rest hk (.of_stops hs)).read hs hc

theorem complete_unary {op : UnaryOp} (ho : s.unaryOp? k = some op)
    (h : Complete R (.expr s e) ts) :
    Complete R (.expr s (.unary op e default)) (k :: ts) := by
  intro c rest hk hr
  obtain ⟨d₁, hd₁, hk⟩ := exists_takes hk
  obtain ⟨e', d, start, rfl, hd, ha⟩ := h d₁ rest hk hr
  cases s with
  | negation | signed =>
    have hread := ha e' d ⟨rfl, rfl⟩
    exact Read.continued ⟨_, d, rfl, hd, .marked hd₁ ho hread⟩ (by simp)
  | _ => cases ho

theorem complete_tighter (ht : s.tighter? = some t) (hd : Derives (.expr t e) ts)
    (h : Complete R (.expr t e) ts) : Complete R (.expr s e) ts := by
  intro c rest hk hr
  have hs : t.Stops rest := hr.2 t ht
  -- What starts an expression of the tighter stratum is no operator of this one.
  have hn (k : Token.Kind) (d₁ : Cursor) (htakes : Takes c k d₁) : s.unaryOp? k = none := by
    obtain ⟨k', us, rfl, hstarts⟩ := hd.started
    rw [htakes.kinds] at hk
    obtain ⟨rfl, -⟩ := List.cons.inj hk
    exact Stratum.unaryOp_of_starts ht hstarts
  cases s with
  | relation =>
    cases ht
    obtain ⟨e', d, start, he, rfl, ha⟩ := h c rest hk (.of_stops hs)
    have hread := ha e' d (relation_done (hr.1 rfl))
    exact Read.continued ⟨e', d, he, rfl, hread⟩ (by simp)
  | comparison =>
    cases ht
    obtain ⟨e', d, he, rfl, hread⟩ := h.read hk hs (by decide)
    exact ⟨e', d, e'.span, he, rfl, fun a z hz => ⟨hread, links_done (hr.1 rfl), hz⟩⟩
  | negation | signed =>
    cases ht
    obtain ⟨e', d, he, rfl, hread⟩ := h.read hk hs (by decide)
    exact Read.continued ⟨e', d, he, rfl, .operand hn hread⟩ (by simp)
  | disjunction | conjunction | sum | product | postfixed =>
    cases ht
    obtain ⟨e', d, he, rfl, hread⟩ := h.read hk hs (by decide)
    exact ⟨e', d, default, he, rfl, fun a z hz => ⟨hread, hz⟩⟩
  | primary => cases ht

theorem complete_binary {op : BinaryOp} {left right : Expr} (ht : s.tighter? = some t)
    (ho : s.binaryOp? k = some op) (hl : Complete R (.expr s left) ts)
    (hr : Complete R (.expr t right) us) :
    Complete R (.expr s (.binary op left right default)) (ts ++ k :: us) := by
  intro c rest hk hready
  rw [List.append_assoc] at hk
  obtain ⟨left', d₁, start, rfl, hd₁, ha⟩ := hl c _ hk (ready_binaryOp ho)
  obtain ⟨d₂, hd₂, hk₂⟩ := exists_takes hd₁
  have hc : t ≠ .comparison := by
    rintro rfl
    cases s <;> cases ht
    cases ho
  obtain ⟨right', d₃, rfl, hd₃, hright⟩ := hr.read hk₂ (hready.2 t ht) hc
  refine ⟨.binary op left' right' (left'.span.upTo d₃.stop), d₃, start, rfl, hd₃, ?_⟩
  intro a z hz
  apply ha
  cases s with
  | disjunction | conjunction | sum | product =>
    cases ht
    exact .more hd₂ ho hright hz
  | _ => cases ho

theorem complete_isIn {left right : Expr} {spelling : String}
    (hl : Complete R (.expr .comparison left) ts) (hr : Complete R (.expr .sum right) us) :
    Complete R (.expr .relation (.binary .isIn left right default))
      (ts ++ .keyword .isIn spelling :: us) := by
  intro c rest hk hready
  rw [List.append_assoc] at hk
  obtain ⟨left', d₁, start, rfl, hd₁, ha⟩ :=
    hl c _ hk (.of_stops (Stratum.stops_relation (by simp)))
  obtain ⟨d₂, hd₂, hk₂⟩ := exists_takes hd₁
  obtain ⟨right', d₃, rfl, hd₃, hright⟩ :=
    hr.read hk₂ ((hready.2 _ rfl).tighter rfl) (by decide)
  have hread := ha _ _ (.isIn hd₂ hright)
  exact Read.continued ⟨_, d₃, rfl, hd₃, hread⟩ (by simp)

theorem complete_notIn {left right : Expr} {not spelling : String}
    (hl : Complete R (.expr .comparison left) ts) (hr : Complete R (.expr .sum right) us) :
    Complete R (.expr .relation (.binary .notIn left right default))
      (ts ++ .keyword .not not :: .keyword .isIn spelling :: us) := by
  intro c rest hk hready
  rw [List.append_assoc] at hk
  obtain ⟨left', d₁, start, rfl, hd₁, ha⟩ :=
    hl c _ hk (.of_stops (Stratum.stops_relation (by simp)))
  obtain ⟨d₂, hd₂, hk₂⟩ := exists_takes hd₁
  obtain ⟨d₃, hd₃, hk₃⟩ := exists_takes hk₂
  obtain ⟨right', d₄, rfl, hd₄, hright⟩ :=
    hr.read hk₃ ((hready.2 _ rfl).tighter rfl) (by decide)
  have hread := ha _ _ (.notIn hd₂ hd₃ hright)
  exact Read.continued ⟨_, d₄, rfl, hd₄, hread⟩ (by simp)

theorem complete_isMatch {spelling : String} {p : Pattern}
    (hl : Complete R (.expr .comparison e) ts) :
    Complete R (.expr .relation (.matches e p default))
      (ts ++ [.keyword .matches spelling, .string p.source]) := by
  intro c rest hk hready
  rw [List.append_assoc] at hk
  obtain ⟨left', d₁, start, rfl, hd₁, ha⟩ :=
    hl c _ hk (.of_stops (Stratum.stops_relation (by simp)))
  obtain ⟨d₂, hd₂, hk₂⟩ := exists_takes hd₁
  obtain ⟨d₃, hd₃, hk₃⟩ := exists_takes hk₂
  have hread := ha _ _ (.isMatch hd₂ hd₃)
  exact Read.continued ⟨_, d₃, rfl, hk₃, hread⟩ (by simp)

/-- Links of a chain start with an operator. -/
theorem stops_links {ls : List (CompareOp × Expr)} (h : Derives (.links ls) ts)
    (hs : Stratum.sum.Stops rest) : Stratum.sum.Stops (ts ++ rest) := by
  cases h with
  | noLinks => exact hs
  | link ho => exact Stratum.stops_compareOp ho

theorem complete_link {op : CompareOp} {right : Expr} {ls : List (CompareOp × Expr)}
    (ho : compareOp? k = some op) (hd : Derives (.links ls) us)
    (hr : Complete R (.expr .sum right) ts) (hl : Complete R (.links ls) us) :
    Complete R (.links ((op, right) :: ls)) (k :: ts ++ us) := by
  intro c rest hk hs
  rw [List.append_assoc] at hk
  obtain ⟨d₁, hd₁, hk₁⟩ := exists_takes hk
  obtain ⟨right', d₂, rfl, hd₂, hright⟩ :=
    hr.read hk₁ (stops_links hd (hs.tighter rfl)) (by decide)
  obtain ⟨ls', d₃, rfl, hd₃, hlinks⟩ := hl d₂ rest hd₂ hs
  exact ⟨_, d₃, rfl, hd₃, .more hd₁ ho hright hlinks⟩

theorem complete_compare {first : Expr} {ls : List (CompareOp × Expr)} (hne : ls ≠ [])
    (hd : Derives (.links ls) us) (hf : Complete R (.expr .sum first) ts)
    (hl : Complete R (.links ls) us) :
    Complete R (.expr .comparison (.compare first ls default)) (ts ++ us) := by
  intro c rest hk hready
  rw [List.append_assoc] at hk
  have hs := hready.1 rfl
  obtain ⟨first', d₁, rfl, hd₁, hfirst⟩ :=
    hf.read hk (stops_links hd (hs.tighter rfl)) (by decide)
  obtain ⟨ls', d₂, rfl, hd₂, hlinks⟩ := hl d₁ rest hd₁ hs
  refine ⟨compared first' ls' d₂.stop, d₂, first'.span, ?_, hd₂, fun a z hz => ⟨hfirst, hlinks, hz⟩⟩
  cases ls' with
  | nil => exact absurd rfl hne
  | cons l ls' => rfl

/-! ### Values and what follows them -/

theorem complete_field {base : Expr} {name : String} (hn : fieldName? k = some name)
    (hb : Complete R (.expr .postfixed base) ts) :
    Complete R (.expr .postfixed (.field base name default)) (ts ++ [.symbol .dot, k]) := by
  intro c rest hk hready
  rw [List.append_assoc] at hk
  obtain ⟨base', d₁, start, rfl, hd₁, ha⟩ := hb c _ hk (ready_suffix (by simp))
  obtain ⟨d₂, hd₂, hk₂⟩ := exists_takes hd₁
  obtain ⟨d₃, hd₃, hk₃⟩ := exists_takes hk₂
  exact ⟨_, d₃, start, rfl, hk₃, fun a z hz => ha a z (.field hd₂ hn hd₃ hz)⟩

theorem complete_index (hR : ∀ c e d, Disjunction R c e d → R c e d) {base i : Expr}
    (hb : Complete R (.expr .postfixed base) ts) (hi : Complete R (.expr .disjunction i) us) :
    Complete R (.expr .postfixed (.index base i default))
      (ts ++ .symbol .leftBracket :: us ++ [.symbol .rightBracket]) := by
  intro c rest hk hready
  simp only [List.append_assoc] at hk
  obtain ⟨base', d₁, start, rfl, hd₁, ha⟩ := hb c _ hk (ready_suffix (by simp))
  obtain ⟨d₂, hd₂, hk₂⟩ := exists_takes hd₁
  obtain ⟨i', d₃, rfl, hd₃, hread⟩ :=
    hi.read hk₂ (Stratum.stops_delimiter (by simp)) (by decide)
  obtain ⟨d₄, hd₄, hk₄⟩ := exists_takes hd₃
  exact ⟨_, d₄, start, rfl, hk₄, fun a z hz => ha a z (.index hd₂ (hR _ _ _ hread) hd₄ hz)⟩

theorem complete_pipe {base : Expr} {name : String} (hb : Complete R (.expr .postfixed base) ts) :
    Complete R (.expr .postfixed (.call name [base] default))
      (ts ++ [.symbol .pipe, .ident name]) := by
  intro c rest hk hready
  rw [List.append_assoc] at hk
  obtain ⟨base', d₁, start, rfl, hd₁, ha⟩ := hb c _ hk (ready_suffix (by simp))
  obtain ⟨d₂, hd₂, hk₂⟩ := exists_takes hd₁
  obtain ⟨d₃, hd₃, hk₃⟩ := exists_takes hk₂
  -- With a parenthesis behind it, the name would be read as a call with arguments.
  have hs : d₃.sees .leftParen = false :=
    sees_of_stops (s := .primary) (hk₃ ▸ hready.2 _ rfl) fun _ => rfl
  exact ⟨_, d₃, start, rfl, hk₃, fun a z hz => ha a z (.pipe hd₂ hd₃ hs hz)⟩

theorem complete_pipeCall {base : Expr} {name : String} {arguments : List Expr}
    (hb : Complete R (.expr .postfixed base) ts) (hl : Complete R (.items arguments) us) :
    Complete R (.expr .postfixed (.call name (base :: arguments) default))
      (ts ++ .symbol .pipe :: .ident name :: .symbol .leftParen :: us ++
        [.symbol .rightParen]) := by
  intro c rest hk hready
  simp only [List.append_assoc] at hk
  obtain ⟨base', d₁, start, rfl, hd₁, ha⟩ := hb c _ hk (ready_suffix (by simp))
  obtain ⟨d₂, hd₂, hk₂⟩ := exists_takes hd₁
  obtain ⟨d₃, hd₃, hk₃⟩ := exists_takes hk₂
  obtain ⟨d₄, hd₄, hk₄⟩ := exists_takes hk₃
  obtain ⟨arguments', d₅, rfl, hd₅, hitems⟩ := hl .rightParen (by simp) d₄ rest hk₄
  exact ⟨_, d₅, start, rfl, hd₅, fun a z hz => ha a z (.pipeCall hd₂ hd₃ hd₄ hitems hz)⟩

theorem complete_literal {value : Literal} (hv : literal? k = some value) :
    Complete R (.expr .primary (.literal value default)) [k] := by
  intro c rest hk hready
  obtain ⟨d, hd, hk⟩ := exists_takes hk
  exact Read.continued ⟨_, d, rfl, hk, .literal hv hd⟩ (by simp)

theorem complete_root {name : String} {start : Root} (hr : Root.ofName? name = some start) :
    Complete R (.expr .primary (.root start default)) [.ident name] := by
  intro c rest hk hready
  obtain ⟨d, hd, hk⟩ := exists_takes hk
  exact Read.continued ⟨_, d, rfl, hk, .root hr hd⟩ (by simp)

theorem complete_call {name : String} {arguments : List Expr} (hr : Root.ofName? name = none)
    (hl : Complete R (.items arguments) ts) :
    Complete R (.expr .primary (.call name arguments default))
      (.ident name :: .symbol .leftParen :: ts ++ [.symbol .rightParen]) := by
  intro c rest hk hready
  rw [List.append_assoc] at hk
  obtain ⟨d₁, hd₁, hk₁⟩ := exists_takes hk
  obtain ⟨d₂, hd₂, hk₂⟩ := exists_takes hk₁
  obtain ⟨arguments', d₃, rfl, hd₃, hitems⟩ := hl .rightParen (by simp) d₂ rest hk₂
  exact Read.continued ⟨_, d₃, rfl, hd₃, .call hr hd₁ hd₂ hitems⟩ (by simp)

theorem complete_list {es : List Expr} (hl : Complete R (.items es) ts) :
    Complete R (.expr .primary (.list es default))
      (.symbol .leftBracket :: ts ++ [.symbol .rightBracket]) := by
  intro c rest hk hready
  rw [List.append_assoc] at hk
  obtain ⟨d₁, hd₁, hk₁⟩ := exists_takes hk
  obtain ⟨es', d₂, rfl, hd₂, hitems⟩ := hl .rightBracket (by simp) d₁ rest hk₁
  exact Read.continued ⟨_, d₂, rfl, hd₂, .list hd₁ hitems⟩ (by simp)

theorem complete_parens (hR : ∀ c e d, Disjunction R c e d → R c e d)
    (h : Complete R (.expr .disjunction e) ts) :
    Complete R (.expr .primary e) (.symbol .leftParen :: ts ++ [.symbol .rightParen]) := by
  intro c rest hk hready
  rw [List.append_assoc] at hk
  obtain ⟨d₁, hd₁, hk₁⟩ := exists_takes hk
  obtain ⟨e', d₂, rfl, hd₂, hread⟩ :=
    h.read hk₁ (Stratum.stops_delimiter (by simp)) (by decide)
  obtain ⟨d₃, hd₃, hk₃⟩ := exists_takes hd₂
  exact Read.continued ⟨_, d₃, rfl, hk₃, .parens hd₁ (hR _ _ _ hread) hd₃⟩ (by simp)

/-! ### Items -/

/-- No closing symbol starts an expression. -/
theorem sees_of_started {symbol : Symbol} (hs : symbol ∈ [Symbol.rightParen, .rightBracket])
    (h : (Phrase.expr s e).Started ts) (hk : c.kinds = ts ++ rest) : c.sees symbol = false := by
  obtain ⟨k, us, rfl, hk'⟩ := h
  rw [sees_eq, hk]
  simp only [List.mem_cons, List.not_mem_nil, or_false] at hs
  rcases hs with rfl | rfl
  all_goals
    simp only [List.cons_append, List.head?_cons, Option.any_some, beq_eq_false_iff_ne, ne_eq]
    rintro rfl
    cases hk'

theorem complete_noItems : Complete R (.items []) [] := by
  intro close hs c rest hk
  obtain ⟨d, hd, hk⟩ := exists_takes hk
  exact ⟨[], d, rfl, hk, .closed hd⟩

theorem complete_lastItem (hR : ∀ c e d, Disjunction R c e d → R c e d)
    (hd : Derives (.expr .disjunction e) ts) (h : Complete R (.expr .disjunction e) ts) :
    Complete R (.items [e]) ts := by
  intro close hs c rest hk
  have hclose : close ∈ [Symbol.rightParen, .rightBracket, .comma] := by
    simp only [List.mem_cons, List.not_mem_nil, or_false] at hs ⊢
    tauto
  obtain ⟨e', d₁, rfl, hd₁, hread⟩ := h.read hk (Stratum.stops_delimiter hclose) (by decide)
  obtain ⟨d₂, hd₂, hk₂⟩ := exists_takes hd₁
  refine ⟨[e'], d₂, rfl, hk₂, .last (sees_of_started hs hd.started hk) (hR _ _ _ hread) ?_ hd₂⟩
  rw [Bool.eq_false_iff]
  refine hd₂.not_sees ?_
  rintro rfl
  simp at hs

theorem complete_nextItem (hR : ∀ c e d, Disjunction R c e d → R c e d) {es : List Expr}
    (hd : Derives (.expr .disjunction e) ts) (h : Complete R (.expr .disjunction e) ts)
    (hl : Complete R (.items es) us) :
    Complete R (.items (e :: es)) (ts ++ .symbol .comma :: us) := by
  intro close hs c rest hk
  rw [List.append_assoc] at hk
  obtain ⟨e', d₁, rfl, hd₁, hread⟩ :=
    h.read hk (Stratum.stops_delimiter (by simp)) (by decide)
  obtain ⟨d₂, hd₂, hk₂⟩ := exists_takes hd₁
  obtain ⟨es', d₃, rfl, hd₃, hitems⟩ := hl close hs d₂ rest hk₂
  exact ⟨e' :: es', d₃, rfl, hd₃,
    .more (sees_of_started hs hd.started hk) (hR _ _ _ hread) hd₂ hitems⟩

/-! ### Derivations -/

/-- Whatever the grammar derives from some tokens, the parser reads from them. -/
theorem complete_of_derives (hR : ∀ c e d, Disjunction R c e d → R c e d) {p : Phrase}
    (h : Derives p ts) : Complete R p ts := by
  induction h with
  | tighter ht he ih => exact complete_tighter ht he ih
  | binary ht ho _ _ ihl ihr => exact complete_binary ht ho ihl ihr
  | unary ho _ ih => exact complete_unary ho ih
  | isIn _ _ ihl ihr => exact complete_isIn ihl ihr
  | notIn _ _ ihl ihr => exact complete_notIn ihl ihr
  | isMatch _ _ ih => exact complete_isMatch ih
  | compare hls _ hl ihf ihl => exact complete_compare hls hl ihf ihl
  | noLinks => exact fun c rest hk hs => ⟨[], c, rfl, hk, links_done (hk ▸ hs)⟩
  | link ho _ hl ihr ihl => exact complete_link ho hl ihr ihl
  | field hk _ ih => exact complete_field hk ih
  | index _ _ ihb ihi => exact complete_index hR ihb ihi
  | pipe _ ih => exact complete_pipe ih
  | pipeCall _ _ ihb iha => exact complete_pipeCall ihb iha
  | literal hk => exact complete_literal hk
  | root hr => exact complete_root hr
  | call hr _ ih => exact complete_call hr ih
  | list _ ih => exact complete_list ih
  | parens _ ih => exact complete_parens hR ih
  | noItems => exact complete_noItems
  | lastItem he ih => exact complete_lastItem hR he ih
  | nextItem he _ ih ihl => exact complete_nextItem hR he ih ihl

end RecordCheck.Parser
