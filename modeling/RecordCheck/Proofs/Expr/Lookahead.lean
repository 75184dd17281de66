import RecordCheck.Proofs.Expr.Grammar

/-! The tokens by which the parser decides: those that an expression of a stratum starts with, and
those that go on with it. -/

namespace RecordCheck.Expr

namespace Stratum

variable {s t : Stratum} {k : Token.Kind} {ks : List Token.Kind}

/-- Tighter strata have lower ranks. -/
def rank : Stratum → Nat
  | primary => 0
  | postfixed => 1
  | signed => 2
  | product => 3
  | sum => 4
  | comparison => 5
  | relation => 6
  | negation => 7
  | conjunction => 8
  | disjunction => 9

theorem rank_tighter (ht : s.tighter? = some t) : s.rank = t.rank + 1 := by
  cases s <;> cases ht <;> rfl

theorem rank_le_of_tighter (ht : s.tighter? = some t) : t.rank ≤ s.rank := by
  rw [rank_tighter ht]
  exact Nat.le_succ _

theorem rank_injective (h : s.rank = t.rank) : s = t := by
  cases s <;> cases t <;> first | rfl | cases h

/-- A token can start an expression of the stratum. -/
def starts (s : Stratum) : Token.Kind → Bool
  | .ident _ => true
  | .symbol .leftParen => true
  | .symbol .leftBracket => true
  | .symbol .minus => signed.rank ≤ s.rank
  | .keyword .not _ => negation.rank ≤ s.rank
  | k => (literal? k).isSome

theorem starts_of_rank_le (h : t.rank ≤ s.rank) (hk : t.starts k = true) : s.starts k = true := by
  unfold starts at hk ⊢
  split at hk <;> simp_all <;> omega

/-- Some tokens go on with an expression of the stratum instead of ending it. A call is the only
value that a parenthesis goes on with. -/
def continues : Stratum → List Token.Kind → Bool
  | primary, .symbol .leftParen :: _ => true
  | postfixed, .symbol .dot :: _ => true
  | postfixed, .symbol .leftBracket :: _ => true
  | postfixed, .symbol .pipe :: _ => true
  | comparison, k :: _ => (compareOp? k).isSome
  | relation, .keyword .isIn _ :: _ => true
  | relation, .keyword .matches _ :: _ => true
  | relation, .keyword .not _ :: .keyword .isIn _ :: _ => true
  | s, k :: _ => (s.binaryOp? k).isSome
  | _, [] => false

/-- The tokens go on with no expression of the stratum, nor with one within it at its end. -/
def Stops (s : Stratum) (ks : List Token.Kind) : Prop :=
  ∀ t : Stratum, t.rank ≤ s.rank → t.continues ks = false

theorem Stops.of_rank_le (h : s.Stops ks) (hr : t.rank ≤ s.rank) : t.Stops ks :=
  fun u hu => h u (Nat.le_trans hu hr)

theorem Stops.tighter (h : s.Stops ks) (ht : s.tighter? = some t) : t.Stops ks :=
  h.of_rank_le (rank_le_of_tighter ht)

theorem stops_nil : s.Stops [] := by
  intro t _
  cases t <;> rfl

/-- What stands behind an expression between brackets ends it. -/
theorem stops_delimiter {symbol : Symbol} (h : symbol ∈ [.rightParen, .rightBracket, .comma]) :
    s.Stops (.symbol symbol :: ks) := by
  intro t _
  simp only [List.mem_cons, List.not_mem_nil, or_false] at h
  rcases h with rfl | rfl | rfl <;> cases t <;> rfl

/-- An operator ends its left operand where that is an expression of the tighter stratum. -/
theorem stops_binaryOp {op : BinaryOp} (ht : s.tighter? = some t) (hk : s.binaryOp? k = some op) :
    t.Stops (k :: ks) := by
  intro u hu
  unfold binaryOp? at hk
  split at hk
  case h_8 => cases hk
  all_goals
    cases ht
    cases u <;> first | rfl | exact absurd hu (by decide)

theorem stops_compareOp {op : CompareOp} (hk : compareOp? k = some op) : sum.Stops (k :: ks) := by
  intro u hu
  unfold compareOp? at hk
  split at hk
  · next symbol =>
    cases symbol <;> cases hk <;> cases u <;> first | rfl | exact absurd hu (by decide)
  · cases hk

/-- What relates a value to another or to a pattern ends the comparisons before it. -/
theorem stops_relation {keyword : Keyword} {spelling : String}
    (hk : keyword ∈ [.isIn, .matches, .not]) :
    comparison.Stops (.keyword keyword spelling :: ks) := by
  intro u hu
  simp only [List.mem_cons, List.not_mem_nil, or_false] at hk
  rcases hk with rfl | rfl | rfl <;> cases u <;> first | rfl | exact absurd hu (by decide)

/-- What follows a value is no part of it. -/
theorem stops_suffix {symbol : Symbol} (hs : symbol ∈ [.dot, .leftBracket, .pipe]) :
    primary.Stops (.symbol symbol :: ks) := by
  intro u hu
  simp only [List.mem_cons, List.not_mem_nil, or_false] at hs
  rcases hs with rfl | rfl | rfl <;> cases u <;> first | rfl | exact absurd hu (by decide)

theorem starts_unaryOp {op : UnaryOp} (hk : s.unaryOp? k = some op) : s.starts k = true := by
  unfold unaryOp? at hk
  split at hk
  case h_3 => cases hk
  all_goals rfl

/-- No expression of the tighter stratum starts with an operator of the stratum. -/
theorem unaryOp_of_starts (ht : s.tighter? = some t) (hk : t.starts k = true) :
    s.unaryOp? k = none := by
  unfold unaryOp?
  split
  · cases ht
    cases hk
  · cases ht
    cases hk
  · rfl

theorem starts_literal {value : Literal} (hk : literal? k = some value) : s.starts k = true := by
  unfold starts
  split <;> simp_all [literal?]

end Stratum

/-- Tokens that stand for an expression start with one that starts expressions of its stratum. -/
def Phrase.Started : Phrase → List Token.Kind → Prop
  | .expr s _, ts => ∃ k us, ts = k :: us ∧ s.starts k = true
  | _, _ => True

theorem Phrase.Started.append {s t : Stratum} {e e' : Expr} {ts us : List Token.Kind}
    (h : (Phrase.expr t e).Started ts) (hr : t.rank ≤ s.rank) :
    (Phrase.expr s e').Started (ts ++ us) := by
  obtain ⟨k, us', rfl, hk⟩ := h
  exact ⟨k, us' ++ us, rfl, Stratum.starts_of_rank_le hr hk⟩

theorem Derives.started {p : Phrase} {ts : List Token.Kind} (h : Derives p ts) : p.Started ts := by
  induction h with
  | tighter ht _ ih =>
    obtain ⟨k, us, rfl, hk⟩ := ih
    exact ⟨k, us, rfl, Stratum.starts_of_rank_le (Stratum.rank_le_of_tighter ht) hk⟩
  | unary hk => exact ⟨_, _, rfl, Stratum.starts_unaryOp hk⟩
  | literal hk => exact ⟨_, _, rfl, Stratum.starts_literal hk⟩
  | root | call | list | parens => exact ⟨_, _, rfl, rfl⟩
  | binary _ _ _ _ ih _ => exact ih.append (Nat.le_refl _)
  | isIn _ _ ih _ | notIn _ _ ih _ | isMatch _ _ ih | compare _ _ _ ih _ =>
    exact ih.append (by decide)
  | field _ _ ih | pipe _ ih => exact ih.append (Nat.le_refl _)
  | index _ _ ih _ | pipeCall _ _ ih _ =>
    rw [List.append_assoc]
    exact ih.append (Nat.le_refl _)
  | noItems | lastItem | nextItem | noLinks | link => trivial

end RecordCheck.Expr
