import RecordCheck.Eval.Basic
import RecordCheck.Proofs.Results

/-! `and` and `or` evaluate their operands from left to right and stop at one that decides. They can
still be regrouped, turned into each other by `not`, and swapped where no operand fails. -/

namespace RecordCheck.Eval

open Results

/-! ### Truth values -/

/-- The strong Kleene conjunction of truth values, of which `none` is neither true nor false. -/
def kleeneAnd : Option Bool → Option Bool → Option Bool
  | some false, _ => some false
  | _, some false => some false
  | some true, some true => some true
  | _, _ => none

/-- The strong Kleene disjunction. -/
def kleeneOr : Option Bool → Option Bool → Option Bool
  | some true, _ => some true
  | _, some true => some true
  | some false, some false => some false
  | _, _ => none

/-- The connectives, each with the truth value that decides it. -/
inductive Decides : BinaryOp → Bool → Prop where
  | and : Decides .and false
  | or : Decides .or true

/-- The truth value of an operand, or why it has none. -/
def verdict (op : BinaryOp) (x : Result Value) : Result (Option Bool) := x >>= truth op

/-- What a truth value comes to beside an unknown one. -/
def besideUnknown (decisive : Bool) (t : Option Bool) : Option Bool :=
  if t = some decisive then t else none

/-- The truth value of a connective from those of its operands. The right one is left out only if
the left one decides. -/
def combine (decisive : Bool) (x y : Result (Option Bool)) : Result (Option Bool) :=
  match x with
  | .error e => .error e
  | .ok (some a) => if a = decisive then .ok (some decisive) else y
  | .ok none => y.map (besideUnknown decisive)

/-- The truth value of the negation. -/
def negate (x : Result (Option Bool)) : Result (Option Bool) := x.map (Option.map (!·))

section Truth

variable {op op' : BinaryOp} {decisive : Bool} {x x' y y' z : Result (Option Bool)}

theorem truth_ofTruth (t : Option Bool) : truth op (ofTruth t) = .ok t := by
  cases t <;> rfl

theorem verdict_map_ofTruth : verdict op (x.map ofTruth) = x := by
  cases x with
  | error e => rfl
  | ok t => exact truth_ofTruth t

theorem combine_decided : combine decisive (.ok (some decisive)) y = .ok (some decisive) :=
  if_pos rfl

theorem combine_undecided : combine decisive (.ok (some !decisive)) y = y :=
  if_neg (by simp)

theorem combine_unknown : combine decisive (.ok none) y = y.map (besideUnknown decisive) := rfl

/-- An operand fails, decides, leaves it to the other one, or is unknown. -/
theorem operand_cases (decisive : Bool) (x : Result (Option Bool)) :
    (∃ e, x = .error e) ∨ x = .ok (some decisive) ∨ x = .ok (some !decisive) ∨ x = .ok none := by
  cases x with
  | error e => exact .inl ⟨e, rfl⟩
  | ok t =>
    cases t with
    | none => simp
    | some a => cases a <;> cases decisive <;> simp

theorem besideUnknown_decisive : besideUnknown decisive (some decisive) = some decisive :=
  if_pos rfl

theorem besideUnknown_not : besideUnknown decisive (some !decisive) = none :=
  if_neg (by simp)

theorem besideUnknown_besideUnknown (t : Option Bool) :
    besideUnknown decisive (besideUnknown decisive t) = besideUnknown decisive t := by
  rcases t with _ | _ | _ <;> cases decisive <;> rfl

theorem besideUnknown_map_not (t : Option Bool) :
    besideUnknown (!decisive) (t.map (!·)) = (besideUnknown decisive t).map (!·) := by
  rcases t with _ | _ | _ <;> cases decisive <;> rfl

/-- Where the first of three operands is unknown and the second does not fail, the second either
decides or leaves what is unknown as it is. -/
theorem combine_assoc :
    combine decisive (combine decisive x y) z = combine decisive x (combine decisive y z) := by
  rcases operand_cases decisive x with ⟨e, rfl⟩ | rfl | rfl | rfl
  · rfl
  · simp only [combine_decided]
  · simp only [combine_undecided]
  · simp only [combine_unknown]
    rcases operand_cases decisive y with ⟨e, rfl⟩ | rfl | rfl | rfl
    · rfl
    · simp only [combine_decided, Except.map, besideUnknown_decisive]
    · simp only [combine_undecided, Except.map, besideUnknown_not, combine_unknown]
    · simp only [combine_unknown]
      cases z with
      | error e => rfl
      | ok t => exact congrArg _ (besideUnknown_besideUnknown t).symm

theorem combine_negate :
    combine (!decisive) (negate x) (negate y) = negate (combine decisive x y) := by
  rcases operand_cases decisive x with ⟨e, rfl⟩ | rfl | rfl | rfl
  · rfl
  · rw [combine_decided]
    exact combine_decided
  · rw [combine_undecided]
    exact combine_undecided
  · cases y with
    | error e => rfl
    | ok t => exact congrArg _ (besideUnknown_map_not t)

theorem combine_false (s t : Option Bool) :
    combine false (.ok s) (.ok t) = .ok (kleeneAnd s t) := by
  rcases s with _ | _ | _ <;> rcases t with _ | _ | _ <;> rfl

theorem combine_true (s t : Option Bool) : combine true (.ok s) (.ok t) = .ok (kleeneOr s t) := by
  rcases s with _ | _ | _ <;> rcases t with _ | _ | _ <;> rfl

theorem kleeneAnd_comm (s t : Option Bool) : kleeneAnd s t = kleeneAnd t s := by
  rcases s with _ | _ | _ <;> rcases t with _ | _ | _ <;> rfl

theorem kleeneOr_comm (s t : Option Bool) : kleeneOr s t = kleeneOr t s := by
  rcases s with _ | _ | _ <;> rcases t with _ | _ | _ <;> rfl

theorem toOption_combine (hx : x.toOption = x'.toOption) (hy : y.toOption = y'.toOption) :
    (combine decisive x y).toOption = (combine decisive x' y').toOption := by
  cases x with
  | error e =>
    cases x' with
    | error e' => rfl
    | ok t' => cases hx
  | ok t =>
    cases x' with
    | error e' => cases hx
    | ok t' =>
      obtain rfl : t = t' := Option.some.inj hx
      rcases operand_cases decisive (.ok t) with ⟨e, h⟩ | h | h | h <;> rw [h]
      · rfl
      · rw [combine_decided, combine_decided]
      · rw [combine_undecided, combine_undecided, hy]
      · simp only [combine_unknown, toOption_map, hy]

end Truth

/-! ### Values of connectives -/

section Values

variable {op op' : BinaryOp} {decisive : Bool} {ctx : Context}

theorem connective_eq_combine (op : BinaryOp) (decisive : Bool) (x y : Result Value) :
    (do connective op decisive (← x) y) =
      (combine decisive (verdict op x) (verdict op y)).map ofTruth := by
  have asked {α : Type} (f : Option Bool → Result α) :
      (do f (← truth op (← y))) = verdict op y >>= f := (bind_assoc ..).symm
  cases x with
  | error e => rfl
  | ok v =>
    change connective op decisive v y = (combine decisive (truth op v) (verdict op y)).map ofTruth
    simp only [connective, asked]
    rcases operand_cases decisive (truth op v) with ⟨e, h⟩ | h | h | h <;> rw [h]
    · rfl
    · rw [combine_decided, ok_bind]
      exact if_pos rfl
    · rw [combine_undecided, ok_bind]
      exact if_neg (by simp)
    · rw [combine_unknown, ok_bind]
      cases verdict op y with
      | error e => rfl
      | ok t => rcases t with _ | _ | _ <;> cases decisive <;> rfl

theorem eval_connective (h : Decides op decisive) (a b : Expr) (s : Span) :
    eval ctx (.binary op a b s) =
      (combine decisive (verdict op (eval ctx a)) (verdict op (eval ctx b))).map ofTruth := by
  cases h with
  | and => exact connective_eq_combine .and false (eval ctx a) (eval ctx b)
  | or => exact connective_eq_combine .or true (eval ctx a) (eval ctx b)

theorem verdict_connective (h : Decides op decisive) (a b : Expr) (s : Span) :
    verdict op (eval ctx (.binary op a b s)) =
      combine decisive (verdict op (eval ctx a)) (verdict op (eval ctx b)) := by
  rw [eval_connective h, verdict_map_ofTruth]

theorem eval_regrouped (h : Decides op decisive) (a b c : Expr) (s t s' t' : Span) :
    eval ctx (.binary op (.binary op a b s) c t) =
      eval ctx (.binary op a (.binary op b c s') t') := by
  rw [eval_connective h, verdict_connective h, combine_assoc, ← verdict_connective h b c s',
    ← eval_connective h a _ t']

theorem eval_not (a : Expr) (s : Span) : eval ctx (.unary .not a s) = eval ctx a >>= not := rfl

theorem ofTruth_bind_not (x : Result (Option Bool)) :
    x.map ofTruth >>= not = (negate x).map ofTruth := by
  cases x with
  | error e => rfl
  | ok t => rcases t with _ | _ | _ <;> rfl

/-- `not` fails where a connective does, with another error. -/
theorem toOption_verdict_not (x : Result Value) :
    (verdict op' (x >>= not)).toOption = (negate (verdict op x)).toOption := by
  cases x with
  | error e => rfl
  | ok v => cases v <;> rfl

theorem toOption_not_connective (h : Decides op decisive) (h' : Decides op' !decisive)
    (a b : Expr) (s t s' t' u' : Span) :
    (eval ctx (.unary .not (.binary op a b s) t)).toOption =
      (eval ctx (.binary op' (.unary .not a s') (.unary .not b t') u')).toOption := by
  rw [eval_not, eval_connective h, ofTruth_bind_not, ← combine_negate, eval_connective h',
    toOption_map, toOption_map]
  exact congrArg _ (toOption_combine (toOption_verdict_not _).symm (toOption_verdict_not _).symm)

theorem eval_decided (h : Decides op decisive) {a : Expr}
    (ha : eval ctx a = .ok (.bool decisive)) (b : Expr) (s : Span) :
    eval ctx (.binary op a b s) = .ok (.bool decisive) := by
  have hv : verdict op (eval ctx a) = .ok (some decisive) := by
    rw [ha]
    rfl
  rw [eval_connective h, hv, combine_decided]
  rfl

theorem eval_of_truths (h : Decides op decisive) {a b : Expr} {x y : Option Bool}
    (ha : eval ctx a = .ok (ofTruth x)) (hb : eval ctx b = .ok (ofTruth y)) (s : Span) :
    eval ctx (.binary op a b s) = (combine decisive (.ok x) (.ok y)).map ofTruth := by
  rw [eval_connective h, ha, hb]
  exact congrArg _ (congrArg₂ _ (truth_ofTruth x) (truth_ofTruth y))

end Values

/-- Both have the same value, or both fail. -/
def SameValue (x y : Result Value) : Prop := x.toOption = y.toOption

/-- Three operands of `and` or `or` can be regrouped without any change. Under `not` the connective
turns into the other one, with the same value wherever there is one. Of two operands that are
booleans or null the order does not matter, and the value is that of the strong Kleene connective.
An operand that decides does so whatever the other one is, also if that one fails. -/
theorem connective_laws (ctx : Context) (a b c : Expr) (s t s' t' u : Span) :
    (eval ctx (.binary .and (.binary .and a b s) c t) =
        eval ctx (.binary .and a (.binary .and b c s') t') ∧
      eval ctx (.binary .or (.binary .or a b s) c t) =
        eval ctx (.binary .or a (.binary .or b c s') t')) ∧
    (SameValue (eval ctx (.unary .not (.binary .and a b s) t))
        (eval ctx (.binary .or (.unary .not a s') (.unary .not b t') u)) ∧
      SameValue (eval ctx (.unary .not (.binary .or a b s) t))
        (eval ctx (.binary .and (.unary .not a s') (.unary .not b t') u))) ∧
    (∀ x y, eval ctx a = .ok (ofTruth x) → eval ctx b = .ok (ofTruth y) →
      (eval ctx (.binary .and a b s) = .ok (ofTruth (kleeneAnd x y)) ∧
        eval ctx (.binary .and b a t) = eval ctx (.binary .and a b s)) ∧
      (eval ctx (.binary .or a b s) = .ok (ofTruth (kleeneOr x y)) ∧
        eval ctx (.binary .or b a t) = eval ctx (.binary .or a b s))) ∧
    (eval ctx a = .ok (.bool false) → eval ctx (.binary .and a b s) = .ok (.bool false)) ∧
    (eval ctx a = .ok (.bool true) → eval ctx (.binary .or a b s) = .ok (.bool true)) := by
  refine ⟨⟨eval_regrouped .and a b c s t s' t', eval_regrouped .or a b c s t s' t'⟩,
    ⟨toOption_not_connective .and .or a b s t s' t' u,
      toOption_not_connective .or .and a b s t s' t' u⟩, ?_,
    fun ha => eval_decided .and ha b s, fun ha => eval_decided .or ha b s⟩
  intro x y ha hb
  rw [eval_of_truths .and ha hb, eval_of_truths .and hb ha, eval_of_truths .or ha hb,
    eval_of_truths .or hb ha, combine_false, combine_false, combine_true, combine_true,
    kleeneAnd_comm y x, kleeneOr_comm y x]
  exact ⟨⟨rfl, rfl⟩, rfl, rfl⟩

/-- Null and false are false in either order, and false decides beside an operand that fails. -/
theorem connective_laws_of_false :
    let ctx : Context := ⟨.bool false, .null, .int 1⟩
    let no := Expr.root .this default
    let unknown := Expr.root .block default
    let failing := Expr.field (.root .root default) "x" default
    eval ctx (.binary .and unknown no default) = .ok (.bool false) ∧
      eval ctx (.binary .and no unknown default) =
        eval ctx (.binary .and unknown no default) ∧
      eval ctx (.binary .or unknown no default) = .ok .null ∧
      eval ctx failing = typeError (.access "x" "int") ∧
      eval ctx (.binary .and no failing default) = .ok (.bool false) := by
  intro ctx no unknown failing
  obtain ⟨-, -, hk, -, -⟩ :=
    connective_laws ctx unknown no failing default default default default default
  obtain ⟨⟨hand, hcomm⟩, hor, -⟩ := hk none (some false) rfl rfl
  obtain ⟨-, -, -, hd, -⟩ :=
    connective_laws ctx no failing unknown default default default default default
  exact ⟨hand, hcomm, hor, rfl, hd rfl⟩

end RecordCheck.Eval
