import RecordCheck.Proofs.Eval.Connectives

/-! A chain of comparisons has the value, or the error, of its links joined by `and`. -/

namespace RecordCheck.Eval

open Results

variable {ctx : Context}

/-! ### Links -/

theorem exists_compare (op : CompareOp) (x y : Value) :
    ∃ t : Result (Option Bool), compare op x y = t.map ofTruth := by
  unfold compare
  split
  · exact ⟨.ok (some _), rfl⟩
  · exact ⟨.ok (some _), rfl⟩
  · split
    · exact ⟨.ok none, rfl⟩
    · split
      · exact ⟨.ok (some _), rfl⟩
      · split
        · exact ⟨.ok (some _), rfl⟩
        · exact ⟨.error _, rfl⟩

/-- A single comparison is the operator on the values of its sides. -/
theorem eval_link {a b : Expr} {x y : Value} (ha : eval ctx a = .ok x) (hb : eval ctx b = .ok y)
    (op : CompareOp) (s : Span) : eval ctx (.compare a [(op, b)] s) = compare op x y := by
  obtain ⟨t, ht⟩ := exists_compare op x y
  simp only [eval, evalLinks, ha, hb, ok_bind, ht]
  rcases t with e | _ | _ | _ <;> rfl

/-- A chain goes on after a link unless the link is false or fails. -/
theorem exists_evalLinks (u : Option Bool) (left : Value) (links : List (CompareOp × Expr)) :
    ∃ t : Result (Option Bool), evalLinks ctx (ofTruth u) left links = t.map ofTruth := by
  induction links generalizing u left with
  | nil => exact ⟨.ok u, rfl⟩
  | cons link rest ih =>
    obtain ⟨op, e⟩ := link
    rw [evalLinks]
    cases eval ctx e with
    | error err => exact ⟨.error err, rfl⟩
    | ok right =>
      obtain ⟨t, ht⟩ := exists_compare op left right
      rw [ok_bind, ht]
      rcases t with err | _ | _ | _
      · exact ⟨.error err, rfl⟩
      · exact ih none right
      · exact ⟨.ok (some false), rfl⟩
      · exact ih u right

/-- After a null link a chain is null, unless a later link is false or fails. -/
theorem evalLinks_null (left : Value) (links : List (CompareOp × Expr)) :
    evalLinks ctx .null left links =
      (combine false (.ok none) (verdict .and (evalLinks ctx (.bool true) left links))).map
        ofTruth := by
  induction links generalizing left with
  | nil => rfl
  | cons link rest ih =>
    obtain ⟨op, e⟩ := link
    rw [evalLinks, evalLinks]
    cases eval ctx e with
    | error err => rfl
    | ok right =>
      obtain ⟨t, ht⟩ := exists_compare op left right
      rw [ok_bind, ok_bind, ht]
      rcases t with err | _ | _ | _
      · rfl
      · change evalLinks ctx .null right rest =
          (combine false (.ok none) (verdict .and (evalLinks ctx .null right rest))).map ofTruth
        rw [ih, verdict_map_ofTruth, ← combine_assoc]
        rfl
      · rfl
      · exact ih right

/-! ### Chains -/

/-- The operand between two parts of a chain is evaluated once in the chain, and twice in the
conjunction of the parts. -/
theorem eval_compare_cons (first : Expr) (op : CompareOp) (e : Expr)
    (rest : List (CompareOp × Expr)) (s s₁ s₂ s₃ : Span) :
    eval ctx (.compare first ((op, e) :: rest) s) =
      eval ctx (.binary .and (.compare first [(op, e)] s₁) (.compare e rest s₂) s₃) := by
  rw [eval_connective .and]
  simp only [eval, evalLinks]
  cases eval ctx first with
  | error err => rfl
  | ok left =>
    cases eval ctx e with
    | error err => rfl
    | ok right =>
      obtain ⟨t, ht⟩ := exists_compare op left right
      simp only [ok_bind, ht]
      rcases t with err | _ | _ | _
      · rfl
      · exact evalLinks_null right rest
      · rfl
      · obtain ⟨u, hu⟩ : ∃ u : Result (Option Bool),
            evalLinks ctx (.bool true) right rest = u.map ofTruth :=
          exists_evalLinks (some true) right rest
        change evalLinks ctx (.bool true) right rest =
          (combine false (.ok (some true))
            (verdict .and (evalLinks ctx (.bool true) right rest))).map ofTruth
        rw [hu, verdict_map_ofTruth]
        exact congrArg _ combine_undecided.symm

theorem eval_and_congr {a a' b b' : Expr} (ha : eval ctx a = eval ctx a')
    (hb : eval ctx b = eval ctx b') (s s' : Span) :
    eval ctx (.binary .and a b s) = eval ctx (.binary .and a' b' s') := by
  rw [eval_connective .and, eval_connective .and, ha, hb]

theorem eval_compare_append (first : Expr) (links : List (CompareOp × Expr)) (op : CompareOp)
    (e : Expr) (more : List (CompareOp × Expr)) (s s₁ s₂ s₃ : Span) :
    eval ctx (.compare first (links ++ (op, e) :: more) s) =
      eval ctx (.binary .and (.compare first (links ++ [(op, e)]) s₁) (.compare e more s₂) s₃) := by
  induction links generalizing first s s₁ s₃ with
  | nil => exact eval_compare_cons first op e more s s₁ s₂ s₃
  | cons link rest ih =>
    obtain ⟨op', e'⟩ := link
    calc eval ctx (.compare first ((op', e') :: (rest ++ (op, e) :: more)) s)
      _ = eval ctx (.binary .and (.compare first [(op', e')] s)
            (.compare e' (rest ++ (op, e) :: more) s) s) := eval_compare_cons ..
      _ = eval ctx (.binary .and (.compare first [(op', e')] s) (.binary .and
            (.compare e' (rest ++ [(op, e)]) s₁) (.compare e more s₂) s) s) :=
          eval_and_congr rfl (ih e' s s₁ s) s s
      _ = eval ctx (.binary .and (.binary .and (.compare first [(op', e')] s)
            (.compare e' (rest ++ [(op, e)]) s₁) s) (.compare e more s₂) s) :=
          (eval_regrouped .and ..).symm
      _ = eval ctx (.binary .and (.compare first ((op', e') :: (rest ++ [(op, e)])) s₁)
            (.compare e more s₂) s₃) :=
          eval_and_congr (eval_compare_cons ..).symm rfl s s₃

/-- The links of a chain as comparisons by themselves, joined by `and` in any grouping. The operand
between two links stands in both. -/
inductive Conjunction : Expr → List (CompareOp × Expr) → Expr → Prop where
  | link (first : Expr) (op : CompareOp) (e : Expr) (s : Span) :
    Conjunction first [(op, e)] (.compare first [(op, e)] s)
  | and {first middle left right : Expr} {op : CompareOp} {links more : List (CompareOp × Expr)}
    (hl : Conjunction first (links ++ [(op, middle)]) left)
    (hr : Conjunction middle more right) (s : Span) :
    Conjunction first (links ++ (op, middle) :: more) (.binary .and left right s)

theorem Conjunction.cons {e right : Expr} {more : List (CompareOp × Expr)}
    (hr : Conjunction e more right) (first : Expr) (op : CompareOp) (s t : Span) :
    Conjunction first ((op, e) :: more) (.binary .and (.compare first [(op, e)] s) right t) :=
  show Conjunction first ([] ++ (op, e) :: more) _ from .and (.link first op e s) hr t

theorem Conjunction.eval_eq {first e : Expr} {links : List (CompareOp × Expr)}
    (h : Conjunction first links e) (s : Span) :
    eval ctx (.compare first links s) = eval ctx e := by
  induction h generalizing s with
  | link first op e t => simp only [eval]
  | @and first middle left right op links more hl hr t ihl ihr =>
    rw [eval_compare_append first links op middle more s s s t]
    exact eval_and_congr (ihl s) (ihr s) t t

/-- Every chain has such a conjunction, for instance the one that is grouped to the right. -/
theorem exists_conjunction (first : Expr) {links : List (CompareOp × Expr)} (h : links ≠ []) :
    ∃ e, Conjunction first links e := by
  induction links generalizing first with
  | nil => exact absurd rfl h
  | cons link rest ih =>
    obtain ⟨op, e⟩ := link
    cases rest with
    | nil => exact ⟨_, .link first op e default⟩
    | cons next rest =>
      obtain ⟨right, hr⟩ := ih e (List.cons_ne_nil next rest)
      exact ⟨_, hr.cons first op default default⟩

/-- A chain of comparisons has the value, or the error, of the conjunction of its links, whichever
way that is grouped. A chain whose first links are false together is false, whatever follows. -/
theorem eval_compare_eq_conjunction (ctx : Context) (first : Expr)
    (links : List (CompareOp × Expr)) (h : links ≠ []) (s : Span) :
    (∃ e, Conjunction first links e) ∧
    (∀ e, Conjunction first links e → eval ctx (.compare first links s) = eval ctx e) ∧
    (eval ctx (.compare first links s) = .ok (.bool false) →
      ∀ more t, eval ctx (.compare first (links ++ more) t) = .ok (.bool false)) := by
  refine ⟨exists_conjunction first h, fun e he => he.eval_eq s, fun hfalse more t => ?_⟩
  rcases List.eq_nil_or_concat links with rfl | ⟨init, link, rfl⟩
  · exact absurd rfl h
  · obtain ⟨op, e⟩ := link
    rw [List.concat_eq_append] at hfalse ⊢
    rw [List.append_assoc, List.singleton_append, eval_compare_append first init op e more t s t t]
    exact eval_decided .and hfalse _ t

/-- The second link would fail, but the first one is false. -/
theorem eval_compare_eq_conjunction_of_false :
    let zero := Expr.literal (.int 0) default
    let this := Expr.root .this default
    let text := Expr.literal (.string "x") default
    let ctx := Context.ofValue (.int (-1))
    let below := Expr.compare zero [(.lt, this)] default
    let above := Expr.compare this [(.lt, text)] default
    eval ctx above = typeError (.comparison .lt "int" "string") ∧
      eval ctx (.compare zero [(.lt, this), (.lt, text)] default) =
        eval ctx (.binary .and below above default) ∧
      eval ctx (.compare zero [(.lt, this), (.lt, text)] default) = .ok (.bool false) := by
  intro zero this text ctx below above
  have hlink : eval ctx below = .ok (.bool false) := rfl
  obtain ⟨-, hand, -⟩ := eval_compare_eq_conjunction ctx zero [(.lt, this), (.lt, text)]
    (by simp) default
  obtain ⟨-, -, hfalse⟩ := eval_compare_eq_conjunction ctx zero [(.lt, this)]
    (by simp) default
  exact ⟨rfl, hand _ ((Conjunction.link this .lt text default).cons zero .lt default default),
    hfalse hlink [(.lt, text)] default⟩

end RecordCheck.Eval
