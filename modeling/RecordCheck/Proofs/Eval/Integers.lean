import Mathlib.Algebra.Order.Ring.Int
import RecordCheck.Proofs.Eval.Operands

/-! Arithmetic on integers is exact: a result that does not fit into 64 bits is an overflow. -/

namespace RecordCheck.Eval

open Results

/-! ### Exact outcomes -/

/-- The integers of 64 bits. -/
def InRange (n : Int) : Prop := -2 ^ 63 ≤ n ∧ n < 2 ^ 63

/-- The outcome is the integer `n` exactly if the condition holds, and otherwise an overflow. -/
structure ExactIf (fits : Prop) (n : Int) (outcome : Result Value) : Prop where
  eq_int_iff : (∃ i : Int64, i.toInt = n ∧ outcome = .ok (.int i)) ↔ fits
  overflow : ¬ fits → outcome = .error (.type .overflow)

/-- The outcome is the integer `n` exactly if it fits into 64 bits, and otherwise an overflow. -/
def Exact (n : Int) (outcome : Result Value) : Prop := ExactIf (InRange n) n outcome

theorem inRange_toInt (i : Int64) : InRange i.toInt := ⟨i.le_toInt, i.toInt_lt⟩

theorem fit_of_inRange {n : Int} (h : InRange n) : fit n = .ok (.int (Int64.ofInt n)) := by
  rw [fit, if_pos]
  rw [Int64.toInt_minValue, Int64.toInt_maxValue]
  exact ⟨h.1, Int.le_sub_one_of_lt h.2⟩

theorem fit_of_not_inRange {n : Int} (h : ¬ InRange n) : fit n = .error (.type .overflow) := by
  rw [fit, if_neg]
  · rfl
  · rw [Int64.toInt_minValue, Int64.toInt_maxValue]
    exact fun hn => h ⟨hn.1, Int.lt_of_le_sub_one hn.2⟩

theorem fit_toInt (i : Int64) : fit i.toInt = .ok (.int i) := by
  rw [fit_of_inRange (inRange_toInt i), Int64.ofInt_toInt]

theorem exact_fit (n : Int) : Exact n (fit n) where
  eq_int_iff := by
    constructor
    · rintro ⟨i, rfl, -⟩
      exact inRange_toInt i
    · intro h
      exact ⟨Int64.ofInt n, Int64.toInt_ofInt_of_le h.1 h.2, fit_of_inRange h⟩
  overflow := fit_of_not_inRange

/-! ### Quotients and remainders -/

/-- The quotient cut towards zero, and the remainder that it leaves. -/
structure Truncated (a b quotient remainder : Int) : Prop where
  quotient_eq : quotient = a.tdiv b
  restored : quotient * b + remainder = a
  small : remainder.natAbs < b.natAbs
  nonneg : 0 ≤ a → 0 ≤ remainder
  nonpos : a ≤ 0 → remainder ≤ 0

theorem truncated_tdiv (a : Int) {b : Int} (hb : b ≠ 0) : Truncated a b (a.tdiv b) (a.tmod b) where
  quotient_eq := rfl
  restored := a.tdiv_mul_add_tmod b
  small := by
    rw [Int.natAbs_tmod]
    exact Nat.mod_lt _ (Int.natAbs_pos.mpr hb)
  nonneg := Int.tmod_nonneg b
  nonpos := by
    intro ha
    have hneg : 0 ≤ (-a).tmod b := Int.tmod_nonneg b (Int.neg_nonneg_of_nonpos ha)
    rw [Int.neg_tmod] at hneg
    exact Int.nonpos_of_neg_nonneg hneg

section

variable {a b : Int64}

theorem toInt_eq_neg_one_iff : b.toInt = -1 ↔ b = -1 := by
  rw [← Int64.toInt_inj]
  rfl

theorem toInt_eq_zero_iff : b.toInt = 0 ↔ b = 0 := by
  rw [← Int64.toInt_inj]
  rfl

/-- The only quotient that does not fit is that of the least integer by minus one. -/
theorem inRange_tdiv_iff :
    InRange (a.toInt.tdiv b.toInt) ↔ ¬ (a = Int64.minValue ∧ b = -1) := by
  obtain ⟨hmin, hmax⟩ := inRange_toInt a
  constructor
  · rintro ⟨-, h⟩ ⟨rfl, rfl⟩
    exact absurd h (by decide)
  · intro h
    have hle := Int.natAbs_tdiv_le_natAbs a.toInt b.toInt
    by_contra hn
    -- the quotient is as large as the dividend is, so the divisor is one or minus one
    have hq : a.toInt.tdiv b.toInt = 2 ^ 63 := by
      unfold InRange at hn
      omega
    have ha : a.toInt = -2 ^ 63 := by omega
    have hdiv : 2 ^ 63 / b.toInt.natAbs = 2 ^ 63 := by
      have habs := Int.natAbs_tdiv a.toInt b.toInt
      rw [hq, ha] at habs
      exact habs.symm
    have hb : b.toInt.natAbs = 1 := by
      have hmul := Nat.div_mul_le_self (2 ^ 63) b.toInt.natAbs
      have hzero : b.toInt.natAbs ≠ 0 := by
        intro h0
        rw [h0, Nat.div_zero] at hdiv
        cases hdiv
      rw [hdiv] at hmul
      omega
    rcases Int.natAbs_eq_iff.mp hb with hone | hneg
    · rw [hone, ha] at hq
      exact absurd hq (by decide)
    · refine h ⟨Int64.toInt_inj.mp (ha.trans Int64.toInt_minValue.symm), ?_⟩
      exact toInt_eq_neg_one_iff.mp hneg

theorem inRange_tmod (hb : b ≠ 0) : InRange (a.toInt.tmod b.toInt) := by
  have hsmall := (truncated_tdiv a.toInt (mt toInt_eq_zero_iff.mp hb)).small
  obtain ⟨hmin, hmax⟩ := inRange_toInt b
  unfold InRange
  omega

/-- What the remainder leaves of the dividend lies between this and zero. -/
theorem inRange_tdiv_mul (hb : b ≠ 0) : InRange (a.toInt.tdiv b.toInt * b.toInt) := by
  have h := truncated_tdiv a.toInt (mt toInt_eq_zero_iff.mp hb)
  have hrem : (a.toInt.tmod b.toInt).natAbs ≤ a.toInt.natAbs := by
    rw [Int.natAbs_tmod]
    exact Nat.mod_le _ _
  have hrestored := h.restored
  have hnonneg := h.nonneg
  have hnonpos := h.nonpos
  obtain ⟨hmin, hmax⟩ := inRange_toInt a
  unfold InRange
  omega

/-- The outcomes of dividing one integer by another. -/
structure Divided (a b : Int64) (quotient remainder : Result Value) : Prop where
  quotient_zero_iff : quotient = .error .divisionByZero ↔ b = 0
  remainder_zero_iff : remainder = .error .divisionByZero ↔ b = 0
  quotient_overflow_iff :
    quotient = .error (.type .overflow) ↔ a = Int64.minValue ∧ b = -1
  remainder_overflow_iff :
    remainder = .error (.type .overflow) ↔ a = Int64.minValue ∧ b = -1
  truncated : b ≠ 0 → ¬ (a = Int64.minValue ∧ b = -1) → ∃ q r : Int64,
    quotient = .ok (.int q) ∧ remainder = .ok (.int r) ∧
      Truncated a.toInt b.toInt q.toInt r.toInt

theorem div_of_zero (a : Int64) : div (.int a) (.int 0) = .error .divisionByZero := rfl

theorem mod_of_zero (a : Int64) : mod (.int a) (.int 0) = .error .divisionByZero := rfl

theorem div_of_overflow :
    div (.int Int64.minValue) (.int (-1)) = .error (.type .overflow) := rfl

theorem mod_of_overflow :
    mod (.int Int64.minValue) (.int (-1)) = .error (.type .overflow) := rfl

theorem div_of_fits (hb : b ≠ 0) (h : ¬ (a = Int64.minValue ∧ b = -1)) :
    div (.int a) (.int b) = .ok (.int (Int64.ofInt (a.toInt.tdiv b.toInt))) := by
  change (if b.toInt = 0 then _ else fit (a.toInt.tdiv b.toInt)) = _
  rw [if_neg (mt toInt_eq_zero_iff.mp hb), fit_of_inRange (inRange_tdiv_iff.mpr h)]

theorem mod_of_fits (hb : b ≠ 0) (h : ¬ (a = Int64.minValue ∧ b = -1)) :
    mod (.int a) (.int b) = .ok (.int (Int64.ofInt (a.toInt.tmod b.toInt))) := by
  change (if b.toInt = 0 then _
    else (fit (a.toInt.tdiv b.toInt)).bind fun _ => fit (a.toInt.tmod b.toInt)) = _
  rw [if_neg (mt toInt_eq_zero_iff.mp hb), fit_of_inRange (inRange_tdiv_iff.mpr h)]
  exact fit_of_inRange (inRange_tmod hb)

/-- The divisor is zero, or the quotient overflows, or both outcomes are integers. -/
theorem divided (a b : Int64) : Divided a b (div (.int a) (.int b)) (mod (.int a) (.int b)) := by
  by_cases hb : b = 0
  · subst hb
    have hne : (0 : Int64) ≠ -1 := by decide
    rw [div_of_zero, mod_of_zero]
    constructor <;> simp [hne]
  · by_cases ho : a = Int64.minValue ∧ b = -1
    · obtain ⟨rfl, rfl⟩ := ho
      rw [div_of_overflow, mod_of_overflow]
      constructor <;> simp
    · rw [div_of_fits hb ho, mod_of_fits hb ho]
      constructor
      case truncated =>
        intro _ _
        obtain ⟨hqmin, hqmax⟩ := inRange_tdiv_iff.mpr ho
        obtain ⟨hrmin, hrmax⟩ := inRange_tmod (a := a) hb
        refine ⟨_, _, rfl, rfl, ?_⟩
        rw [Int64.toInt_ofInt_of_le hqmin hqmax, Int64.toInt_ofInt_of_le hrmin hrmax]
        exact truncated_tdiv a.toInt (mt toInt_eq_zero_iff.mp hb)
      all_goals simp [hb, ho]

end

/-! ### Totals -/

/-- The exact total of integers. -/
def total (items : List Int64) : Int := (items.map Int64.toInt).sum

/-- The sum of integers from a total on is exact if all totals on the way fit. -/
theorem exactIf_foldlM_sumStep (t : Int64) (items : List Int64) :
    ExactIf (∀ k, InRange (t.toInt + total (items.take k))) (t.toInt + total items)
      ((items.map Value.int).foldlM sumStep (.int t)) := by
  induction items generalizing t with
  | nil =>
    have hfits : ∀ k, InRange (t.toInt + total (([] : List Int64).take k)) := by
      intro k
      simpa [total] using inRange_toInt t
    exact ⟨iff_of_true ⟨t, by simp [total], rfl⟩ hfits, fun h => absurd hfits h⟩
  | cons b rest ih =>
    have hprefixes : (∀ k, InRange (t.toInt + total ((b :: rest).take k))) ↔
        ∀ k, InRange (t.toInt + b.toInt + total (rest.take k)) := by
      have hsucc (k : Nat) : t.toInt + total ((b :: rest).take (k + 1)) =
          t.toInt + b.toInt + total (rest.take k) := by
        simp [total, Int.add_assoc]
      constructor
      · intro h k
        rw [← hsucc]
        exact h (k + 1)
      · intro h k
        cases k with
        | zero => simpa [total] using inRange_toInt t
        | succ k =>
          rw [hsucc]
          exact h k
    have htotal : t.toInt + total (b :: rest) = t.toInt + b.toInt + total rest := by
      simp [total, Int.add_assoc]
    have hstep : ((b :: rest).map Value.int).foldlM sumStep (.int t) =
        fit (t.toInt + b.toInt) >>= (rest.map Value.int).foldlM sumStep := rfl
    rw [hprefixes, htotal, hstep]
    by_cases hr : InRange (t.toInt + b.toInt)
    · obtain ⟨u, hu, hfit⟩ := (exact_fit (t.toInt + b.toInt)).eq_int_iff.mpr hr
      rw [hfit, ok_bind, ← hu]
      exact ih u
    · have hnot : ¬ ∀ k, InRange (t.toInt + b.toInt + total (rest.take k)) := by
        intro h
        exact hr (by simpa [total] using h 0)
      rw [fit_of_not_inRange hr]
      refine ⟨iff_of_false ?_ hnot, fun _ => rfl⟩
      rintro ⟨i, -, hi⟩
      cases hi

theorem exactIf_sum (items : List Int64) :
    ExactIf (∀ k, InRange (total (items.take k))) (total items) (sum (items.map .int)) := by
  simpa [sum] using exactIf_foldlM_sumStep 0 items

/-! ### Expressions -/

/-- The outcomes of the operators on two expressions, of which one has the value `a` and the other
the value `b`. -/
structure Arithmetic (ctx : Context) (a b : Int64) (x y : Expr) : Prop where
  add : ∀ s, Exact (a.toInt + b.toInt) (eval ctx (.binary .add x y s))
  sub : ∀ s, Exact (a.toInt - b.toInt) (eval ctx (.binary .sub x y s))
  mul : ∀ s, Exact (a.toInt * b.toInt) (eval ctx (.binary .mul x y s))
  neg : ∀ s, Exact (-a.toInt) (eval ctx (.unary .neg x s))
  abs : ∀ name s, Intrinsic.ofName? name = some .abs →
    Exact a.toInt.natAbs (eval ctx (.call name [x] s))
  division : ∀ s s',
    Divided a b (eval ctx (.binary .div x y s)) (eval ctx (.binary .mod x y s'))

section

variable {ctx : Context} {a b : Int64} {x x' y y' y'' : Expr}

theorem arithmetic_of_ints (hx : eval ctx x = .ok (.int a)) (hy : eval ctx y = .ok (.int b)) :
    Arithmetic ctx a b x y where
  add s := by
    rw [eval_binary hx hy]
    exact exact_fit _
  sub s := by
    rw [eval_binary hx hy]
    exact exact_fit _
  mul s := by
    rw [eval_binary hx hy]
    exact exact_fit _
  neg s := by
    rw [eval_unary hx]
    exact exact_fit _
  abs name s hname := by
    rw [eval_call hname hx]
    exact exact_fit _
  division s s' := by
    rw [eval_binary hx hy, eval_binary hx hy]
    exact divided a b

/-- The product and the sum of a division's outcomes fit as well. -/
theorem eval_restored (hx : ∀ e ∈ [x, x'], eval ctx e = .ok (.int a))
    (hy : ∀ e ∈ [y, y', y''], eval ctx e = .ok (.int b)) (hb : b ≠ 0)
    (ho : ¬ (a = Int64.minValue ∧ b = -1)) (s s₁ s₂ s₃ : Span) :
    eval ctx (.binary .add (.binary .mul (.binary .div x y s) y' s₁) (.binary .mod x' y'' s₂) s₃) =
      .ok (.int a) := by
  obtain ⟨q, r, hq, hr, h⟩ := (divided a b).truncated hb ho
  have hdiv : eval ctx (.binary .div x y s) = .ok (.int q) := by
    rw [eval_binary (hx x (by simp)) (hy y (by simp))]
    exact hq
  have hmod : eval ctx (.binary .mod x' y'' s₂) = .ok (.int r) := by
    rw [eval_binary (hx x' (by simp)) (hy y'' (by simp))]
    exact hr
  have hfits : InRange (q.toInt * b.toInt) := h.quotient_eq ▸ inRange_tdiv_mul hb
  obtain ⟨p, hp, hfit⟩ := (exact_fit (q.toInt * b.toInt)).eq_int_iff.mpr hfits
  have hmul : eval ctx (.binary .mul (.binary .div x y s) y' s₁) = .ok (.int p) := by
    rw [eval_binary hdiv (hy y' (by simp))]
    exact hfit
  rw [eval_binary hmul hmod]
  change fit (p.toInt + r.toInt) = _
  rw [hp, h.restored, fit_toInt]

end

/-- Arithmetic on integers gives the exact integer if it fits into 64 bits, and an overflow
otherwise. Division fails by zero alone, and overflows for the least integer by minus one alone; else
the quotient is cut towards zero, and quotient and remainder give the dividend back. A sum is exact
if the totals of all first items fit. -/
theorem integer_arithmetic (ctx : Context) (a b : Int64) :
    (∀ x y, eval ctx x = .ok (.int a) → eval ctx y = .ok (.int b) → Arithmetic ctx a b x y) ∧
    (b ≠ 0 → ¬ (a = Int64.minValue ∧ b = -1) → ∀ x x' y y' y'' s s₁ s₂ s₃,
      (∀ e ∈ [x, x'], eval ctx e = .ok (.int a)) →
      (∀ e ∈ [y, y', y''], eval ctx e = .ok (.int b)) →
      eval ctx (.binary .add (.binary .mul (.binary .div x y s) y' s₁)
        (.binary .mod x' y'' s₂) s₃) = .ok (.int a)) ∧
    ∀ (items : List Int64) e name s, Intrinsic.ofName? name = some .sum →
      eval ctx e = .ok (.list (items.map .int)) →
      ExactIf (∀ k, InRange (total (items.take k))) (total items)
        (eval ctx (.call name [e] s)) := by
  refine ⟨fun x y hx hy => arithmetic_of_ints hx hy, ?_, ?_⟩
  · intro hb ho x x' y y' y'' s s₁ s₂ s₃ hx hy
    exact eval_restored hx hy hb ho s s₁ s₂ s₃
  · intro items e name s hname he
    rw [eval_call hname he]
    exact exactIf_sum items

/-- The least integer divided by ten, and three integers whose total fits though that of the first
two does not. -/
theorem integer_arithmetic_at_limits :
    let ctx := Eval.Context.ofValue (.list ([Int64.maxValue, 1, -1].map .int))
    let x : Expr := .literal (.int Int64.minValue) default
    let y : Expr := .literal (.int 10) default
    let items : Expr := .root .this default
    eval ctx x = .ok (.int Int64.minValue) ∧ eval ctx y = .ok (.int 10) ∧
      eval ctx (.unary .neg x default) = .error (.type .overflow) ∧
      eval ctx (.binary .add (.binary .mul (.binary .div x y default) y default)
        (.binary .mod x y default) default) = .ok (.int Int64.minValue) ∧
      Intrinsic.ofName? "sum" = some .sum ∧ total [Int64.maxValue, 1, -1] = Int64.maxValue.toInt ∧
      eval ctx (.call "sum" [items] default) = .error (.type .overflow) := by
  intro ctx x y items
  have hx : eval ctx x = .ok (.int Int64.minValue) := rfl
  have hy : eval ctx y = .ok (.int 10) := rfl
  have hsum : Intrinsic.ofName? "sum" = some .sum := by decide +kernel
  obtain ⟨hops, hrestored, htotal⟩ := integer_arithmetic ctx Int64.minValue 10
  refine ⟨hx, hy, ?_, ?_, hsum, rfl, ?_⟩
  · exact ((hops x y hx hy).neg default).overflow (by unfold InRange; decide)
  · exact hrestored (by decide) (by decide) x x y y y default default default default
      (by simp [hx]) (by simp [hy])
  · refine (htotal [Int64.maxValue, 1, -1] items "sum" default hsum rfl).overflow fun h => ?_
    exact absurd (h 2) (by unfold InRange; decide)

end RecordCheck.Eval
