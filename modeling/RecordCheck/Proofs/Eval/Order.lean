import RecordCheck.Proofs.Double.Widening
import RecordCheck.Proofs.Eval.Comparisons
import RecordCheck.Proofs.Eval.Connectives

/-! The order of values in expressions. Less is a strict partial order, although less or equal is
not transitive: integers that no double tells apart are all equal to one double. -/

namespace RecordCheck

/-! ### Orders with their sides exchanged -/

theorem compareText_swap (a b : String) : (compareText a b).swap = compareText b a := by
  change (compare a b).swap = compare b a
  exact Std.OrientedCmp.eq_swap.symm

theorem compareText_eq_lt_iff {a b : String} : compareText a b = .lt ↔ a < b :=
  compareOfLessAndEq_eq_lt

theorem Double.compare?_swap (x y : Double) : (x.compare? y).map .swap = y.compare? x := by
  unfold compare?
  rw [Bool.or_comm]
  split
  · rfl
  · exact congrArg some (Int.compare_swap x.key y.key)

theorem Double.compare?_eq_lt_iff {x y : Double} :
    x.compare? y = some .lt ↔ x.isNaN = false ∧ y.isNaN = false ∧ x.key < y.key := by
  simp [compare?, Int.compare_eq_lt, and_assoc]

theorem Value.compare?_swap (x y : Value) : (x.compare? y).map .swap = y.compare? x := by
  cases x with
  | bool a =>
    cases y with
    | bool b => exact congrArg some Std.OrientedCmp.eq_swap.symm
    | _ => rfl
  | int a =>
    cases y with
    | int b => exact congrArg some (Int.compare_swap a.toInt b.toInt)
    | float b => exact Double.compare?_swap _ b
    | _ => rfl
  | float a =>
    cases y with
    | int b => exact Double.compare?_swap a _
    | float b => exact Double.compare?_swap a b
    | _ => rfl
  | string a =>
    cases y with
    | string b => exact congrArg some (compareText_swap a b)
    | _ => rfl
  | _ => cases y <;> rfl

namespace Eval

variable {x y z : Value} {o : Ordering}

theorem order?_swap (x y : Value) : (order? x y).map .swap = order? y x := by
  unfold order?
  cases hx : x.text? with
  | none =>
    cases y.text? <;> exact Value.compare?_swap x y
  | some s =>
    cases hy : y.text? with
    | none => exact Value.compare?_swap x y
    | some t => exact congrArg some (compareText_swap s t)

/-! ### Less -/

/-- Why a value comes before another. Two numbers of which one is a float come in the order of
their widened values, which is strict for two integers only if widening keeps them apart. -/
inductive Below : Value → Value → Prop where
  | text {x y : Value} {s t : String} (hx : x.text? = some s) (hy : y.text? = some t)
    (h : s < t) : Below x y
  | truth : Below (.bool false) (.bool true)
  | exact {a b : Int64} (h : a.toInt < b.toInt) : Below (.int a) (.int b)
  | widened {x y : Value} {a b : Double} (hx : x.float? = some a) (hy : y.float? = some b)
    (ha : a.isNaN = false) (hb : b.isNaN = false) (h : a.key < b.key) : Below x y

/-- No text is a number. -/
theorem text?_of_float? {a : Double} (h : x.float? = some a) : x.text? = none := by
  cases x <;> first | rfl | cases h

theorem below_of_compare? (h : x.compare? y = some .lt) : Below x y := by
  cases x with
  | bool a =>
    cases y with
    | bool b =>
      cases a <;> cases b <;> first | exact .truth | cases h
    | _ => cases h
  | int a =>
    cases y with
    | int b => exact .exact (Int.compare_eq_lt.mp (Option.some.inj h))
    | float b =>
      obtain ⟨ha, hb, hlt⟩ := Double.compare?_eq_lt_iff.mp h
      exact .widened rfl rfl ha hb hlt
    | _ => cases h
  | float a =>
    cases y with
    | int b | float b =>
      obtain ⟨ha, hb, hlt⟩ := Double.compare?_eq_lt_iff.mp h
      exact .widened rfl rfl ha hb hlt
    | _ => cases h
  | string a =>
    cases y with
    | string b => exact .text rfl rfl (compareText_eq_lt_iff.mp (Option.some.inj h))
    | _ => cases h
  | _ => cases y <;> cases h

theorem compare?_of_widened {a b : Double} (hx : x.float? = some a) (hy : y.float? = some b)
    (ha : a.isNaN = false) (hb : b.isNaN = false) (h : a.key < b.key) :
    x.compare? y = some .lt := by
  have hlt : a.compare? b = some .lt := Double.compare?_eq_lt_iff.mpr ⟨ha, hb, h⟩
  cases x with
  | int m =>
    cases hx
    cases y with
    | int n =>
      cases hy
      have hmn : m.toInt < n.toInt := by
        by_contra hle
        exact absurd h (not_lt.mpr (Double.key_ofInt_mono (not_lt.mp hle)))
      exact congrArg some (Int.compare_eq_lt.mpr hmn)
    | float n => cases hy; exact hlt
    | _ => cases hy
  | float m =>
    cases hx
    cases y with
    | int n | float n => cases hy; exact hlt
    | _ => cases hy
  | _ => cases hx

theorem order?_eq_lt_iff : order? x y = some .lt ↔ Below x y := by
  constructor
  · intro h
    unfold order? at h
    split at h
    next s t hx hy => exact .text hx hy (compareText_eq_lt_iff.mp (Option.some.inj h))
    next => exact below_of_compare? h
  · intro h
    cases h with
    | text hx hy h =>
      simp only [order?, hx, hy]
      exact congrArg some (compareText_eq_lt_iff.mpr h)
    | truth => rfl
    | exact h => exact congrArg some (Int.compare_eq_lt.mpr h)
    | widened hx hy ha hb h =>
      simp only [order?, text?_of_float? hx]
      exact compare?_of_widened hx hy ha hb h

/-- Of three numbers the outer two are told apart by their widened values if one of the links is. -/
theorem Below.trans (hxy : Below x y) (hyz : Below y z) : Below x z := by
  cases hxy with
  | text hx hy h =>
    cases hyz with
    | text hy' hz h' =>
      cases hy.symm.trans hy'
      exact .text hx hz (String.lt_trans h h')
    | truth | exact _ => cases hy
    | widened hy' => cases (text?_of_float? hy').symm.trans hy
  | truth =>
    cases hyz with
    | text hy | widened hy => cases hy
  | exact h =>
    cases hyz with
    | text hy => cases hy
    | exact h' => exact .exact (h.trans h')
    | widened hy hz ha hb h' =>
      cases hy
      have hle := Double.key_ofInt_mono (Int.le_of_lt h)
      exact .widened rfl hz (Double.isNaN_ofInt _) hb (hle.trans_lt h')
  | widened hx hy ha hb h =>
    cases hyz with
    | text hy' => cases (text?_of_float? hy).symm.trans hy'
    | truth => cases hy
    | exact h' =>
      cases hy
      have hle := Double.key_ofInt_mono (Int.le_of_lt h')
      exact .widened hx rfl ha (Double.isNaN_ofInt _) (h.trans_le hle)
    | widened hy' hz _ hc h' =>
      cases hy.symm.trans hy'
      exact .widened hx hz ha hc (h.trans h')

/-- A strict order is the same from either side, so this holds of less and of greater. -/
theorem order?_trans (ho : o ≠ .eq) (hxy : order? x y = some o) (hyz : order? y z = some o) :
    order? x z = some o := by
  cases o with
  | lt => exact order?_eq_lt_iff.mpr ((order?_eq_lt_iff.mp hxy).trans (order?_eq_lt_iff.mp hyz))
  | eq => exact absurd rfl ho
  | gt =>
    have hyx : order? y x = some .lt := by rw [← order?_swap, hxy]; rfl
    have hzy : order? z y = some .lt := by rw [← order?_swap, hyz]; rfl
    have hzx := (order?_eq_lt_iff.mp hzy).trans (order?_eq_lt_iff.mp hyx)
    rw [← order?_swap, order?_eq_lt_iff.mpr hzx]
    rfl

theorem order?_self (h : order? x x = some o) : o = .eq := by
  have hs := order?_swap x x
  rw [h] at hs
  cases o <;> first | rfl | cases hs

/-! ### Comparisons -/

/-- The operator that says the same with its sides exchanged. -/
def mirror : CompareOp → CompareOp
  | .eq => .eq
  | .ne => .ne
  | .lt => .gt
  | .le => .ge
  | .gt => .lt
  | .ge => .le

theorem holds_mirror (op : CompareOp) (o : Ordering) : holds (mirror op) o.swap = holds op o := by
  cases op <;> cases o <;> rfl

/-- The texts of the errors differ, as they show the operator and its sides. -/
theorem sameValue_mirror {op : CompareOp} (hop : op ≠ .eq ∧ op ≠ .ne) (x y : Value) :
    SameValue (compare op x y) (compare (mirror op) y x) := by
  have hop' : mirror op ≠ .eq ∧ mirror op ≠ .ne := by cases op <;> simp_all [mirror]
  rw [compare_eq_order? hop, compare_eq_order? hop', Bool.or_comm, Bool.or_comm (isNaN x),
    ← order?_swap x y]
  split
  · rfl
  · split
    · rfl
    · cases order? x y with
      | none => rfl
      | some o => exact congrArg (fun b => some (Value.bool b)) (holds_mirror op o).symm

theorem sameValue_le_not_gt (h : Definite x y) :
    SameValue (compare .le x y) ((compare .gt x y).bind not) := by
  rw [h.compare_eq (by decide), h.compare_eq (by decide)]
  cases order? x y with
  | none => rfl
  | some o => cases o <;> rfl

/-- `x < y` is true. -/
def Less (x y : Value) : Prop := compare .lt x y = .ok (.bool true)

theorem less_iff : Less x y ↔ Definite x y ∧ order? x y = some .lt := by
  rw [Less, compare_eq_order? (by decide), definite_iff]
  cases x.isNull || y.isNull with
  | true => simp
  | false =>
    cases isNaN x || isNaN y with
    | true => simp
    | false =>
      cases order? x y with
      | none => simp [typeError]
      | some o => simp [holds]

theorem Less.trans (hxy : Less x y) (hyz : Less y z) : Less x z := by
  obtain ⟨hd, ho⟩ := less_iff.mp hxy
  obtain ⟨hd', ho'⟩ := less_iff.mp hyz
  refine less_iff.mpr ⟨?_, order?_trans nofun ho ho'⟩
  exact ⟨hd.left_ne_null, hd'.right_ne_null, hd.left_not_nan, hd'.right_not_nan⟩

theorem not_less_self (x : Value) : ¬ Less x x := by
  intro h
  cases order?_self (less_iff.mp h).2

/-- Less is irreflexive and transitive on all values, integers and floats side by side. Greater is
less from the other side, and so are less or equal and greater or equal, with a value on one side
exactly if there is one on the other. Of values that are neither null nor a NaN, less or equal is
the negation of greater. -/
theorem compare_order_laws :
    (∀ x, ¬ Less x x) ∧
    (∀ x y z, Less x y → Less y z → Less x z) ∧
    (∀ x y, SameValue (compare .lt x y) (compare .gt y x) ∧
      SameValue (compare .le x y) (compare .ge y x)) ∧
    ∀ x y, Definite x y → SameValue (compare .le x y) ((compare .gt x y).bind not) :=
  ⟨not_less_self, fun _ _ _ => Less.trans,
    fun x y => ⟨sameValue_mirror (by decide) x y, sameValue_mirror (by decide) x y⟩,
    fun _ _ => sameValue_le_not_gt⟩

/-- The first two integers have one double, and the third number is the next one. -/
theorem compare_order_laws_of_widened :
    let x := Value.int 9007199254740992
    let y := Value.int 9007199254740993
    let z := Value.float (Double.ofInt 9007199254740994)
    Less x y ∧ Less y z ∧ Less x z ∧ Definite x z ∧
      SameValue (compare .le x z) ((compare .gt x z).bind not) := by
  intro x y z
  have hxy : Less x y := rfl
  have hyz : Less y z := rfl
  have hd : Definite x z := ⟨nofun, nofun, rfl, rfl⟩
  obtain ⟨-, htrans, -, hnot⟩ := compare_order_laws
  exact ⟨hxy, hyz, htrans x y z hxy hyz, hd, hnot x z hd⟩

/-- Less or equal leads from an integer to the double of both and on to a smaller integer. -/
example :
    let x := Value.int 9007199254740993
    let y := Value.float (Double.ofInt 9007199254740992)
    let z := Value.int 9007199254740992
    compare .le x y = .ok (.bool true) ∧ compare .le y z = .ok (.bool true) ∧
      compare .le x z = .ok (.bool false) := ⟨rfl, rfl, rfl⟩

end Eval

end RecordCheck
