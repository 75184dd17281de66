import Mathlib.Logic.ExistsUnique
import Mathlib.Order.Compare
import RecordCheck.Eval.Operators
import RecordCheck.Proofs.Value.Equality

/-! Equality and order of values in expressions. The two are defined apart, and agree on all values
that have an order, except for members of two enumerations that share their variant. -/

namespace RecordCheck

variable {o : Ordering}

/-! ### Equal in the order -/

theorem compareText_eq_eq_iff {a b : String} : compareText a b = .eq ↔ a = b := by
  unfold compareText compareOfLessAndEq
  by_cases h : a = b
  · subst h
    simp
  · by_cases hl : a < b <;> simp [h, hl]

namespace Double

variable {x y : Double}

theorem numEq_iff_of_compare? (h : x.compare? y = some o) : x.numEq y = true ↔ o = .eq := by
  unfold compare? at h
  split at h
  next => cases h
  next hn =>
    obtain ⟨hx, hy⟩ : x.isNaN = false ∧ y.isNaN = false := by simpa using hn
    obtain rfl : compare x.key y.key = o := Option.some.inj h
    simp [numEq, hx, hy]

end Double

namespace Value

variable {x y : Value}

theorem looseEq_iff_of_compare? (h : x.compare? y = some o) : x.looseEq y = true ↔ o = .eq := by
  cases x with
  | bool a =>
    cases y with
    | bool b =>
      obtain rfl : compare a b = o := Option.some.inj h
      exact beq_iff_eq.trans Std.compare_eq_iff_eq.symm
    | _ => cases h
  | int a =>
    cases y with
    | int b =>
      obtain rfl : compare a.toInt b.toInt = o := Option.some.inj h
      rw [Int.compare_eq_eq, Int64.toInt_inj]
      exact beq_iff_eq
    | float b => exact Double.numEq_iff_of_compare? h
    | _ => cases h
  | float a =>
    cases y with
    | int b =>
      change (Double.ofInt b.toInt).numEq a = true ↔ _
      rw [Double.numEq_comm]
      exact Double.numEq_iff_of_compare? h
    | float b => exact Double.numEq_iff_of_compare? h
    | _ => cases h
  | string a =>
    cases y with
    | string b =>
      obtain rfl : compareText a b = o := Option.some.inj h
      exact beq_iff_eq.trans compareText_eq_eq_iff.symm
    | _ => cases h
  | _ => cases y <;> cases h

end Value

namespace Eval

variable {x y : Value}

/-- Members of two enumerations that share their variant. -/
def Namesakes : Value → Value → Prop
  | .member d a, .member e b => d ≠ e ∧ a = b
  | _, _ => False

theorem equal_iff_of_text? {s t : String} (hx : x.text? = some s) (hy : y.text? = some t)
    (hn : ¬ Namesakes x y) : equal x y = true ↔ s = t := by
  cases x with
  | string a =>
    cases hx
    cases y with
    | string b => cases hy; exact beq_iff_eq
    | member e b => cases hy; exact beq_iff_eq
    | _ => cases hy
  | member d a =>
    cases hx
    cases y with
    | string b => cases hy; exact beq_iff_eq
    | member e b =>
      cases hy
      have hd (hab : s = t) : d = e := by
        by_contra hde
        exact hn ⟨hde, hab⟩
      change (d == e && s == t) = true ↔ _
      rw [Bool.and_eq_true, beq_iff_eq, beq_iff_eq]
      exact and_iff_right_of_imp hd
    | _ => cases hy
  | _ => cases hx

theorem equal_iff_of_order? (h : order? x y = some o) (hn : ¬ Namesakes x y) :
    equal x y = true ↔ o = .eq := by
  unfold order? at h
  split at h
  next s t hx hy =>
    obtain rfl : compareText s t = o := Option.some.inj h
    rw [equal_iff_of_text? hx hy hn, compareText_eq_eq_iff]
  next ht =>
    have he : equal x y = x.looseEq y := by
      unfold equal
      split
      next => exact (ht _ _ rfl rfl).elim
      next => exact (ht _ _ rfl rfl).elim
      next => rfl
    rw [he, Value.looseEq_iff_of_compare? h]

theorem order?_of_namesakes (h : Namesakes x y) : order? x y = some .eq ∧ equal x y = false := by
  cases x with
  | member d a =>
    cases y with
    | member e b =>
      obtain ⟨hde, rfl⟩ := h
      refine ⟨congrArg some (compareText_eq_eq_iff.mpr rfl), ?_⟩
      change (d == e && a == a) = false
      simp [hde]
    | _ => cases h
  | _ => cases h

/-- Neither value is null or a NaN. -/
structure Definite (x y : Value) : Prop where
  left_ne_null : x ≠ .null
  right_ne_null : y ≠ .null
  left_not_nan : isNaN x = false
  right_not_nan : isNaN y = false

theorem definite_iff :
    Definite x y ↔ (x.isNull || y.isNull) = false ∧ (isNaN x || isNaN y) = false := by
  have hnull (v : Value) : v.isNull = false ↔ v ≠ .null := by cases v <;> simp [Value.isNull]
  rw [Bool.or_eq_false_iff, Bool.or_eq_false_iff, hnull, hnull]
  constructor
  · intro h
    exact ⟨⟨h.left_ne_null, h.right_ne_null⟩, h.left_not_nan, h.right_not_nan⟩
  · rintro ⟨⟨hx, hy⟩, hx', hy'⟩
    exact ⟨hx, hy, hx', hy'⟩

theorem compare_eq_order? {op : CompareOp} (hop : op ≠ .eq ∧ op ≠ .ne) (x y : Value) :
    compare op x y =
      if x.isNull || y.isNull then .ok .null
      else if isNaN x || isNaN y then .ok (.bool false)
      else (order? x y).elim (typeError (.comparison op x.typeName y.typeName))
        fun o => .ok (.bool (holds op o)) := by
  cases op with
  | eq => exact absurd rfl hop.1
  | ne => exact absurd rfl hop.2
  | _ =>
    unfold compare
    cases order? x y <;> rfl

theorem Definite.compare_eq {op : CompareOp} (h : Definite x y) (hop : op ≠ .eq ∧ op ≠ .ne) :
    compare op x y = (order? x y).elim (typeError (.comparison op x.typeName y.typeName))
      fun o => .ok (.bool (holds op o)) := by
  obtain ⟨hnull, hnan⟩ := definite_iff.mp h
  rw [compare_eq_order? hop, hnull, hnan]
  rfl

theorem Definite.exists_order? (h : Definite x y) (hv : ∃ v, compare .lt x y = .ok v) :
    ∃ o, order? x y = some o := by
  obtain ⟨v, hv⟩ := hv
  rw [h.compare_eq (by decide)] at hv
  cases ho : order? x y with
  | none =>
    rw [ho] at hv
    cases hv
  | some o => exact ⟨o, rfl⟩

theorem ok_bool_inj {a b : Bool} : (.ok (.bool a) : Result Value) = .ok (.bool b) ↔ a = b := by
  simp

theorem Definite.compare_eq_true_iff (h : Definite x y) (ho : order? x y = some o)
    (hn : ¬ Namesakes x y) (op : CompareOp) :
    compare op x y = .ok (.bool true) ↔ holds op o = true := by
  have he := equal_iff_of_order? ho hn
  by_cases hop : op ≠ .eq ∧ op ≠ .ne
  · rw [h.compare_eq hop, ho]
    exact ok_bool_inj
  · cases op with
    | eq =>
      change Except.ok (Value.bool (equal x y)) = _ ↔ _
      rw [ok_bool_inj, he, holds, beq_iff_eq]
    | ne =>
      change Except.ok (Value.bool !(equal x y)) = _ ↔ _
      rw [ok_bool_inj, holds, bne_iff_ne, Bool.not_eq_true', ← Bool.not_eq_true, he]
    | _ => simp at hop

/-- Of less, equal and greater exactly one holds, whatever the order is. -/
theorem existsUnique_holds (o : Ordering) :
    ∃! op, (op = .lt ∨ op = .eq ∨ op = .gt) ∧ holds op o = true := by
  cases o with
  | lt => exact ⟨.lt, by decide, fun op h => by cases op <;> simp_all [holds]⟩
  | eq => exact ⟨.eq, by decide, fun op h => by cases op <;> simp_all [holds]⟩
  | gt => exact ⟨.gt, by decide, fun op h => by cases op <;> simp_all [holds]⟩

theorem holds_le_iff (o : Ordering) :
    holds .le o = true ↔ holds .lt o = true ∨ holds .eq o = true := by
  cases o <;> decide

theorem holds_ge_iff (o : Ordering) :
    holds .ge o = true ↔ holds .gt o = true ∨ holds .eq o = true := by
  cases o <;> decide

/-- Of two values that have an order, exactly one of less, equal and greater is true, and less or
equal and greater or equal say what they are called, except for members of two enumerations that
share their variant: these are neither less nor equal nor greater. -/
theorem compare_trichotomy_iff (x y : Value) (h : Definite x y)
    (hv : ∃ v, compare .lt x y = .ok v) :
    ((∃! op, (op = .lt ∨ op = .eq ∨ op = .gt) ∧ compare op x y = .ok (.bool true)) ∧
      (compare .le x y = .ok (.bool true) ↔
        compare .lt x y = .ok (.bool true) ∨ compare .eq x y = .ok (.bool true)) ∧
      (compare .ge x y = .ok (.bool true) ↔
        compare .gt x y = .ok (.bool true) ∨ compare .eq x y = .ok (.bool true))) ↔
      ¬ Namesakes x y := by
  obtain ⟨o, ho⟩ := h.exists_order? hv
  constructor
  · rintro ⟨⟨op, ⟨hop, htrue⟩, -⟩, -, -⟩ hn
    obtain ⟨heq, hequal⟩ := order?_of_namesakes hn
    rcases hop with rfl | rfl | rfl
    · rw [h.compare_eq (by decide), heq] at htrue
      exact absurd (ok_bool_inj.mp htrue) (by decide)
    · have htrue : equal x y = true := ok_bool_inj.mp htrue
      rw [hequal] at htrue
      cases htrue
    · rw [h.compare_eq (by decide), heq] at htrue
      exact absurd (ok_bool_inj.mp htrue) (by decide)
  · intro hn
    simp only [h.compare_eq_true_iff ho hn]
    exact ⟨existsUnique_holds o, holds_le_iff o, holds_ge_iff o⟩

/-- A member of an enumeration and a string have the order of their texts. -/
theorem compare_trichotomy_of_member :
    let x := Value.member "Status" "ACTIVE"
    let y := Value.string "PENDING"
    Definite x y ∧ compare .lt x y = .ok (.bool true) ∧ ¬ Namesakes x y ∧
      ∃! op, (op = .lt ∨ op = .eq ∨ op = .gt) ∧ compare op x y = .ok (.bool true) := by
  intro x y
  have h : Definite x y := ⟨nofun, nofun, rfl, rfl⟩
  have hlt : compare .lt x y = .ok (.bool true) := rfl
  have hn : ¬ Namesakes x y := nofun
  exact ⟨h, hlt, hn, ((compare_trichotomy_iff x y h ⟨_, hlt⟩).mpr hn).1⟩

/-- Two enumerations have a variant in common. Its members are less or equal to each other, but not
less, not equal and not greater. -/
theorem exists_namesakes_incomparable :
    let x := Value.member "Status" "OPEN"
    let y := Value.member "Door" "OPEN"
    Definite x y ∧ compare .lt x y = .ok (.bool false) ∧
      (¬ ∃! op, (op = .lt ∨ op = .eq ∨ op = .gt) ∧ compare op x y = .ok (.bool true)) ∧
      compare .le x y = .ok (.bool true) ∧ compare .eq x y = .ok (.bool false) := by
  intro x y
  refine ⟨⟨nofun, nofun, rfl, rfl⟩, rfl, ?_, rfl, rfl⟩
  rintro ⟨op, ⟨hop, htrue⟩, -⟩
  have hfalse : compare op x y = .ok (.bool false) := by
    rcases hop with rfl | rfl | rfl <;> rfl
  exact absurd (ok_bool_inj.mp (htrue.symm.trans hfalse)) (by decide)

end Eval

end RecordCheck
