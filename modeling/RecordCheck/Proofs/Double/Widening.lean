import Mathlib.Algebra.Order.Ring.Nat
import Mathlib.Tactic.Ring
import RecordCheck.Double.Basic

/-! Widening an integer to a double. A greater integer never becomes a smaller double, although
different integers can become one. -/

namespace RecordCheck.Double

/-! ### Rounding to an integer -/

section

variable {n m d : Nat}

theorem nearestEven_mul (k : Nat) (hd : 0 < d) : nearestEven (k * d) d = k := by
  simp [nearestEven, hd]

theorem div_le_nearestEven (n d : Nat) : n / d ≤ nearestEven n d := by
  unfold nearestEven
  split_ifs <;> omega

theorem nearestEven_le_div_succ (n d : Nat) : nearestEven n d ≤ n / d + 1 := by
  unfold nearestEven
  split_ifs <;> omega

theorem nearestEven_mono (h : n ≤ m) : nearestEven n d ≤ nearestEven m d := by
  rcases Nat.lt_or_eq_of_le (Nat.div_le_div_right (c := d) h) with hlt | heq
  · calc nearestEven n d
      _ ≤ n / d + 1 := nearestEven_le_div_succ n d
      _ ≤ m / d := hlt
      _ ≤ nearestEven m d := div_le_nearestEven m d
  · -- between the same two integers the remainders decide, and a tie goes one way for both
    have hmod : n % d ≤ m % d := by
      have hn := Nat.div_add_mod n d
      have hm := Nat.div_add_mod m d
      rw [heq] at hn
      omega
    unfold nearestEven
    rw [heq]
    split_ifs <;> omega

end

/-! ### The magnitude of an integer -/

/-- The leading 53 bits of a positive integer, rounded. -/
def significand (n : Nat) : Nat := nearestEven (n * 2 ^ (52 - n.log2)) (2 ^ (n.log2 - 52))

section

variable {n m : Nat}

/-- Shifts to the left and to the right that bring the leading bit to one place. -/
theorem two_pow_sub_mul (k : Nat) : 2 ^ 52 * 2 ^ (k - 52) = 2 ^ k * 2 ^ (52 - k) := by
  rw [← Nat.pow_add, ← Nat.pow_add]
  congr 1
  omega

theorem le_significand (hn : n ≠ 0) : 2 ^ 52 ≤ significand n := by
  rw [← nearestEven_mul (2 ^ 52) (Nat.two_pow_pos (n.log2 - 52)), two_pow_sub_mul]
  exact nearestEven_mono (Nat.mul_le_mul_right _ (Nat.log2_self_le hn))

theorem significand_le (n : Nat) : significand n ≤ 2 ^ 53 := by
  have hd := Nat.two_pow_pos (n.log2 - 52)
  have hlt : n ≤ 2 ^ n.log2 * 2 := by
    rw [← Nat.pow_succ]
    exact Nat.le_of_lt Nat.lt_log2_self
  have hle : n * 2 ^ (52 - n.log2) ≤ 2 ^ 53 * 2 ^ (n.log2 - 52) :=
    calc n * 2 ^ (52 - n.log2)
      _ ≤ 2 ^ n.log2 * 2 * 2 ^ (52 - n.log2) := Nat.mul_le_mul_right _ hlt
      _ = 2 * (2 ^ 52 * 2 ^ (n.log2 - 52)) := by rw [two_pow_sub_mul]; ring
      _ = 2 ^ 53 * 2 ^ (n.log2 - 52) := by ring
  exact (nearestEven_mono hle).trans_eq (nearestEven_mul _ hd)

/-- The exponent and the leading bits, which carry into it when they are rounded up. -/
theorem magnitudeOf_one (hn : n ≠ 0) :
    magnitudeOf n 1 = min ((n.log2 + 1022) * 2 ^ 52 + significand n) infinity := by
  have hl : leading n 1 = n.log2 := by
    have h1 : Nat.log2 1 = 0 := by decide
    have hle : 1 <<< n.log2 ≤ n := by
      rw [Nat.one_shiftLeft]
      exact Nat.log2_self_le hn
    simp [leading, h1, hle]
  have he : max (leading n 1) (-1022) = n.log2 := by rw [hl]; omega
  have hup : (52 - (n.log2 : Int)).toNat = 52 - n.log2 := by omega
  have hdown : ((n.log2 : Int) - 52).toNat = n.log2 - 52 := by omega
  have hexp : ((n.log2 : Int) + 1022).toNat = n.log2 + 1022 := by omega
  simp only [magnitudeOf, hn, if_false, he, hup, hdown, hexp, Nat.shiftLeft_eq, Nat.one_mul,
    significand]

theorem magnitudeOf_one_le (n : Nat) : magnitudeOf n 1 ≤ infinity := by
  by_cases hn : n = 0
  · simp [magnitudeOf, hn]
  · rw [magnitudeOf_one hn]
    exact Nat.min_le_right ..

/-- Within a binade the leading bits decide; a rounded significand does not pass the next one. -/
theorem magnitudeOf_one_mono (h : n ≤ m) : magnitudeOf n 1 ≤ magnitudeOf m 1 := by
  by_cases hn : n = 0
  · simp [magnitudeOf, hn]
  have hm : m ≠ 0 := by omega
  rw [magnitudeOf_one hn, magnitudeOf_one hm]
  refine min_le_min_right _ ?_
  have hlog : n.log2 ≤ m.log2 := (Nat.le_log2 hm).mpr ((Nat.log2_self_le hn).trans h)
  rcases Nat.lt_or_eq_of_le hlog with hlt | heq
  · have hlow := le_significand hm
    have hhigh := significand_le n
    omega
  · have hs : significand n ≤ significand m := by
      unfold significand
      rw [heq]
      exact nearestEven_mono (Nat.mul_le_mul_right _ h)
    omega

end

/-! ### Words -/

section

variable {negative : Bool} {m : Nat}

theorem toNat_ofMagnitude (hm : m ≤ infinity) :
    (ofMagnitude negative m).word.toNat = (if negative then 2 ^ 63 else 0) + m := by
  have hi : infinity < 2 ^ 63 := by decide
  have hs : (1 <<< 63 : Nat) = 2 ^ 63 := by decide
  simp only [ofMagnitude, UInt64.toNat_ofNat', hs]
  apply Nat.mod_eq_of_lt
  split <;> omega

theorem magnitude_ofMagnitude (hm : m ≤ infinity) : (ofMagnitude negative m).magnitude = m := by
  have hi : infinity < 2 ^ 63 := by decide
  have hs : (1 <<< 63 : Nat) = 2 ^ 63 := by decide
  simp only [magnitude, toNat_ofMagnitude hm, hs]
  split <;> omega

theorem isNegative_ofMagnitude (hm : m ≤ infinity) :
    (ofMagnitude negative m).isNegative = negative := by
  have hi : infinity < 2 ^ 63 := by decide
  have hs : (1 <<< 63 : Nat) = 2 ^ 63 := by decide
  simp only [isNegative, toNat_ofMagnitude hm, hs]
  cases negative with
  | true => simp
  | false => simpa using by omega

theorem isNaN_ofMagnitude (hm : m ≤ infinity) : (ofMagnitude negative m).isNaN = false := by
  simpa [isNaN, magnitude_ofMagnitude hm] using hm

theorem key_ofMagnitude (hm : m ≤ infinity) :
    (ofMagnitude negative m).key = if negative then -(m : Int) else m := by
  rw [key, isNegative_ofMagnitude hm, magnitude_ofMagnitude hm]

end

/-! ### Widened integers -/

theorem isNaN_ofInt (n : Int) : (ofInt n).isNaN = false :=
  isNaN_ofMagnitude (magnitudeOf_one_le n.natAbs)

theorem key_ofInt (n : Int) :
    (ofInt n).key = if n < 0 then -(magnitudeOf n.natAbs 1 : Int) else magnitudeOf n.natAbs 1 := by
  rw [ofInt, ofRatio, key_ofMagnitude (magnitudeOf_one_le n.natAbs)]
  simp only [decide_eq_true_eq]

theorem key_ofInt_mono {a b : Int} (h : a ≤ b) : (ofInt a).key ≤ (ofInt b).key := by
  rw [key_ofInt, key_ofInt]
  split
  next ha =>
    split
    next hb =>
      have hm : magnitudeOf b.natAbs 1 ≤ magnitudeOf a.natAbs 1 := magnitudeOf_one_mono (by omega)
      omega
    next hb => omega
  next ha =>
    have hm : magnitudeOf a.natAbs 1 ≤ magnitudeOf b.natAbs 1 := magnitudeOf_one_mono (by omega)
    rw [if_neg (by omega)]
    omega

/-- Two integers that no double tells apart. -/
example : ofInt (2 ^ 53) = ofInt (2 ^ 53 + 1) := by decide +kernel

end RecordCheck.Double
