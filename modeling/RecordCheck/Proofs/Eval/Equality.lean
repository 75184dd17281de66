import RecordCheck.Proofs.Eval.Comparisons
import RecordCheck.Proofs.Value.Equality

/-! Equality of values in expressions. It is loose equality, but that a member of an enumeration
also equals its variant as a string, and this holds of two values by themselves only: inside
containers a member and a string are never equal. -/

namespace RecordCheck.Eval

variable {x y : Value}

/-! ### Members and their variants -/

/-- One is a member of an enumeration, the other its variant as a string. -/
def Spells : Value → Value → Prop
  | .member _ variant, .string s => variant = s
  | .string s, .member _ variant => s = variant
  | _, _ => False

theorem equal_iff : equal x y = true ↔ x.looseEq y = true ∨ Spells x y := by
  unfold equal
  split
  next => simp [Spells, Value.looseEq, Value.alike]
  next => simp [Spells, Value.looseEq, Value.alike]
  next hx hy =>
    have hn : ¬ Spells x y := by
      unfold Spells
      split
      next => exact (hx _ _ _ rfl rfl).elim
      next => exact (hy _ _ _ rfl rfl).elim
      next => exact not_false
    simp [hn]

theorem not_spells_of_looseEq (h : x.looseEq y = true) : ¬ Spells x y := by
  cases x with
  | string s => cases y <;> first | exact not_false | cases h
  | member e a => cases y <;> first | exact not_false | cases h
  | _ => exact not_false

theorem looseEq_iff : x.looseEq y = true ↔ equal x y = true ∧ ¬ Spells x y := by
  rw [equal_iff]
  constructor
  · intro h
    exact ⟨.inl h, not_spells_of_looseEq h⟩
  · rintro ⟨h, hn⟩
    exact h.resolve_right hn

theorem equal_comm (x y : Value) : equal x y = equal y x := by
  rw [Bool.eq_iff_iff, equal_iff, equal_iff, Value.looseEq_comm]
  have hs : Spells x y ↔ Spells y x := by
    cases x <;> cases y <;> simp [Spells, eq_comm]
  rw [hs]

theorem equal_self_iff : equal x x = true ↔ x.NaNFree := by
  have hn : ¬ Spells x x := by cases x <;> exact not_false
  rw [equal_iff, or_iff_left hn]
  exact Value.alike_self_iff

/-- `x == y` is true. -/
def Equals (x y : Value) : Prop := compare .eq x y = .ok (.bool true)

theorem equals_iff : Equals x y ↔ equal x y = true := ok_bool_inj

/-- Equality always has a value, the same from either side, of which that of inequality is the
negation. A value equals itself exactly if no NaN stands inside, and so equals all that is identical
to it, with the same value or up to the signs of zeros. -/
theorem equality_laws (x y : Value) :
    (∃ b, compare .eq x y = .ok (.bool b) ∧ compare .eq y x = .ok (.bool b) ∧
      compare .ne x y = .ok (.bool !b)) ∧
    (Equals x x ↔ x.NaNFree) ∧
    (x.NaNFree → x = y ∨ x.strictEq y = true → Equals x y) := by
  refine ⟨⟨equal x y, rfl, ?_, rfl⟩, ?_, ?_⟩
  · rw [equal_comm x y]
    rfl
  · rw [equals_iff, equal_self_iff]
  · rintro hx (rfl | h)
    · exact equals_iff.mpr (equal_self_iff.mpr hx)
    · exact equals_iff.mpr (equal_iff.mpr (.inl (Value.looseEq_of_strictEq h)))

/-- The zeros of both signs are equal, also inside a list. -/
theorem equality_laws_of_zeros :
    let x := Value.list [.float (Double.zero false), .map [("a", .int 1)]]
    let y := Value.list [.float (Double.zero true), .map [("a", .int 1)]]
    x.NaNFree ∧ x.strictEq y = true ∧ Equals x y := by
  intro x y
  have hx : x.NaNFree := Value.alike_self_iff.mp (rfl : x.strictEq x = true)
  have hs : x.strictEq y = true := rfl
  exact ⟨hx, hs, (equality_laws x y).2.2 hx (.inr hs)⟩

/-! ### Containers -/

/-- Containers are equal if their parts are, and none of them is a member beside its variant. -/
theorem equals_iff_sameParts (hx : x.WellFormed) (hy : y.WellFormed) (hc : x.IsContainer) :
    Equals x y ↔ Value.SameParts (fun u v => Equals u v ∧ ¬ Spells u v) x y := by
  have hn : ¬ Spells x y := by
    cases x <;> first | exact not_false | exact hc.elim
  simp only [equals_iff, ← looseEq_iff]
  rw [equal_iff, or_iff_left hn]
  exact Value.alike_iff_sameParts hx hy hc

/-- Two containers of one shape are equal exactly if their parts are, position by position, key by
key or field by field, except where all of these are equal and one is a member of an enumeration
beside its variant as a string: such containers are not equal. -/
theorem equals_containers_iff (x y : Value) (hx : x.WellFormed) (hy : y.WellFormed)
    (hc : x.IsContainer) :
    (Equals x y ↔ Value.SameParts Equals x y) ↔
      (Value.SameParts Equals x y → Value.SameParts (fun u v => ¬ Spells u v) x y) := by
  rw [equals_iff_sameParts hx hy hc, Value.sameParts_and]
  tauto

/-- An integer inside an object equals the float that it is widened to, as it does by itself. -/
theorem equals_containers_of_widened :
    let x := Value.object "Order" [("status", .member "Status" "OPEN"), ("amount", .int 3)]
    let y := Value.object "Order"
      [("status", .member "Status" "OPEN"), ("amount", .float (Double.ofInt 3))]
    x.WellFormed ∧ y.WellFormed ∧ x.IsContainer ∧ Equals x y ∧ Value.SameParts Equals x y := by
  intro x y
  have hx : x.WellFormed := ⟨by decide, trivial, trivial, trivial⟩
  have hy : y.WellFormed := ⟨by decide, trivial, trivial, trivial⟩
  have heq : Equals x y := rfl
  have hn : Value.SameParts (fun u v => ¬ Spells u v) x y := by
    refine ⟨rfl, rfl, fun name u v hu hv => ?_⟩
    have hu := Fields.mem_of_find? hu
    have hv := Fields.mem_of_find? hv
    simp only [List.mem_cons, Prod.mk.injEq, List.not_mem_nil, or_false] at hu hv
    rcases hu with ⟨-, rfl⟩ | ⟨-, rfl⟩ <;> rcases hv with ⟨-, rfl⟩ | ⟨-, rfl⟩ <;> exact not_false
  have hiff := (equals_containers_iff x y hx hy trivial).mpr fun _ => hn
  exact ⟨hx, hy, trivial, heq, hiff.mp heq⟩

/-- A member equals its variant, but a list of the one does not equal a list of the other. -/
theorem exists_spelled_item :
    let x := Value.member "Status" "ACTIVE"
    let y := Value.string "ACTIVE"
    Equals x y ∧ Value.SameParts Equals (.list [x]) (.list [y]) ∧
      compare .eq (.list [x]) (.list [y]) = .ok (.bool false) ∧
      ¬ (Equals (.list [x]) (.list [y]) ↔ Value.SameParts Equals (.list [x]) (.list [y])) := by
  intro x y
  have heq : Equals x y := rfl
  have hparts : Value.SameParts Equals (.list [x]) (.list [y]) := by
    refine ⟨rfl, fun i u v hu hv => ?_⟩
    obtain rfl := List.mem_singleton.mp (List.mem_of_getElem? hu)
    obtain rfl := List.mem_singleton.mp (List.mem_of_getElem? hv)
    exact heq
  refine ⟨heq, hparts, rfl, fun h => ?_⟩
  cases equals_iff.mp (h.mpr hparts)

end RecordCheck.Eval
