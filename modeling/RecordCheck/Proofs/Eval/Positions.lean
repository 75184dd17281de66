import RecordCheck.Proofs.Eval.Operands

/-! Lists and strings by position. An index counts from the start or, if it is negative, from the
end; the first and the last item are those at the indexes 0 and -1. The positions of a string are
those of its characters, of however many bytes each is. -/

namespace RecordCheck.Eval

open Results

/-! ### Items at positions -/

section

variable {α β : Type} {items : List α} {i : Int64}

theorem itemAt_map (f : α → β) (items : List α) (i : Int64) :
    itemAt (items.map f) i = (itemAt items i).map f := by
  simp only [itemAt, List.length_map, List.getElem?_map]
  generalize (if i.toInt < 0 then (items.length : Int) + i.toInt else i.toInt) = position
  split
  · rfl
  · cases items[position.toNat]? <;> rfl

/-- Positions count from the start, or negative ones from the end. -/
theorem itemAt_eq_ok_iff {a : α} :
    itemAt items i = .ok a ↔
      ∃ n : Nat, items[n]? = some a ∧ (i.toInt = n ∨ i.toInt + items.length = n) := by
  simp only [itemAt]
  generalize hp : (if i.toInt < 0 then (items.length : Int) + i.toInt else i.toInt) = position
  constructor
  · intro h
    split at h
    · cases h
    · split at h
      next b hb =>
        cases h
        refine ⟨position.toNat, hb, ?_⟩
        split at hp <;> omega
      next => cases h
  · rintro ⟨n, hn, hi⟩
    have hlt := (List.getElem?_eq_some_iff.mp hn).1
    obtain rfl : position = n := by split at hp <;> omega
    rw [if_neg (by omega), Int.toNat_natCast, hn]

theorem mem_of_itemAt {a : α} (h : itemAt items i = .ok a) : a ∈ items := by
  obtain ⟨n, hn, -⟩ := itemAt_eq_ok_iff.mp h
  exact List.mem_of_getElem? hn

theorem exists_itemAt_iff :
    (∃ a, itemAt items i = .ok a) ↔ -(items.length : Int) ≤ i.toInt ∧ i.toInt < items.length := by
  simp only [itemAt_eq_ok_iff]
  constructor
  · rintro ⟨a, n, hn, hi⟩
    have hlt := (List.getElem?_eq_some_iff.mp hn).1
    omega
  · rintro ⟨hlow, hhigh⟩
    by_cases hneg : i.toInt < 0
    · have hlt : (i.toInt + items.length).toNat < items.length := by omega
      exact ⟨_, _, List.getElem?_eq_getElem hlt, .inr (by omega)⟩
    · have hlt : i.toInt.toNat < items.length := by omega
      exact ⟨_, _, List.getElem?_eq_getElem hlt, .inl (by omega)⟩

theorem itemAt_eq_error (h : ¬(-(items.length : Int) ≤ i.toInt ∧ i.toInt < items.length)) :
    itemAt items i = .error (.indexOutOfRange i items.length) := by
  simp only [itemAt]
  generalize hp : (if i.toInt < 0 then (items.length : Int) + i.toInt else i.toInt) = position
  split
  · rfl
  · split
    next a ha =>
      have hlt := (List.getElem?_eq_some_iff.mp ha).1
      split at hp <;> omega
    next => rfl

theorem itemAt_zero (items : List α) :
    itemAt items 0 = items.head?.elim (.error (.indexOutOfRange 0 items.length)) .ok := by
  cases items with
  | nil => rfl
  | cons a items => rfl

theorem itemAt_neg_one (items : List α) :
    itemAt items (-1) = items.getLast?.elim (.error (.indexOutOfRange (-1) items.length)) .ok := by
  cases h : items.getLast? with
  | none =>
    rw [List.getLast?_eq_none_iff.mp h]
    rfl
  | some a =>
    obtain ⟨front, rfl⟩ := List.getLast?_eq_some_iff.mp h
    refine itemAt_eq_ok_iff.mpr ⟨front.length, by simp, .inr ?_⟩
    have hone : (-1 : Int64).toInt = -1 := by decide
    rw [hone, List.length_append, List.length_singleton]
    omega

end

/-! ### Lists and strings -/

/-- A list with its items, or a string with its characters as strings. -/
inductive Sequence : Value → List Value → Prop where
  | list {items : List Value} : Sequence (.list items) items
  | string {s : String} : Sequence (.string s) (s.toList.map fun c => .string c.toString)

/-- The value that stands in a list after so many items, or in a string after so many characters. -/
inductive StandsAt : Value → Nat → Value → Prop where
  | item (before : List Value) (w : Value) (after : List Value) :
    StandsAt (.list (before ++ w :: after)) before.length w
  | character (before : String) (c : Char) (after : String) :
    StandsAt (.string (before ++ c.toString ++ after)) before.length (.string c.toString)

namespace Sequence

variable {v w : Value} {parts : List Value} {p : Nat}

theorem standsAt_iff (h : Sequence v parts) : StandsAt v p w ↔ parts[p]? = some w := by
  cases h with
  | list =>
    constructor
    · rintro ⟨before, _, after⟩
      simp
    · intro hp
      obtain ⟨before, after, rfl, rfl⟩ := exists_of_getElem? hp
      exact .item before w after
  | @string s =>
    rw [List.getElem?_map, Option.map_eq_some_iff]
    constructor
    · rintro ⟨⟩
      next before c after =>
        refine ⟨c, ?_, rfl⟩
        rw [String.toList_append, String.toList_append, ← String.length_toList]
        simp
    · rintro ⟨c, hc, rfl⟩
      obtain ⟨before, after, hs, rfl⟩ := exists_of_getElem? hc
      have he : s = String.ofList before ++ c.toString ++ String.ofList after := by
        rw [← String.toList_inj, hs]
        simp [String.toList_append]
      have hstands := StandsAt.character (String.ofList before) c (String.ofList after)
      rwa [← he, String.length_ofList] at hstands

theorem indexOf_eq (h : Sequence v parts) (i : Int64) : indexOf v (.int i) = itemAt parts i := by
  cases h with
  | list => rfl
  | @string s => exact (itemAt_map (fun c => Value.string c.toString) s.toList i).symm

/-- What is taken from an end may be taken before or after the items are turned into values. -/
theorem endOf_eq (h : Sequence v parts) (name : String)
    {pick : {α : Type} → List α → Option α}
    (hpick : ∀ {α β : Type} (f : α → β) (xs : List α), pick (xs.map f) = (pick xs).map f) :
    endOf name pick v = .ok ((pick parts).getD .null) := by
  cases h with
  | list => rfl
  | string =>
    rw [hpick]
    rfl

end Sequence

/-! ### Expressions -/

/-- What indexes show of a list or string `v` of length `n` that is the value of `x`, and how the
functions for its two ends, which go by the given names, agree with them. -/
structure Positions (ctx : Context) (x : Expr) (v : Value) (n : Nat)
    (firstName lastName : String) : Prop where
  index_iff : ∀ i y s, eval ctx y = .ok (.int i) →
    ((∃ w, eval ctx (.index x y s) = .ok w) ↔ -(n : Int) ≤ i.toInt ∧ i.toInt < n)
  /-- What stands at the position, counted from the end if the index is negative. -/
  index_eq_iff : ∀ i y s w, eval ctx y = .ok (.int i) →
    (eval ctx (.index x y s) = .ok w ↔
      ∃ p : Nat, StandsAt v p w ∧ (p : Int) = if i.toInt < 0 then n + i.toInt else i.toInt)
  index_error : ∀ i y s, eval ctx y = .ok (.int i) → ¬(-(n : Int) ≤ i.toInt ∧ i.toInt < n) →
    eval ctx (.index x y s) = .error (.indexOutOfRange i n)
  /-- Of an empty list or string the function gives null, while the index is out of range. -/
  first_iff : ∀ y s s', eval ctx y = .ok (.int 0) →
    (eval ctx (.call firstName [x] s) = eval ctx (.index x y s') ↔ 0 < n)
  last_iff : ∀ y s s', eval ctx y = .ok (.int (-1)) →
    (eval ctx (.call lastName [x] s) = eval ctx (.index x y s') ↔ 0 < n)

section

variable {ctx : Context} {x : Expr} {v : Value} {parts : List Value} {firstName lastName : String}

theorem eval_part {y : Expr} {i : Int64} (hv : Sequence v parts) (hx : eval ctx x = .ok v)
    (hy : eval ctx y = .ok (.int i)) (s : Span) :
    eval ctx (.index x y s) = itemAt parts i := by
  rw [eval_index hx hy, hv.indexOf_eq]

theorem eval_first (hv : Sequence v parts) (hfirst : Intrinsic.ofName? firstName = some .first)
    (hx : eval ctx x = .ok v) (s : Span) :
    eval ctx (.call firstName [x] s) = .ok (parts.head?.getD .null) := by
  rw [eval_call hfirst hx]
  exact hv.endOf_eq firstName fun _ _ => List.head?_map

theorem eval_last (hv : Sequence v parts) (hlast : Intrinsic.ofName? lastName = some .last)
    (hx : eval ctx x = .ok v) (s : Span) :
    eval ctx (.call lastName [x] s) = .ok (parts.getLast?.getD .null) := by
  rw [eval_call hlast hx]
  exact hv.endOf_eq lastName fun _ _ => List.getLast?_map

/-- An index into a list or string of length `n` leads to what stands at its position if it is at
least `-n` and less than `n`, and is out of range otherwise. The functions for the first and the last
item agree with the indexes 0 and -1 exactly where there is an item. -/
theorem positions_of_sequence (hv : Sequence v parts)
    (hfirst : Intrinsic.ofName? firstName = some .first)
    (hlast : Intrinsic.ofName? lastName = some .last) (hx : eval ctx x = .ok v) :
    Positions ctx x v parts.length firstName lastName where
  index_iff i y s hy := by
    rw [eval_part hv hx hy, exists_itemAt_iff]
  index_eq_iff i y s w hy := by
    rw [eval_part hv hx hy, itemAt_eq_ok_iff]
    refine exists_congr fun p => ?_
    rw [hv.standsAt_iff]
    refine and_congr_right fun hp => ?_
    have hlt := (List.getElem?_eq_some_iff.mp hp).1
    split <;> omega
  index_error i y s hy hi := by
    rw [eval_part hv hx hy, itemAt_eq_error hi]
  first_iff y s s' hy := by
    rw [eval_first hv hfirst hx, eval_part hv hx hy, itemAt_zero]
    cases parts <;> simp
  last_iff y s s' hy := by
    rw [eval_last hv hlast hx, eval_part hv hx hy, itemAt_neg_one]
    cases h : parts.getLast? with
    | none => simp [List.getLast?_eq_none_iff.mp h]
    | some w =>
      have hne : parts ≠ [] := by
        rintro rfl
        cases h
      simp [List.length_pos_iff.mpr hne]

end

/-- Characters of one, two, three and four bytes, and an index at either end of the 64-bit range. -/
theorem positions_of_text :
    let v := Value.string "xé漢😀"
    let ctx := Context.ofValue v
    let x : Expr := .root .this default
    let y (i : Int64) : Expr := .literal (.int i) default
    Sequence v [.string "x", .string "é", .string "漢", .string "😀"] ∧
      Intrinsic.ofName? "First" = some .first ∧ Intrinsic.ofName? "last" = some .last ∧
      eval ctx x = .ok v ∧ Positions ctx x v 4 "First" "last" ∧
      eval ctx (.index x (y 3) default) = .ok (.string "😀") ∧
      eval ctx (.index x (y (-3)) default) = .ok (.string "é") ∧
      eval ctx (.index x (y Int64.maxValue) default) =
        .error (.indexOutOfRange Int64.maxValue 4) ∧
      eval ctx (.index x (y Int64.minValue) default) =
        .error (.indexOutOfRange Int64.minValue 4) := by
  intro v ctx x y
  have hv : Sequence v [.string "x", .string "é", .string "漢", .string "😀"] := .string
  have hfirst : Intrinsic.ofName? "First" = some .first := by decide +kernel
  have hlast : Intrinsic.ofName? "last" = some .last := by decide +kernel
  have hx : eval ctx x = .ok v := rfl
  have h : Positions ctx x v 4 "First" "last" := positions_of_sequence hv hfirst hlast hx
  refine ⟨hv, hfirst, hlast, hx, h, ?_, ?_, ?_, ?_⟩
  · exact (h.index_eq_iff 3 (y 3) default _ rfl).mpr ⟨3, hv.standsAt_iff.mpr rfl, by decide⟩
  · exact (h.index_eq_iff (-3) (y (-3)) default _ rfl).mpr
      ⟨1, hv.standsAt_iff.mpr rfl, by decide⟩
  · exact h.index_error _ (y Int64.maxValue) default rfl (by decide)
  · exact h.index_error _ (y Int64.minValue) default rfl (by decide)

end RecordCheck.Eval
