import Mathlib.Algebra.Order.Ring.Int
import Mathlib.Data.List.Induction
import Mathlib.Data.List.Pairwise
import RecordCheck.Proofs.Eval.Chains
import RecordCheck.Proofs.Eval.Equality
import RecordCheck.Proofs.Eval.Operands

/-! What `unique` keeps of a list. Equality is not transitive, so which of some items are kept
depends on their order; whether all are kept does not. -/

namespace RecordCheck.Eval

variable {items kept : List Value} {places : List Nat} {x : Value}

/-! ### One item more -/

theorem uniqueAfter_append (kept front rest : List Value) :
    uniqueAfter kept (front ++ rest) = uniqueAfter (uniqueAfter kept front).reverse rest := by
  induction front generalizing kept with
  | nil => simp [uniqueAfter]
  | cons v front ih =>
    simp only [List.cons_append, uniqueAfter]
    split
    · exact ih kept
    · exact ih (v :: kept)

theorem unique_concat (items : List Value) (x : Value) :
    unique (items ++ [x]) =
      if (unique items).any (equal · x) then unique items else unique items ++ [x] := by
  rw [unique, uniqueAfter_append]
  change uniqueAfter (unique items).reverse [x] = _
  simp only [uniqueAfter, List.reverse_reverse, List.reverse_cons]

/-- An item that equals one kept before it is left out. -/
theorem unique_concat_of_equals {y : Value} (hy : y ∈ unique items) (h : Equals y x) :
    unique (items ++ [x]) = unique items := by
  rw [unique_concat, if_pos]
  exact List.any_eq_true.mpr ⟨y, hy, equals_iff.mp h⟩

theorem unique_concat_of_new (h : ∀ y ∈ unique items, ¬ Equals y x) :
    unique (items ++ [x]) = unique items ++ [x] := by
  rw [unique_concat, if_neg]
  intro hany
  obtain ⟨y, hy, he⟩ := List.any_eq_true.mp hany
  exact h y hy (equals_iff.mpr he)

/-! ### What is kept -/

/-- The items kept of a list, with their places in it: no two of them are equal, and each item at
another place equals one that is kept before it. -/
structure Kept (items : List Value) (places : List Nat) (kept : List Value) : Prop where
  ascending : places.Pairwise (· < ·)
  found : places.map (items[·]?) = kept.map some
  distinct : kept.Pairwise fun x y => ¬ Equals x y
  covered : ∀ (i : Nat) x, items[i]? = some x → i ∉ places →
    ∃ j ∈ places, j < i ∧ ∃ y, items[j]? = some y ∧ Equals y x

namespace Kept

theorem lt_length (h : Kept items places kept) {i : Nat} (hi : i ∈ places) :
    i < items.length := by
  have hm : items[i]? ∈ kept.map some := h.found ▸ List.mem_map_of_mem hi
  obtain ⟨y, -, hy⟩ := List.mem_map.mp hm
  exact (List.getElem?_eq_some_iff.mp hy.symm).1

theorem exists_place (h : Kept items places kept) {y : Value} (hy : y ∈ kept) :
    ∃ i ∈ places, items[i]? = some y := by
  have hm : some y ∈ places.map (items[·]?) := h.found ▸ List.mem_map_of_mem hy
  exact List.mem_map.mp hm

theorem found_append (h : Kept items places kept) (rest : List Value) :
    places.map ((items ++ rest)[·]?) = kept.map some := by
  rw [← h.found]
  exact List.map_congr_left fun i hi => List.getElem?_append_left (h.lt_length hi)

theorem covered_append (h : Kept items places kept) {i : Nat} {y : Value} (hy : items[i]? = some y)
    (hi : i ∉ places) (rest : List Value) :
    ∃ j ∈ places, j < i ∧ ∃ z, (items ++ rest)[j]? = some z ∧ Equals z y := by
  obtain ⟨j, hj, hlt, z, hz, he⟩ := h.covered i y hy hi
  exact ⟨j, hj, hlt, z, (List.getElem?_append_left (h.lt_length hj)).trans hz, he⟩

/-- The scan passes by an item that equals one kept before. -/
theorem skip (h : Kept items places kept) {y : Value} (hy : y ∈ kept) (he : Equals y x) :
    Kept (items ++ [x]) places kept where
  ascending := h.ascending
  found := h.found_append [x]
  distinct := h.distinct
  covered := by
    intro i z hz hi
    rcases Results.getElem?_append_singleton_iff.mp hz with hz | ⟨rfl, rfl⟩
    · exact h.covered_append hz hi [x]
    · obtain ⟨j, hj, hfound⟩ := h.exists_place hy
      have hlt := h.lt_length hj
      exact ⟨j, hj, hlt, y, (List.getElem?_append_left hlt).trans hfound, he⟩

/-- The scan keeps an item that equals none of those kept before. -/
theorem keep (h : Kept items places kept) (hx : ∀ y ∈ kept, ¬ Equals y x) :
    Kept (items ++ [x]) (places ++ [items.length]) (kept ++ [x]) where
  ascending := by
    rw [List.pairwise_append]
    refine ⟨h.ascending, List.pairwise_singleton .., fun i hi j hj => ?_⟩
    rw [List.mem_singleton.mp hj]
    exact h.lt_length hi
  found := by simp [h.found_append [x]]
  distinct := by
    rw [List.pairwise_append]
    refine ⟨h.distinct, List.pairwise_singleton .., fun y hy z hz => ?_⟩
    rw [List.mem_singleton.mp hz]
    exact hx y hy
  covered := by
    intro i z hz hi
    rw [List.mem_append, List.mem_singleton, not_or] at hi
    rcases Results.getElem?_append_singleton_iff.mp hz with hz | ⟨rfl, -⟩
    · obtain ⟨j, hj, hcovered⟩ := h.covered_append hz hi.1 [x]
      exact ⟨j, List.mem_append_left _ hj, hcovered⟩
    · exact absurd rfl hi.2

end Kept

theorem exists_kept_unique (items : List Value) : ∃ places, Kept items places (unique items) := by
  induction items using List.reverseRecOn with
  | nil => exact ⟨[], .nil, rfl, .nil, by simp⟩
  | append_singleton items x ih =>
    obtain ⟨places, h⟩ := ih
    by_cases hx : ∃ y ∈ unique items, Equals y x
    · obtain ⟨y, hy, he⟩ := hx
      rw [unique_concat_of_equals hy he]
      exact ⟨places, h.skip hy he⟩
    · have hnew : ∀ y ∈ unique items, ¬ Equals y x := fun y hy he => hx ⟨y, hy, he⟩
      rw [unique_concat_of_new hnew]
      exact ⟨places ++ [items.length], h.keep hnew⟩

theorem unique_sublist (items : List Value) : (unique items).Sublist items := by
  induction items using List.reverseRecOn with
  | nil => exact .slnil
  | append_singleton items x ih =>
    rw [unique_concat]
    split
    · exact ih.trans (List.sublist_append_left items [x])
    · exact ih.append (.refl [x])

/-! ### Lists without equal items -/

/-- No two items are equal. -/
def AllDistinct (items : List Value) : Prop :=
  ∀ i j : Fin items.length, i < j → ¬ Equals (items.get i) (items.get j)

theorem allDistinct_iff : AllDistinct items ↔ items.Pairwise fun x y => ¬ Equals x y := by
  rw [AllDistinct, List.pairwise_iff_get]

/-- As equality is symmetric, the order of the items does not matter. -/
theorem allDistinct_perm {other : List Value} (h : other.Perm items) :
    AllDistinct other ↔ AllDistinct items := by
  rw [allDistinct_iff, allDistinct_iff]
  refine h.pairwise_iff fun {x y} hxy hyx => hxy ?_
  rwa [equals_iff, equal_comm, ← equals_iff]

theorem allDistinct_unique (items : List Value) : AllDistinct (unique items) := by
  obtain ⟨places, h⟩ := exists_kept_unique items
  exact allDistinct_iff.mpr h.distinct

theorem unique_eq_self (h : AllDistinct items) : unique items = items := by
  rw [allDistinct_iff] at h
  induction items using List.reverseRecOn with
  | nil => rfl
  | append_singleton items x ih =>
    obtain ⟨hitems, -, hx⟩ := List.pairwise_append.mp h
    have hself := ih hitems
    have hnew : ∀ y ∈ unique items, ¬ Equals y x := by
      rw [hself]
      exact fun y hy => hx y hy x (List.mem_singleton_self x)
    rw [unique_concat_of_new hnew, hself]

theorem length_unique_eq_iff : (unique items).length = items.length ↔ AllDistinct items := by
  constructor
  · intro h
    rw [← (unique_sublist items).eq_of_length h]
    exact allDistinct_unique items
  · intro h
    rw [unique_eq_self h]

/-! ### Calls -/

theorem call_unique {name : String} (h : Intrinsic.ofName? name = some .unique)
    (items : List Value) : call name [.list items] = .ok (.list (unique items)) := by
  simp only [call, h]
  rfl

/-- An expression `e|unique|length == e|length` in which `e` has the list for its value. -/
inductive UniquenessTest (ctx : Context) (items : List Value) : Expr → Prop where
  | intro {e e' : Expr} {uniqueName lengthName lengthName' : String} (s s₁ s₂ s₃ : Span)
      (hu : Intrinsic.ofName? uniqueName = some .unique)
      (hl : Intrinsic.ofName? lengthName = some .length)
      (hl' : Intrinsic.ofName? lengthName' = some .length)
      (he : eval ctx e = .ok (.list items)) (he' : eval ctx e' = .ok (.list items)) :
      UniquenessTest ctx items
        (.compare (.call lengthName [.call uniqueName [e] s₁] s₂)
          [(.eq, .call lengthName' [e'] s₃)] s)

theorem ofNat_inj_of_lt {m n : Nat} (hm : m < 2 ^ 64) (hn : n < 2 ^ 64) :
    Int64.ofNat m = Int64.ofNat n ↔ m = n := by
  constructor
  · intro h
    have hbits : BitVec.ofNat 64 m = BitVec.ofNat 64 n := congrArg Int64.toBitVec h
    have hmod := congrArg BitVec.toNat hbits
    rwa [BitVec.toNat_ofNat, BitVec.toNat_ofNat, Nat.mod_eq_of_lt hm, Nat.mod_eq_of_lt hn] at hmod
  · rintro rfl
    rfl

theorem UniquenessTest.eval_eq {ctx : Context} {test : Expr} (h : UniquenessTest ctx items test)
    (hn : items.length < 2 ^ 64) :
    ∃ b, eval ctx test = .ok (.bool b) ∧ (b = true ↔ AllDistinct items) := by
  obtain ⟨s, s₁, s₂, s₃, hu, hl, hl', he, he'⟩ := h
  have hunique := eval_call hu he s₁
  have hleft := eval_call hl hunique s₂
  have hright := eval_call hl' he' s₃
  refine ⟨_, eval_link hleft hright .eq s, ?_⟩
  have hlt : (unique items).length < 2 ^ 64 :=
    Nat.lt_of_le_of_lt (unique_sublist items).length_le hn
  rw [← length_unique_eq_iff, ← ofNat_inj_of_lt hlt hn]
  exact beq_iff_eq

/-- A member of an enumeration equals its variant, and so does one of another enumeration with that
variant, but the two members are not equal. -/
theorem not_equals_trans : ∃ x y z, Equals x y ∧ Equals y z ∧ ¬ Equals x z := by
  refine ⟨.member "Status" "OPEN", .string "OPEN", .member "Door" "OPEN", rfl, rfl, ?_⟩
  rw [equals_iff]
  decide

/-- What `unique` keeps is a subsequence without equal items, and each item left out equals one that
is kept before it; so it keeps all of what it gives. A list has as many items as are kept of it
exactly if no two are equal, in whichever order they come, though equality is not transitive. -/
theorem unique_laws (items : List Value) :
    (∀ name, Intrinsic.ofName? name = some .unique → ∃ kept places,
      call name [.list items] = .ok (.list kept) ∧ kept.Sublist items ∧ Kept items places kept ∧
        call name [.list kept] = .ok (.list kept)) ∧
    (items.length < 2 ^ 64 → ∀ ctx test, UniquenessTest ctx items test →
      (∃ b, eval ctx test = .ok (.bool b) ∧ (b = true ↔ AllDistinct items)) ∧
      ∀ other ctx' test', other.Perm items → UniquenessTest ctx' other test' →
        eval ctx' test' = eval ctx test) ∧
    ∃ x y z, Equals x y ∧ Equals y z ∧ ¬ Equals x z := by
  refine ⟨?_, ?_, not_equals_trans⟩
  · intro name hname
    obtain ⟨places, h⟩ := exists_kept_unique items
    refine ⟨unique items, places, call_unique hname items, unique_sublist items, h, ?_⟩
    rw [call_unique hname, unique_eq_self (allDistinct_unique items)]
  · intro hn ctx test htest
    obtain ⟨b, hb, hiff⟩ := htest.eval_eq hn
    refine ⟨⟨b, hb, hiff⟩, fun other ctx' test' hperm htest' => ?_⟩
    obtain ⟨b', hb', hiff'⟩ := htest'.eval_eq (hperm.length_eq ▸ hn)
    have hsame : b' = b := by rw [Bool.eq_iff_iff, hiff, hiff', allDistinct_perm hperm]
    rw [hb, hb', hsame]

/-- Two members with one variant, and that variant as a string. Two of the three are kept, or one,
depending on the order, but in no order all. -/
theorem unique_laws_of_namesakes :
    let items := [Value.member "Status" "OPEN", .string "OPEN", .member "Door" "OPEN"]
    let other := [Value.string "OPEN", .member "Status" "OPEN", .member "Door" "OPEN"]
    let this : Expr := .root .this default
    let test : Expr := .compare (.call "length" [.call "Unique" [this] default] default)
      [(.eq, .call "len" [this] default)] default
    Intrinsic.ofName? "Unique" = some .unique ∧ items.length < 2 ^ 64 ∧ other.Perm items ∧
      UniquenessTest (.ofValue (.list items)) items test ∧
      UniquenessTest (.ofValue (.list other)) other test ∧
      (∃ places, Kept items places [.member "Status" "OPEN", .member "Door" "OPEN"]) ∧
      (∃ places, Kept other places [.string "OPEN"]) ∧
      eval (.ofValue (.list items)) test = .ok (.bool false) ∧
      eval (.ofValue (.list other)) test = .ok (.bool false) := by
  intro items other this test
  have hu : Intrinsic.ofName? "Unique" = some .unique := by decide +kernel
  have hl : Intrinsic.ofName? "length" = some .length := by decide +kernel
  have hl' : Intrinsic.ofName? "len" = some .length := by decide +kernel
  have hperm : other.Perm items := List.Perm.swap ..
  have htest (vs : List Value) : UniquenessTest (.ofValue (.list vs)) vs test :=
    .intro _ _ _ _ hu hl hl' rfl rfl
  have hkept (vs : List Value) : ∃ places, Kept vs places (unique vs) := by
    obtain ⟨kept, places, hcall, -, h, -⟩ := (unique_laws vs).1 "Unique" hu
    cases (call_unique hu vs).symm.trans hcall
    exact ⟨places, h⟩
  have hlt : items.length < 2 ^ 64 := by decide
  have hlaws := (unique_laws items).2.1 hlt _ test (htest items)
  have hfalse : eval (.ofValue (.list items)) test = .ok (.bool false) := by
    obtain ⟨b, hb, hiff⟩ := hlaws.1
    cases b with
    | false => exact hb
    | true => exact absurd rfl (hiff.mp rfl 0 1 (by decide))
  exact ⟨hu, hlt, hperm, htest items, htest other, hkept items, hkept other, hfalse,
    (hlaws.2 other _ test hperm (htest other)).trans hfalse⟩

end RecordCheck.Eval
