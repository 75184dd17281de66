import RecordCheck.Eval.Call
import RecordCheck.Proofs.Eval.Order

/-! The least and the greatest of some values. The scan compares each item with the best so far
only; as less is transitive, no item that it passed by is better than the last one. -/

namespace RecordCheck.Eval

open Results

variable {x y best item next : Value} {items seen rest : List Value} {name : String}
  {keep : Ordering} {op : CompareOp}

/-! ### Values that have an order -/

/-- The kinds of values that are ordered among themselves. -/
inductive Scale where
  | truth
  | number
  | text

/-- The scale that a value stands on. Integers and floats share one, and so do strings and members
of enumerations; a NaN stands on none. -/
def scale? : Value → Option Scale
  | .bool _ => some .truth
  | .int _ => some .number
  | .float x => if x.isNaN then none else some .number
  | .string _ => some .text
  | .member _ _ => some .text
  | _ => none

theorem exists_compare?_iff {a b : Double} :
    (∃ o, a.compare? b = some o) ↔ a.isNaN = false ∧ b.isNaN = false := by
  simp [Double.compare?]

/-- Two values have an order if they stand on one scale. -/
theorem exists_order?_iff :
    (∃ o, order? x y = some o) ↔ ∃ s, scale? x = some s ∧ scale? y = some s := by
  -- both sides are tables over the pairs of kinds
  cases x <;> cases y <;>
    simp [order?, Value.text?, Value.compare?, scale?, exists_compare?_iff, Double.isNaN_ofInt]

theorem definite_of_scale? {s t : Scale} (hx : scale? x = some s) (hy : scale? y = some t) :
    Definite x y := by
  have hdef {v : Value} {s : Scale} (hv : scale? v = some s) : v ≠ .null ∧ isNaN v = false := by
    cases v <;> simp_all [scale?, isNaN]
  exact ⟨(hdef hx).1, (hdef hy).1, (hdef hx).2, (hdef hy).2⟩

/-! ### The scan -/

/-- One of the items seen, to which none of them stands in the order `keep`. -/
structure Best (keep : Ordering) (seen : List Value) (best : Value) : Prop where
  mem : best ∈ seen
  unbeaten : ∀ v ∈ seen, order? v best ≠ some keep

theorem better_eq_ok :
    better name keep best item = .ok next ↔
      ∃ o, order? item best = some o ∧ next = if o = keep then item else best := by
  unfold better
  cases order? item best with
  | none => simp [typeError]
  | some o => simp [eq_comm]

/-- An item that beats the best beats all that the best is not beaten by. -/
theorem Best.step (hk : keep ≠ .eq) (hb : Best keep seen best)
    (h : better name keep best item = .ok next) : Best keep (seen ++ [item]) next := by
  obtain ⟨o, ho, rfl⟩ := better_eq_ok.mp h
  split
  next hok =>
    subst hok
    refine ⟨by simp, fun v hv hbeat => ?_⟩
    rcases List.mem_append.mp hv with hv | hv
    · exact hb.unbeaten v hv (order?_trans hk hbeat ho)
    · obtain rfl := List.mem_singleton.mp hv
      exact hk (order?_self hbeat)
  next hok =>
    refine ⟨List.mem_append_left _ hb.mem, fun v hv hbeat => ?_⟩
    rcases List.mem_append.mp hv with hv | hv
    · exact hb.unbeaten v hv hbeat
    · obtain rfl := List.mem_singleton.mp hv
      rw [ho] at hbeat
      exact hok (Option.some.inj hbeat)

theorem Best.run (hk : keep ≠ .eq) (hb : Best keep seen best)
    (h : rest.foldlM (better name keep) best = .ok next) : Best keep (seen ++ rest) next := by
  induction rest generalizing seen best with
  | nil =>
    obtain rfl : best = next := pure_eq_ok.mp h
    simpa using hb
  | cons item rest ih =>
    rw [List.foldlM_cons, bind_eq_ok] at h
    obtain ⟨mid, hmid, h⟩ := h
    simpa using ih (hb.step hk hmid) h

theorem best_of_extreme (hk : keep ≠ .eq) (hne : items ≠ [])
    (h : extreme name keep items = .ok next) : Best keep items next := by
  cases items with
  | nil => exact absurd rfl hne
  | cons v rest =>
    have hv : Best keep [v] v := by
      refine ⟨by simp, fun u hu hbeat => ?_⟩
      obtain rfl := List.mem_singleton.mp hu
      exact hk (order?_self hbeat)
    exact hv.run hk h

/-! ### Success -/

section

variable {s : Scale}

theorem exists_better_iff (hs : scale? best = some s) :
    (∃ next, better name keep best item = .ok next) ↔ scale? item = some s := by
  simp only [better_eq_ok]
  constructor
  · rintro ⟨next, o, ho, hnext⟩
    obtain ⟨t, hi, hb⟩ := exists_order?_iff.mp ⟨o, ho⟩
    rwa [← hs, hb]
  · intro hi
    obtain ⟨o, ho⟩ := exists_order?_iff.mpr ⟨s, hi, hs⟩
    exact ⟨_, o, ho, rfl⟩

theorem scale?_of_better (hs : scale? best = some s) (h : better name keep best item = .ok next) :
    scale? next = some s := by
  have hi := (exists_better_iff hs).mp ⟨next, h⟩
  obtain ⟨o, -, rfl⟩ := better_eq_ok.mp h
  split
  · exact hi
  · exact hs

/-- The best item so far stays on the scale of the first. -/
theorem exists_foldlM_better_iff (hs : scale? best = some s) :
    (∃ v, rest.foldlM (better name keep) best = .ok v) ↔ ∀ item ∈ rest, scale? item = some s := by
  induction rest generalizing best with
  | nil => simp [pure, Except.pure]
  | cons item rest ih =>
    rw [List.forall_mem_cons, List.foldlM_cons]
    simp only [bind_eq_ok]
    constructor
    · rintro ⟨v, mid, hmid, hv⟩
      exact ⟨(exists_better_iff hs).mp ⟨mid, hmid⟩, (ih (scale?_of_better hs hmid)).mp ⟨v, hv⟩⟩
    · rintro ⟨hi, hrest⟩
      obtain ⟨mid, hmid⟩ := (exists_better_iff hs).mpr hi
      obtain ⟨v, hv⟩ := (ih (scale?_of_better hs hmid)).mpr hrest
      exact ⟨v, mid, hmid, hv⟩

end

/-- The first two items are compared, so no item can be left out. -/
theorem exists_extreme_iff (hl : 2 ≤ items.length) :
    (∃ v, extreme name keep items = .ok v) ↔ ∃ s, ∀ v ∈ items, scale? v = some s := by
  match items with
  | u :: w :: rest =>
    constructor
    · rintro ⟨v, hv⟩
      have hfirst := hv
      rw [extreme, List.foldlM_cons, bind_eq_ok] at hfirst
      obtain ⟨mid, hmid, -⟩ := hfirst
      obtain ⟨o, ho, -⟩ := better_eq_ok.mp hmid
      obtain ⟨s, -, hu⟩ := exists_order?_iff.mp ⟨o, ho⟩
      exact ⟨s, List.forall_mem_cons.mpr ⟨hu, (exists_foldlM_better_iff hu).mp ⟨v, hv⟩⟩⟩
    · rintro ⟨s, hall⟩
      obtain ⟨hu, hrest⟩ := List.forall_mem_cons.mp hall
      exact (exists_foldlM_better_iff hu).mpr hrest

/-! ### Calls -/

/-- What a call chooses from: the items of a list that is its only argument, or else its arguments,
of which there are two or more. -/
def candidates? : List Value → Option (List Value)
  | [] => none
  | [v] => v.list?
  | v :: w :: rest => some (v :: w :: rest)

/-- The outcome of choosing from candidates, where `op` is what would make one better than
another. -/
structure Chosen (op : CompareOp) (candidates : List Value) (outcome : Result Value) : Prop where
  of_none : candidates = [] → outcome = .ok .null
  of_one : ∀ v, candidates = [v] → outcome = .ok v
  succeeds_iff : 2 ≤ candidates.length →
    ((∃ v, outcome = .ok v) ↔ ∃ s, ∀ v ∈ candidates, scale? v = some s)
  unbeaten : 2 ≤ candidates.length → ∀ v, outcome = .ok v →
    v ∈ candidates ∧ ∀ u ∈ candidates, compare op u v = .ok (.bool false)

theorem chosen_extreme (hk : keep ≠ .eq) (hop : op ≠ .eq ∧ op ≠ .ne)
    (hh : ∀ o, holds op o = true → o = keep) (candidates : List Value) :
    Chosen op candidates (extreme name keep candidates) where
  of_none := by
    rintro rfl
    rfl
  of_one := by
    rintro v rfl
    rfl
  succeeds_iff := exists_extreme_iff
  unbeaten := by
    intro hl v hv
    have hb := best_of_extreme hk (List.ne_nil_of_length_pos (by omega)) hv
    obtain ⟨s, hs⟩ := (exists_extreme_iff hl).mp ⟨v, hv⟩
    refine ⟨hb.mem, fun u hu => ?_⟩
    have hd := definite_of_scale? (hs u hu) (hs v hb.mem)
    obtain ⟨o, ho⟩ := exists_order?_iff.mpr ⟨s, hs u hu, hs v hb.mem⟩
    have hne : o ≠ keep := fun he => hb.unbeaten u hu (he ▸ ho)
    have hfalse : holds op o = false := Bool.eq_false_iff.mpr fun h => hne (hh o h)
    rw [hd.compare_eq hop, ho, ← hfalse]
    rfl

theorem apply_of_candidates (name : String) {args candidates : List Value}
    (hc : candidates? args = some candidates) :
    apply name .min args = extreme name .lt candidates ∧
      apply name .max args = extreme name .gt candidates := by
  match args with
  | [] => cases hc
  | [v] =>
    cases v with
    | list items => cases hc; exact ⟨rfl, rfl⟩
    | _ => cases hc
  | v :: w :: rest => cases hc; exact ⟨rfl, rfl⟩

/-- The least of no candidates is null, and of one it is that one, whatever it is. Two or more have
a least one if they are all numbers but no NaN, or all strings and members of enumerations, or all
booleans, and it is one of them that none of them is less than. The same holds of the greatest. -/
theorem call_of_candidates (name : String) (args candidates : List Value)
    (hc : candidates? args = some candidates) :
    (Intrinsic.ofName? name = some .min → Chosen .lt candidates (call name args)) ∧
      (Intrinsic.ofName? name = some .max → Chosen .gt candidates (call name args)) := by
  obtain ⟨hmin, hmax⟩ := apply_of_candidates name hc
  constructor
  · intro hf
    simp only [call, hf, hmin]
    exact chosen_extreme (by decide) (by decide) (by decide) candidates
  · intro hf
    simp only [call, hf, hmax]
    exact chosen_extreme (by decide) (by decide) (by decide) candidates

/-- An integer that is widened to the first candidate is not greater than it, though it is greater
than another integer that is widened to it as well. -/
theorem call_of_candidates_of_widened :
    let x := Value.float (Double.ofInt 9007199254740992)
    let y := Value.int 9007199254740993
    let z := Value.int 9007199254740992
    candidates? [x, y, z] = some [x, y, z] ∧ Intrinsic.ofName? "Max" = some .max ∧
      call "Max" [x, y, z] = .ok x ∧ compare .gt y x = .ok (.bool false) ∧
      compare .gt y z = .ok (.bool true) := by
  intro x y z
  have hf : Intrinsic.ofName? "Max" = some .max := by decide +kernel
  have hok : call "Max" [x, y, z] = .ok x := by
    simp only [call, hf]
    rfl
  have hchosen := (call_of_candidates "Max" [x, y, z] [x, y, z] rfl).2 hf
  exact ⟨rfl, hf, hok, (hchosen.unbeaten (by decide) x hok).2 y (by simp), rfl⟩

end RecordCheck.Eval
