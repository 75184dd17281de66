import Mathlib.Data.List.Lex
import RecordCheck.Proofs.Schema.Built
import RecordCheck.Proofs.Schema.ClosedWalks

/-! The order in which the fields of a class are evaluated is the first, in the order of lists, of
all that respect the dependencies. Where there is none, the names along a closed walk are
reported. -/

namespace RecordCheck

namespace Dependencies

variable {deps : List (List Nat)} {o o' : List Nat}

/-! ### The first order -/

theorem Respects.ready {before after : List Nat} {i : Nat}
    (h : Respects deps (before ++ i :: after)) : Ready deps before i := by
  have hnodup := h.perm.nodup_iff.mpr List.nodup_range
  refine ⟨List.mem_range.mp (h.perm.mem_iff.mp (by simp)), fun hm => ?_, h.before rfl⟩
  exact List.disjoint_of_nodup_append hnodup hm (List.mem_cons_self ..)

/-- After any initial part that two orders share, the one goes on with the least index that can
stand there, so it does not come after the other. -/
theorem LeastFirst.le_of_append {before rest rest' : List Nat}
    (h : LeastFirst deps (before ++ rest)) (h' : Respects deps (before ++ rest'))
    (hl : rest.length = rest'.length) : rest ≤ rest' := by
  induction rest generalizing before rest' with
  | nil =>
    rw [List.length_eq_zero_iff.mp hl.symm]
  | cons i rest ih =>
    cases rest' with
    | nil => cases hl
    | cons j rest' =>
      have hle : i ≤ j := (h before i rest rfl).2 h'.ready
      rcases Nat.lt_or_eq_of_le hle with hlt | rfl
      · exact le_of_lt (List.Lex.rel hlt)
      · have hmid (xs : List Nat) : before ++ [i] ++ xs = before ++ i :: xs := by simp
        rw [← hmid] at h h'
        exact List.cons_le_cons i (ih h h' (Nat.succ.inj hl))

theorem LeastFirst.le (h : LeastFirst deps o) (hr : Respects deps o) (hr' : Respects deps o') :
    o ≤ o' := by
  have hl : o.length = o'.length := hr.perm.length_eq.trans hr'.perm.length_eq.symm
  exact LeastFirst.le_of_append (show LeastFirst deps ([] ++ o) from h) hr' hl

theorem isLeast_of_order (h : order deps = .ok o) : IsLeast {o | Respects deps o} o :=
  ⟨respects_of_order h, fun _ hr => (leastFirst_of_order h).le (respects_of_order h) hr⟩

/-! ### The given order -/

/-- Dependencies between indexes, none of which waits for itself. -/
structure Proper (deps : List (List Nat)) : Prop where
  lt : ∀ i, ∀ d ∈ waitsFor deps i, d < deps.length
  irrefl : ∀ i, i ∉ waitsFor deps i

theorem Proper.of_forall_lt
    (h : ∀ i < deps.length, ∀ d ∈ waitsFor deps i, d < deps.length ∧ d ≠ i) : Proper deps := by
  have hlt {i d : Nat} (hd : d ∈ waitsFor deps i) : i < deps.length := Waits.lt_length hd
  exact ⟨fun i d hd => (h i (hlt hd) d hd).1, fun i hi => (h i (hlt hi) i hi).2 rfl⟩

theorem range_eq_append {before after : List Nat} {i n : Nat}
    (h : List.range n = before ++ i :: after) : i < n ∧ before = List.range i := by
  have hi : (List.range n)[before.length]? = some i := by
    rw [h]
    simp
  obtain ⟨hlt, hi⟩ := List.getElem?_eq_some_iff.mp hi
  rw [List.length_range] at hlt
  rw [List.getElem_range] at hi
  subst hi
  refine ⟨hlt, ?_⟩
  have ht := congrArg (List.take before.length) h
  rw [List.take_range, Nat.min_eq_left (Nat.le_of_lt hlt), List.take_left] at ht
  exact ht.symm

theorem respects_range (h : ∀ i, ∀ d ∈ waitsFor deps i, d < i) :
    Respects deps (List.range deps.length) := by
  refine ⟨.refl _, fun hs d hd => ?_⟩
  obtain ⟨-, rfl⟩ := range_eq_append hs
  exact List.mem_range.mpr (h _ d hd)

theorem leastFirst_range (h : ∀ i, ∀ d ∈ waitsFor deps i, d < i) :
    LeastFirst deps (List.range deps.length) := by
  intro before i after hs
  obtain ⟨hlt, rfl⟩ := range_eq_append hs
  refine ⟨⟨hlt, by simp, fun d hd => List.mem_range.mpr (h i d hd)⟩, fun j hj => ?_⟩
  simpa using hj.not_mem

/-- Where no index waits for a later one, the order is the given one. -/
theorem order_eq_range (h : Proper deps) (hd : ∀ i, ∀ d ∈ waitsFor deps i, d < i) :
    order deps = .ok (List.range deps.length) := by
  have hr := respects_range hd
  obtain ⟨o, ho⟩ := (exists_order_iff h.lt).mpr hr.acyclic
  have hle := (isLeast_of_order ho).2 hr
  have hge := (leastFirst_range hd).le hr (respects_of_order ho)
  rw [ho, le_antisymm hle hge]

/-! ### Reported walks -/

/-- Without an order, a closed walk is reported, and it is found before the steps run out. -/
theorem exists_walk_of_no_order (h : Proper deps) (hn : ¬ ∃ o, order deps = .ok o) :
    ∃ i steps walk, order deps = .error walk ∧ steps ≤ deps.length ∧
      Closes deps (finished deps) steps [i] i walk ∧ ClosedWalk deps walk := by
  have hl : (finished deps).length < deps.length := by
    by_contra hl
    exact hn ⟨_, order_eq_ok.mpr ⟨Nat.le_of_not_lt hl, rfl⟩⟩
  obtain ⟨i, steps, walk, hsteps, hcloses, hcycle, hwalk⟩ :=
    exists_closes_finished h.lt h.irrefl hl
  refine ⟨i, steps, walk, ?_, hsteps, hcloses, hwalk⟩
  simp only [order, hl, if_true, hcycle]

end Dependencies

namespace Declarations

open Dependencies Relation

theorem forall₂_filterMap_getElem? {names : List String} {walk : List Nat}
    (h : ∀ i ∈ walk, i < names.length) :
    List.Forall₂ (fun i name => names[i]? = some name) walk
      (walk.filterMap fun i => names[i]?) := by
  induction walk with
  | nil => exact .nil
  | cons i walk ih =>
    obtain ⟨hi, hw⟩ := List.forall_mem_cons.mp h
    rw [List.filterMap_cons, List.getElem?_eq_getElem hi]
    exact .cons (List.getElem?_eq_getElem hi) (ih hw)

theorem exists_evaluationOrder_iff {className : String} {names : List String}
    {deps : List (List Nat)} : (∃ o, evaluationOrder className names deps = .ok o) ↔
      ∃ o, order deps = .ok o := by
  simp only [evaluationOrder_eq_ok]

/-- The fields have an order exactly if none waits for itself through others. The order is then the
first of all that respect the dependencies, which is the declared one where no field waits for a
later one. On the way to it no counter falls below zero. If there is no order, the names along a
closed walk are reported, which is found in at most as many steps as there are fields. -/
theorem evaluationOrder_least_or_cycle (className : String) (names : List String)
    (deps : List (List Nat)) (h : Proper deps) (hn : names.length = deps.length) :
    ((∃ o, evaluationOrder className names deps = .ok o) ↔ ∀ i, ¬ TransGen (Waits deps) i i) ∧
    (∀ o, evaluationOrder className names deps = .ok o → IsLeast {o | Respects deps o} o) ∧
    ((∀ i, ∀ d ∈ waitsFor deps i, d < i) →
      evaluationOrder className names deps = .ok (List.range deps.length)) ∧
    ((∃ p, Progress.Reached deps [] p ∧ p.ready = [] ∧ p.placed = finished deps) ∧
      ∀ i rest p, Progress.Reached deps (i :: rest) p →
        ∃ count : Int, p.pending[i]? = some count ∧ 0 < count) ∧
    ((∃ i, TransGen (Waits deps) i i) → ∃ i steps walk reported,
      evaluationOrder className names deps = .error (.dependencyCycle className reported) ∧
        List.Forall₂ (fun i name => names[i]? = some name) walk reported ∧
        ClosedWalk deps walk ∧ steps ≤ deps.length ∧
        Closes deps (finished deps) steps [i] i walk) := by
  have hiff : (∃ o, evaluationOrder className names deps = .ok o) ↔
      ∀ i, ¬ TransGen (Waits deps) i i :=
    exists_evaluationOrder_iff.trans (exists_order_iff h.lt)
  refine ⟨hiff, fun o ho => isLeast_of_order (evaluationOrder_eq_ok.mp ho),
    fun hd => evaluationOrder_eq_ok.mpr (order_eq_range h hd),
    ⟨⟨_, Progress.reached_finish deps, Progress.ready_finish deps, rfl⟩,
      fun i rest p hp => hp.counted.pending_pos⟩, fun hc => ?_⟩
  have hno : ¬ ∃ o, order deps = .ok o := by
    rw [exists_order_iff h.lt]
    push Not
    exact hc
  obtain ⟨i, steps, walk, horder, hsteps, hcloses, hwalk⟩ := exists_walk_of_no_order h hno
  refine ⟨i, steps, walk, _, by rw [evaluationOrder, horder],
    forall₂_filterMap_getElem? fun i hi => ?_, hwalk, hsteps, hcloses⟩
  rw [hn]
  exact hwalk.lt i hi

/-- The first field waits for a cycle and is no part of it. -/
theorem evaluationOrder_cycle_after_first :
    let names := ["a", "b", "c"]
    let deps := [[1], [2], [1]]
    Proper deps ∧ (∃ i, TransGen (Waits deps) i i) ∧
      evaluationOrder "Loop" names deps = .error (.dependencyCycle "Loop" ["b", "c", "b"]) ∧
      ∃ walk, ClosedWalk deps walk ∧
        List.Forall₂ (fun i name => names[i]? = some name) walk ["b", "c", "b"] := by
  intro names deps
  have h : Proper deps := .of_forall_lt (by decide)
  have he : evaluationOrder "Loop" names deps =
      .error (.dependencyCycle "Loop" ["b", "c", "b"]) := rfl
  obtain ⟨hiff, -, -, -, hcycle⟩ := evaluationOrder_least_or_cycle "Loop" names deps h rfl
  have hc : ∃ i, TransGen (Waits deps) i i := by
    by_contra hn
    push Not at hn
    obtain ⟨o, ho⟩ := hiff.mpr hn
    rw [he] at ho
    cases ho
  obtain ⟨-, -, walk, reported, hreported, hnames, hwalk, -, -⟩ := hcycle hc
  rw [he] at hreported
  cases hreported
  exact ⟨h, hc, he, walk, hwalk, hnames⟩

end Declarations

end RecordCheck
