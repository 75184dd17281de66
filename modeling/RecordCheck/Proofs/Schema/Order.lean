import Mathlib.Data.List.Count
import Mathlib.Data.List.Nodup
import Mathlib.Data.List.Perm.Subperm
import Mathlib.Order.Bounds.Defs
import RecordCheck.Schema.Order

/-! An order of evaluation has every index once, and each after those that it waits for. Each index
is the least of those that could stand in its place. -/

namespace RecordCheck.Dependencies

/-! ### The next index -/

/-- The index can be placed next. -/
structure Ready (deps : List (List Nat)) (placed : List Nat) (i : Nat) : Prop where
  lt : i < deps.length
  not_mem : i ∉ placed
  waits : ∀ d ∈ waitsFor deps i, d ∈ placed

/-- The rule for placing one more index. It does not say which one is chosen of several. -/
inductive Placement (deps : List (List Nat)) : List Nat → Prop where
  | nil : Placement deps []
  | snoc {placed i} (h : Placement deps placed) (hi : Ready deps placed i) :
    Placement deps (placed ++ [i])

variable {deps : List (List Nat)} {placed rest : List Nat} {p : Progress} {i j : Nat}

theorem Placement.nodup (h : Placement deps placed) : placed.Nodup := by
  induction h with
  | nil => exact List.nodup_nil
  | snoc _ hi ih =>
    rw [← List.concat_eq_append]
    exact List.Nodup.concat hi.not_mem ih

theorem Placement.lt (h : Placement deps placed) : ∀ i ∈ placed, i < deps.length := by
  induction h with
  | nil => simp
  | snoc _ hi ih =>
    intro j hj
    rcases List.mem_append.mp hj with hj | hj
    · exact ih j hj
    · rw [List.mem_singleton.mp hj]
      exact hi.lt

/-- An index of a list with one more at its end is that one, or stood in the list before. -/
theorem last_or_of_concat_eq {before after : List Nat}
    (h : placed ++ [i] = before ++ j :: after) :
    placed = before ∧ i = j ∨ ∃ rest, placed = before ++ j :: rest := by
  rcases List.eq_nil_or_concat after with rfl | ⟨rest, k, rfl⟩
  · obtain ⟨hp, hij⟩ := List.append_inj' h rfl
    exact .inl ⟨hp, by simpa using hij⟩
  · have h' : placed ++ [i] = (before ++ j :: rest) ++ [k] := by simpa using h
    exact .inr ⟨rest, (List.append_inj' h' rfl).1⟩

/-- Wherever an index stands, what it waits for stands before it. -/
theorem Placement.before {xs ys : List Nat} (h : Placement deps placed)
    (hs : placed = xs ++ i :: ys) : ∀ d ∈ waitsFor deps i, d ∈ xs := by
  induction h generalizing ys with
  | nil => simp at hs
  | snoc _ hi ih =>
    rcases last_or_of_concat_eq hs with ⟨rfl, rfl⟩ | ⟨rest, hp⟩
    · exact hi.waits
    · exact ih hp

theorem Placement.closed (h : Placement deps placed) (hi : i ∈ placed) :
    ∀ d ∈ waitsFor deps i, d ∈ placed := by
  obtain ⟨xs, ys, rfl⟩ := List.append_of_mem hi
  intro d hd
  exact List.mem_append_left _ (h.before rfl d hd)

/-- With as many indexes as there are, all of them are placed. -/
theorem Placement.perm (h : Placement deps placed) (hl : deps.length ≤ placed.length) :
    placed.Perm (List.range deps.length) := by
  have hs : placed ⊆ List.range deps.length := fun i hi => List.mem_range.mpr (h.lt i hi)
  exact (List.subperm_of_subset h.nodup hs).perm_of_length_le (by simpa using hl)

/-- Each index of a list is the least that can be placed after those before it. -/
def LeastFirst (deps : List (List Nat)) (placed : List Nat) : Prop :=
  ∀ before i after, placed = before ++ i :: after → IsLeast {j | Ready deps before j} i

theorem LeastFirst.nil : LeastFirst deps [] := by
  intro before i after hs
  simp at hs

theorem LeastFirst.snoc (h : LeastFirst deps placed) (hi : IsLeast {j | Ready deps placed j} i) :
    LeastFirst deps (placed ++ [i]) := by
  intro before j after hs
  rcases last_or_of_concat_eq hs with ⟨rfl, rfl⟩ | ⟨rest, hp⟩
  · exact hi
  · exact h before j rest hp

/-! ### Counters -/

theorem waitsFor_eq_nil (hi : deps.length ≤ i) : waitsFor deps i = [] := by
  rw [waitsFor, List.getElem?_eq_none hi]
  rfl

theorem count_flatMap_replicate (count : Nat → Nat) (n j : Nat) :
    ((List.range n).flatMap fun k => List.replicate (count k) k).count j =
      if j < n then count j else 0 := by
  induction n with
  | zero => rfl
  | succ n ih =>
    rw [List.range_succ, List.flatMap_append, List.count_append, ih, List.flatMap_singleton,
      List.count_replicate]
    by_cases hj : j = n
    · subst hj
      simp
    · have hn : (n == j) = false := by simpa using Ne.symm hj
      have hlt : j < n + 1 ↔ j < n := by omega
      simp [hn, hlt]

theorem count_waitingFor (deps : List (List Nat)) (i j : Nat) :
    (waitingFor deps i).count j = (waitsFor deps j).count i := by
  rw [waitingFor, count_flatMap_replicate]
  split
  next => rfl
  next hj => rw [waitsFor_eq_nil (Nat.le_of_not_lt hj), List.count_nil]

theorem mem_waitingFor : j ∈ waitingFor deps i ↔ i ∈ waitsFor deps j := by
  rw [← List.count_pos_iff, count_waitingFor, List.count_pos_iff]

/-- How much `i` waits for, while the indexes `rest` are still to be counted down for the last of
those that are placed. -/
def outstanding (deps : List (List Nat)) (placed rest : List Nat) (i : Nat) : Nat :=
  (waitsFor deps i).countP (· ∉ placed) + rest.count i

theorem outstanding_eq_zero_iff :
    outstanding deps placed [] i = 0 ↔ ∀ d ∈ waitsFor deps i, d ∈ placed := by
  simp [outstanding, List.countP_eq_zero]

theorem outstanding_cons :
    outstanding deps placed (i :: rest) j =
      outstanding deps placed rest j + if i = j then 1 else 0 := by
  simp only [outstanding, List.count_cons, beq_iff_eq, Nat.add_assoc]

theorem countP_not_mem_append (hi : i ∉ placed) (waits : List Nat) :
    waits.countP (· ∉ placed ++ [i]) + waits.count i = waits.countP (· ∉ placed) := by
  induction waits with
  | nil => rfl
  | cons d waits ih =>
    rw [List.countP_cons, List.countP_cons, List.count_cons, ← ih]
    by_cases hd : d = i
    · subst hd
      simp [hi, Nat.add_assoc]
    · simp [hd]
      omega

/-- Taking an index changes nothing yet: those that wait for it are still to be counted down. -/
theorem outstanding_take (hi : i ∉ placed) :
    outstanding deps (placed ++ [i]) (waitingFor deps i) j = outstanding deps placed [] j := by
  rw [outstanding, count_waitingFor, countP_not_mem_append hi]
  rfl

namespace Progress

/-- The counters and the ready indexes are what the placed indexes make them. -/
structure Counted (deps : List (List Nat)) (rest : List Nat) (p : Progress) : Prop where
  pending : ∀ i < deps.length, p.pending[i]? = some (outstanding deps p.placed rest i : Int)
  ready : ∀ i, i ∈ p.ready ↔
    i < deps.length ∧ i ∉ p.placed ∧ outstanding deps p.placed rest i = 0
  ready_nodup : p.ready.Nodup
  rest_waits : ∀ i ∈ rest, i < deps.length ∧ i ∉ p.placed
  placement : Placement deps p.placed
  leastFirst : LeastFirst deps p.placed

theorem Counted.mem_ready_iff (h : Counted deps [] p) : i ∈ p.ready ↔ Ready deps p.placed i := by
  rw [h.ready, outstanding_eq_zero_iff]
  exact ⟨fun hi => ⟨hi.1, hi.2.1, hi.2.2⟩, fun hi => ⟨hi.lt, hi.not_mem, hi.waits⟩⟩

theorem Counted.isLeast (h : Counted deps [] p) (hi : p.ready.min? = some i) :
    IsLeast {j | Ready deps p.placed j} i := by
  obtain ⟨hm, hle⟩ := List.min?_eq_some_iff.mp hi
  exact ⟨h.mem_ready_iff.mp hm, fun j hj => hle j (h.mem_ready_iff.mpr hj)⟩

theorem counted_start : Counted deps [] (start deps) := by
  have hpending (i : Nat) (hi : i < deps.length) :
      (start deps).pending[i]? = some (outstanding deps [] [] i : Int) := by
    simp [start, outstanding, waitsFor, hi]
  refine ⟨hpending, fun i => ?_, ?_, by simp, .nil, .nil⟩
  · simp only [start, List.mem_filter, List.mem_range, beq_iff_eq, List.not_mem_nil,
      not_false_eq_true, true_and]
    refine and_congr_right fun hi => ?_
    change (start deps).pending[i]? = some 0 ↔ _
    rw [hpending i hi]
    simp
  · exact List.nodup_range.filter _

/-- Where there is something to count down, it is not zero. -/
theorem Counted.pending_pos (h : Counted deps (i :: rest) p) :
    ∃ count : Int, p.pending[i]? = some count ∧ 0 < count := by
  obtain ⟨hi, -⟩ := h.rest_waits i (List.mem_cons_self ..)
  refine ⟨_, h.pending i hi, ?_⟩
  rw [outstanding_cons, if_pos rfl]
  omega

theorem Counted.not_mem_ready (h : Counted deps (i :: rest) p) : i ∉ p.ready := by
  intro hi
  have ho := ((h.ready i).mp hi).2.2
  rw [outstanding_cons, if_pos rfl] at ho
  omega

theorem Counted.countDown_eq (h : Counted deps (i :: rest) p) :
    p.countDown i =
      { pending := p.pending.set i (outstanding deps p.placed rest i)
        ready := if outstanding deps p.placed rest i = 0 then i :: p.ready else p.ready
        placed := p.placed } := by
  have hleft : p.pending[i]?.getD 0 - 1 = (outstanding deps p.placed rest i : Int) := by
    rw [h.pending i (h.rest_waits i (List.mem_cons_self ..)).1, outstanding_cons, if_pos rfl]
    simp
  simp only [Progress.countDown, hleft, Int.natCast_eq_zero]

theorem Counted.countDown (h : Counted deps (i :: rest) p) : Counted deps rest (p.countDown i) := by
  have hi := h.rest_waits i (List.mem_cons_self ..)
  have hother {j : Nat} (hj : i ≠ j) :
      outstanding deps p.placed (i :: rest) j = outstanding deps p.placed rest j := by
    rw [outstanding_cons, if_neg hj, Nat.add_zero]
  rw [h.countDown_eq]
  refine ⟨fun j hj => ?_, fun j => ?_, ?_,
    fun j hj => h.rest_waits j (List.mem_cons_of_mem i hj), h.placement, h.leastFirst⟩
  · by_cases hij : i = j
    · subst hij
      obtain ⟨hlt, -⟩ := List.getElem?_eq_some_iff.mp (h.pending i hj)
      exact List.getElem?_set_self hlt
    · rw [List.getElem?_set_ne hij, h.pending j hj, hother hij]
  · by_cases hij : i = j
    · subst hij
      split
      next hz => simp [hi, hz]
      next hz => simp [h.not_mem_ready, hz]
    · have hmem : j ∈ (if outstanding deps p.placed rest i = 0 then i :: p.ready else p.ready) ↔
          j ∈ p.ready := by
        split <;> simp [Ne.symm hij]
      rw [hmem, h.ready, hother hij]
  · split
    next => exact h.ready_nodup.cons h.not_mem_ready
    next => exact h.ready_nodup

/-- No index that waits for the least ready one is placed, and that one does not wait for itself. -/
theorem Counted.waiting_not_placed (h : Counted deps [] p) (hi : Ready deps p.placed i)
    (hj : j ∈ waitingFor deps i) : j < deps.length ∧ j ∉ p.placed ++ [i] := by
  have hw := mem_waitingFor.mp hj
  refine ⟨?_, fun hm => ?_⟩
  · by_contra hlt
    rw [waitsFor_eq_nil (Nat.le_of_not_lt hlt)] at hw
    cases hw
  · rcases List.mem_append.mp hm with hm | hm
    · exact hi.not_mem (h.placement.closed hm i hw)
    · rw [List.mem_singleton.mp hm] at hw
      exact hi.not_mem (hi.waits i hw)

theorem Counted.take (h : Counted deps [] p) (hi : p.ready.min? = some i) :
    Counted deps (waitingFor deps i) (p.take i) := by
  have hleast := h.isLeast hi
  have hready : Ready deps p.placed i := hleast.1
  refine ⟨fun j hj => ?_, fun j => ?_, h.ready_nodup.erase i,
    fun j hj => h.waiting_not_placed hready hj, h.placement.snoc hready, h.leastFirst.snoc hleast⟩
  · rw [Progress.take, outstanding_take hready.not_mem]
    exact h.pending j hj
  · simp only [Progress.take, outstanding_take hready.not_mem, h.ready_nodup.mem_erase_iff, h.ready,
      List.mem_append, List.mem_singleton]
    tauto

/-! ### Steps -/

/-- The states on the way, with the indexes that are still to be counted down in each. -/
inductive Reached (deps : List (List Nat)) : List Nat → Progress → Prop where
  | start : Reached deps [] (start deps)
  | take {p : Progress} {i : Nat} (h : Reached deps [] p) (hi : p.ready.min? = some i) :
    Reached deps (waitingFor deps i) (p.take i)
  | countDown {p : Progress} {i : Nat} {rest : List Nat} (h : Reached deps (i :: rest) p) :
    Reached deps rest (p.countDown i)

theorem Reached.counted (h : Reached deps rest p) : Counted deps rest p := by
  induction h with
  | start => exact counted_start
  | take _ hi ih => exact ih.take hi
  | countDown _ ih => exact ih.countDown

theorem Reached.foldl (h : Reached deps rest p) :
    Reached deps [] (rest.foldl Progress.countDown p) := by
  induction rest generalizing p with
  | nil => exact h
  | cons i rest ih => exact ih h.countDown

theorem Reached.place (h : Reached deps [] p) (hi : p.ready.min? = some i) :
    Reached deps [] (p.place deps i) :=
  (h.take hi).foldl

theorem Reached.run (h : Reached deps [] p) (count : Nat) : Reached deps [] (p.run deps count) := by
  induction count generalizing p with
  | zero => exact h
  | succ count ih =>
    rw [Progress.run]
    split
    next i hi => exact ih (h.place hi)
    next => exact h

theorem placed_foldl_countDown (rest : List Nat) (p : Progress) :
    (rest.foldl Progress.countDown p).placed = p.placed := by
  induction rest generalizing p with
  | nil => rfl
  | cons i rest ih => exact ih (p.countDown i)

/-- Placing ends when nothing more can be placed. -/
theorem length_run (deps : List (List Nat)) (count : Nat) (p : Progress) :
    (p.run deps count).placed.length = p.placed.length + count ∨ (p.run deps count).ready = [] := by
  induction count generalizing p with
  | zero => exact .inl rfl
  | succ count ih =>
    rw [Progress.run]
    split
    next i hi =>
      have hl : (p.place deps i).placed.length = p.placed.length + 1 := by
        rw [Progress.place, placed_foldl_countDown, Progress.take, List.length_append,
          List.length_singleton]
      rcases ih (p.place deps i) with hn | hr
      · left
        rw [hn, hl]
        omega
      · exact .inr hr
    next hi => exact .inr (List.min?_eq_none_iff.mp hi)

/-- The last state: nothing more can be placed. -/
theorem reached_finish (deps : List (List Nat)) :
    Reached deps [] ((start deps).run deps deps.length) :=
  Reached.start.run deps.length

theorem ready_finish (deps : List (List Nat)) :
    ((start deps).run deps deps.length).ready = [] := by
  have h := (reached_finish deps).counted
  rcases length_run deps deps.length (start deps) with hl | hr
  · have hp := h.placement.perm (by simp [hl])
    refine List.eq_nil_iff_forall_not_mem.mpr fun i hi => ?_
    obtain ⟨hlt, hm, -⟩ := (h.ready i).mp hi
    exact hm (hp.mem_iff.mpr (List.mem_range.mpr hlt))
  · exact hr

end Progress

/-! ### Orders -/

theorem placement_finished (deps : List (List Nat)) : Placement deps (finished deps) :=
  (Progress.reached_finish deps).counted.placement

theorem not_ready_finished (deps : List (List Nat)) (i : Nat) : ¬ Ready deps (finished deps) i := by
  intro hi
  have hm := (Progress.reached_finish deps).counted.mem_ready_iff.mpr hi
  rw [Progress.ready_finish] at hm
  cases hm

/-- What an order has to satisfy. -/
structure Respects (deps : List (List Nat)) (order : List Nat) : Prop where
  perm : order.Perm (List.range deps.length)
  before : ∀ {xs i ys}, order = xs ++ i :: ys → ∀ d ∈ waitsFor deps i, d ∈ xs

theorem order_eq_ok {o : List Nat} :
    order deps = .ok o ↔ deps.length ≤ (finished deps).length ∧ finished deps = o := by
  simp only [order]
  split
  next hlt => simp [Nat.not_le.mpr hlt]
  next hlt => simp [Nat.not_lt.mp hlt]

theorem respects_of_order {o : List Nat} (h : order deps = .ok o) : Respects deps o := by
  obtain ⟨hl, rfl⟩ := order_eq_ok.mp h
  exact ⟨(placement_finished deps).perm hl, (placement_finished deps).before⟩

/-- What an order is like that is found. -/
theorem leastFirst_of_order {o : List Nat} (h : order deps = .ok o) : LeastFirst deps o := by
  obtain ⟨-, rfl⟩ := order_eq_ok.mp h
  exact (Progress.reached_finish deps).counted.leastFirst

end RecordCheck.Dependencies
