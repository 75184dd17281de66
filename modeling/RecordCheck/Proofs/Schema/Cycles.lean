import Mathlib.Data.Fintype.Card
import Mathlib.Data.Fintype.EquivFin
import Mathlib.Logic.Relation
import Mathlib.Order.Bounds.Defs
import Mathlib.Order.WellFounded
import RecordCheck.Proofs.Schema.Order

/-! Dependencies have an order exactly if no index waits for itself through others, and of all
orders the one is taken that always goes on with the first index that can be placed. -/

namespace RecordCheck.Dependencies

open Relation

variable {deps : List (List Nat)} {placed : List Nat} {i : Nat}

/-! ### Cycles -/

/-- The index waits for the other one. -/
def Waits (deps : List (List Nat)) (i j : Nat) : Prop := j ∈ waitsFor deps i

theorem Waits.lt_length {j : Nat} (h : Waits deps i j) : i < deps.length := by
  by_contra hlt
  simp [Waits, waitsFor, List.getElem?_eq_none (Nat.le_of_not_lt hlt)] at h

/-- In an order, every index stands after those that it waits for. -/
theorem Respects.idxOf_lt {order : List Nat} {j : Nat} (h : Respects deps order)
    (hw : Waits deps i j) : order.idxOf j < order.idxOf i := by
  have hm : i ∈ order := h.perm.mem_iff.mpr (List.mem_range.mpr hw.lt_length)
  obtain ⟨before, after, rfl⟩ := List.append_of_mem hm
  have hnd : (before ++ i :: after).Nodup := h.perm.nodup_iff.mpr List.nodup_range
  have hni : i ∉ before := fun hb => List.disjoint_of_nodup_append hnd hb (List.mem_cons_self ..)
  have hj : j ∈ before := h.before rfl j hw
  rw [List.idxOf_append_of_mem hj, List.idxOf_append_of_notMem hni, List.idxOf_cons_self]
  exact List.idxOf_lt_length_iff.mpr hj

theorem Respects.acyclic {order : List Nat} (h : Respects deps order) (i : Nat) :
    ¬ TransGen (Waits deps) i i := by
  have descends {i j : Nat} (hw : TransGen (Waits deps) i j) : order.idxOf j < order.idxOf i := by
    induction hw with
    | single hw => exact h.idxOf_lt hw
    | tail _ hw ih => exact (h.idxOf_lt hw).trans ih
  intro hc
  exact Nat.lt_irrefl _ (descends hc)

/-- Without a cycle, some index that is not placed waits for placed ones only: one that is minimal
among those that are not placed. -/
theorem exists_ready (hb : ∀ i, ∀ d ∈ waitsFor deps i, d < deps.length)
    (ha : ∀ i, ¬ TransGen (Waits deps) i i) (hi : i < deps.length) (hn : i ∉ placed) :
    ∃ j, Ready deps placed j := by
  let below (a b : Fin deps.length) : Prop := TransGen (Waits deps) b a
  have : IsTrans (Fin deps.length) below := ⟨fun _ _ _ hab hbc => hbc.trans hab⟩
  have : Std.Irrefl below := ⟨fun a => ha a⟩
  obtain ⟨m, hm, hmin⟩ := (Finite.wellFounded_of_trans_of_irrefl below).has_min
    {a | a.1 ∉ placed} ⟨⟨i, hi⟩, hn⟩
  refine ⟨m, m.2, hm, fun d hd => ?_⟩
  by_contra hdn
  exact hmin ⟨d, hb m d hd⟩ hdn (.single hd)

theorem exists_not_placed (hl : placed.length < deps.length) :
    ∃ i, i < deps.length ∧ i ∉ placed := by
  by_contra hall
  push Not at hall
  have hs := List.subperm_of_subset List.nodup_range fun i hi => hall i (List.mem_range.mp hi)
  have hle := hs.length_le
  rw [List.length_range] at hle
  omega

/-- An order is found exactly if there is no cycle. -/
theorem exists_order_iff (hb : ∀ i, ∀ d ∈ waitsFor deps i, d < deps.length) :
    (∃ o, order deps = .ok o) ↔ ∀ i, ¬ TransGen (Waits deps) i i := by
  constructor
  · intro h
    obtain ⟨o, ho⟩ := h
    exact (respects_of_order ho).acyclic
  · intro ha
    refine ⟨finished deps, order_eq_ok.mpr ⟨?_, rfl⟩⟩
    by_contra hl
    obtain ⟨i, hi, hn⟩ := exists_not_placed (Nat.lt_of_not_le hl)
    obtain ⟨j, hj⟩ := exists_ready hb ha hi hn
    exact not_ready_finished deps j hj

end RecordCheck.Dependencies
