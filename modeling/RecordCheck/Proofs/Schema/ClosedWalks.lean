import Mathlib.Data.List.Chain
import RecordCheck.Proofs.Schema.Cycles

/-! Where not every index can be placed, following dependencies from an index that is left closes a
walk. -/

namespace RecordCheck.Dependencies

variable {deps : List (List Nat)} {placed path : List Nat} {i d : Nat}

/-- A walk along dependencies that ends where it starts and comes to no other index twice. It is not
that of an index that waits for itself. -/
structure ClosedWalk (deps : List (List Nat)) (walk : List Nat) : Prop where
  chain : walk.IsChain (Waits deps)
  closed : walk.getLast? = walk.head?
  nodup : walk.dropLast.Nodup
  length : 3 ≤ walk.length
  lt : ∀ i ∈ walk, i < deps.length

/-- Following dependencies from the path, which ends with `i`, gives the closed walk after so many
steps. Each step finds a dependency that is not placed. -/
inductive Closes (deps : List (List Nat)) (placed : List Nat) :
    Nat → List Nat → Nat → List Nat → Prop where
  | back {path : List Nat} {i d : Nat} (hd : open? deps placed i = some d) (hm : d ∈ path) :
    Closes deps placed 1 path i (path.dropWhile (· != d) ++ [d])
  | on {steps : Nat} {path walk : List Nat} {i d : Nat} (hd : open? deps placed i = some d)
    (hn : d ∉ path) (h : Closes deps placed steps (path ++ [d]) d walk) :
    Closes deps placed (steps + 1) path i walk

/-- The limit on the steps does not matter. -/
theorem Closes.follow_eq {steps count : Nat} {walk : List Nat}
    (h : Closes deps placed steps path i walk) (hc : steps ≤ count) :
    follow deps placed count path i = walk := by
  induction h generalizing count with
  | back hd hm =>
    obtain ⟨count, rfl⟩ := Nat.exists_eq_add_of_le' hc
    simp [follow, hd, hm]
  | on hd hn h ih =>
    obtain ⟨count, rfl⟩ := Nat.exists_eq_add_of_le' (Nat.le_of_add_left_le hc)
    simpa [follow, hd, hn] using ih (Nat.le_of_succ_le_succ hc)

/-! ### Steps -/

theorem open?_spec (h : open? deps placed i = some d) : Waits deps i d ∧ d ∉ placed := by
  refine ⟨List.mem_of_find?_eq_some h, ?_⟩
  simpa using List.find?_some h

theorem exists_open? (hr : ¬ Ready deps placed i) (hi : i < deps.length) (hn : i ∉ placed) :
    ∃ d, open? deps placed i = some d := by
  rw [← Option.isSome_iff_exists, open?, List.find?_isSome]
  by_contra h
  push Not at h
  refine hr ⟨hi, hn, fun d hd => ?_⟩
  simpa using h d hd

theorem dropWhile_of_not_mem {before after : List Nat} (h : d ∉ before) :
    (before ++ d :: after).dropWhile (· != d) = d :: after := by
  rw [List.dropWhile_append_of_pos]
  · simp
  · intro j hj
    rw [bne_iff_ne]
    rintro rfl
    exact h hj

/-- A path along dependencies between different indexes, none of which is placed. -/
structure OpenPath (deps : List (List Nat)) (placed path : List Nat) : Prop where
  chain : path.IsChain (Waits deps)
  nodup : path.Nodup
  isOpen : ∀ i ∈ path, i < deps.length ∧ i ∉ placed

theorem OpenPath.length_le (h : OpenPath deps placed path) : path.length ≤ deps.length := by
  have hs : path ⊆ List.range deps.length := fun i hi => List.mem_range.mpr (h.isOpen i hi).1
  simpa using (List.subperm_of_subset h.nodup hs).length_le

theorem OpenPath.snoc {before : List Nat} (h : OpenPath deps placed (before ++ [i]))
    (hw : Waits deps i d) (hd : d < deps.length ∧ d ∉ placed) (hn : d ∉ before ++ [i]) :
    OpenPath deps placed (before ++ [i] ++ [d]) := by
  refine ⟨?_, ?_, ?_⟩
  · refine h.chain.append (List.isChain_singleton d) ?_
    simpa using hw
  · rw [← List.concat_eq_append]
    exact h.nodup.concat hn
  · intro j hj
    rcases List.mem_append.mp hj with hj | hj
    · exact h.isOpen j hj
    · rw [List.mem_singleton.mp hj]
      exact hd

/-- A dependency that leads back to a path closes a walk. -/
theorem OpenPath.closedWalk {before : List Nat} (h : OpenPath deps placed (before ++ [i]))
    (hw : Waits deps i d) (hne : d ≠ i) (hm : d ∈ before ++ [i]) :
    ClosedWalk deps ((before ++ [i]).dropWhile (· != d) ++ [d]) := by
  have hb : d ∈ before := by simpa [hne] using hm
  obtain ⟨xs, ys, rfl⟩ := List.append_of_mem hb
  have hp : xs ++ d :: ys ++ [i] = xs ++ d :: (ys ++ [i]) := by simp
  have hchain := h.chain
  have hnodup := h.nodup
  rw [hp] at hchain hnodup ⊢
  have hx : d ∉ xs := fun hx => List.disjoint_of_nodup_append hnodup hx (List.mem_cons_self ..)
  rw [dropWhile_of_not_mem hx]
  refine ⟨?_, List.getLast?_concat .., ?_, by simp, fun j hj => (h.isOpen j ?_).1⟩
  · refine hchain.right_of_append.append (List.isChain_singleton d) ?_
    rw [← List.cons_append, List.getLast?_concat]
    simpa using hw
  · rw [List.dropLast_concat]
    exact hnodup.of_append_right
  · simp only [List.mem_append, List.mem_cons, List.not_mem_nil, or_false] at hj ⊢
    tauto

/-- Where no index is ready, the last one of an open path waits for one that is not placed. The path
cannot grow beyond the number of indexes, so that one comes back in the end. -/
theorem exists_closes (hb : ∀ i, ∀ d ∈ waitsFor deps i, d < deps.length)
    (hs : ∀ i, i ∉ waitsFor deps i) (hr : ∀ i, ¬ Ready deps placed i) {before : List Nat} {i : Nat}
    (h : OpenPath deps placed (before ++ [i])) :
    ∃ steps walk, steps + before.length ≤ deps.length ∧
      Closes deps placed steps (before ++ [i]) i walk ∧ ClosedWalk deps walk := by
  obtain ⟨hi, hn⟩ := h.isOpen i (by simp)
  obtain ⟨d, hd⟩ := exists_open? (hr i) hi hn
  obtain ⟨hw, hdn⟩ := open?_spec hd
  by_cases hm : d ∈ before ++ [i]
  · have hne : d ≠ i := by
      rintro rfl
      exact hs d hw
    have hl : before.length + 1 ≤ deps.length := by
      simpa only [List.length_append, List.length_singleton] using h.length_le
    exact ⟨1, _, by omega, .back hd hm, h.closedWalk hw hne hm⟩
  · have h' := h.snoc hw ⟨hb i d hw, hdn⟩ hm
    have hl : before.length + 1 + 1 ≤ deps.length := by
      simpa only [List.length_append, List.length_singleton] using h'.length_le
    obtain ⟨steps, walk, hsteps, hcloses, hwalk⟩ := exists_closes hb hs hr h'
    refine ⟨steps + 1, walk, ?_, .on hd hm hcloses, hwalk⟩
    rw [List.length_append, List.length_singleton] at hsteps
    omega
termination_by deps.length - before.length

/-- Where not all indexes are placed in the end, the walk from the first one that is left is closed
after at most as many steps as there are indexes. -/
theorem exists_closes_finished (hb : ∀ i, ∀ d ∈ waitsFor deps i, d < deps.length)
    (hs : ∀ i, i ∉ waitsFor deps i) (hl : (finished deps).length < deps.length) :
    ∃ i steps walk, steps ≤ deps.length ∧ Closes deps (finished deps) steps [i] i walk ∧
      cycle deps (finished deps) = walk ∧ ClosedWalk deps walk := by
  obtain ⟨i, hi⟩ : ∃ i, ((List.range deps.length).find? fun i => !(finished deps).contains i) =
      some i := by
    rw [← Option.isSome_iff_exists, List.find?_isSome]
    obtain ⟨i, hi, hn⟩ := exists_not_placed hl
    exact ⟨i, List.mem_range.mpr hi, by simpa using hn⟩
  have hlt : i < deps.length := List.mem_range.mp (List.mem_of_find?_eq_some hi)
  have hn : i ∉ finished deps := by simpa using List.find?_some hi
  have hpath : OpenPath deps (finished deps) ([] ++ [i]) :=
    ⟨List.isChain_singleton i, List.nodup_singleton i, by simpa using ⟨hlt, hn⟩⟩
  obtain ⟨steps, walk, hsteps, hcloses, hwalk⟩ :=
    exists_closes hb hs (not_ready_finished deps) hpath
  refine ⟨i, steps, walk, hsteps, hcloses, ?_, hwalk⟩
  rw [cycle, hi]
  exact hcloses.follow_eq hsteps

end RecordCheck.Dependencies
