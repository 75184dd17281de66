import Mathlib.Data.List.Forall2
import Mathlib.Data.Option.Basic

/-! Computations that can fail: when they succeed, and what they then give. -/

namespace RecordCheck.Results

variable {ε α β : Type}

@[simp] theorem bind_eq_ok {x : Except ε α} {f : α → Except ε β} {b : β} :
    (x >>= f) = .ok b ↔ ∃ a, x = .ok a ∧ f a = .ok b := by
  cases x <;> simp [bind, Except.bind]

theorem ok_bind {a : α} {f : α → Except ε β} : (.ok a >>= f) = f a := rfl

@[simp] theorem pure_eq_ok {a b : α} : (pure a : Except ε α) = .ok b ↔ a = b := by
  simp [pure, Except.pure]

theorem exists_bind_ok_iff {x : Except ε α} {f : α → β} :
    (∃ b, (x >>= fun a => .ok (f a)) = .ok b) ↔ ∃ a, x = .ok a := by
  cases x <;> simp [bind, Except.bind]

theorem bind_eq_error {x : Except ε α} {f : α → Except ε β} {e : ε} :
    (x >>= f) = .error e ↔ x = .error e ∨ ∃ a, x = .ok a ∧ f a = .error e := by
  cases x <;> simp [bind, Except.bind]

theorem pure_ne_error {a : α} {e : ε} : (pure a : Except ε α) = .error e ↔ False := by
  simp [pure, Except.pure]

@[simp] theorem throw_ne_ok {e : ε} {a : α} : (throw e : Except ε α) = .ok a ↔ False := by
  simp [throw, throwThe, MonadExceptOf.throw]

theorem map_eq_ok {x : Except ε α} {f : α → β} {b : β} :
    x.map f = .ok b ↔ ∃ a, x = .ok a ∧ f a = b := by
  cases x <;> simp [Except.map]

theorem map_eq_error {x : Except ε α} {f : α → β} {e : ε} :
    x.map f = .error e ↔ x = .error e := by
  cases x <;> simp [Except.map]

@[simp] theorem mapError_eq_ok {x : Except ε α} {g : ε → ε} {a : α} :
    x.mapError g = .ok a ↔ x = .ok a := by
  cases x <;> simp [Except.mapError]

theorem mapError_eq_error {x : Except ε α} {g : ε → ε} {e : ε} :
    x.mapError g = .error e ↔ ∃ e', x = .error e' ∧ e = g e' := by
  cases x <;> simp [Except.mapError, eq_comm]

theorem isOk_iff {x : Except ε α} : x.isOk = true ↔ ∃ a, x = .ok a := by
  cases x <;> simp [Except.isOk, Except.toBool]

theorem toOption_map {x : Except ε α} {f : α → β} : (x.map f).toOption = x.toOption.map f := by
  cases x <;> rfl

theorem toOption_any_iff {x : Except ε α} {p : α → Bool} :
    x.toOption.any p = true ↔ ∃ a, x = .ok a ∧ p a = true := by
  cases x <;> simp [Except.toOption]

/-- The outcome is an error that the predicate is true of. -/
def failsWith (p : ε → Bool) : Except ε α → Bool
  | .ok _ => false
  | .error e => p e

theorem failsWith_iff {x : Except ε α} {p : ε → Bool} :
    failsWith p x = true ↔ ∃ e, x = .error e ∧ p e = true := by
  cases x <;> simp [failsWith]

/-! ### Traversals -/

theorem forM_eq_ok {f : α → Except ε Unit} {xs : List α} {u : Unit} :
    xs.forM f = .ok u ↔ ∀ a ∈ xs, f a = .ok () := by
  induction xs with
  | nil => simp [List.forM]
  | cons x xs ih =>
    change (f x >>= fun _ => xs.forM f) = _ ↔ _
    rw [bind_eq_ok, List.forall_mem_cons, ih, exists_and_right]
    exact and_congr_left' ⟨fun ⟨_, h⟩ => h, fun h => ⟨(), h⟩⟩

theorem mapM_ok_forall₂ {f : α → Except ε β} {xs : List α} {ys : List β} :
    xs.mapM f = .ok ys ↔ List.Forall₂ (fun a b => f a = .ok b) xs ys := by
  induction xs generalizing ys with
  | nil => rw [List.mapM_nil, pure_eq_ok, List.forall₂_nil_left_iff, eq_comm]
  | cons x xs ih =>
    rw [List.mapM_cons, List.forall₂_cons_left_iff]
    simp only [bind_eq_ok, pure_eq_ok, ih]
    constructor
    · intro h
      obtain ⟨b, hb, bs, hbs, rfl⟩ := h
      exact ⟨b, bs, hb, hbs, rfl⟩
    · intro h
      obtain ⟨b, bs, hb, hbs, rfl⟩ := h
      exact ⟨b, hb, bs, hbs, rfl⟩

/-- A traversal succeeds if it does for each item. -/
theorem exists_mapM_iff {f : α → Except ε β} {xs : List α} :
    (∃ ys, xs.mapM f = .ok ys) ↔ ∀ a ∈ xs, ∃ b, f a = .ok b := by
  induction xs with
  | nil => simp
  | cons x xs ih =>
    rw [List.forall_mem_cons, ← ih, List.mapM_cons]
    simp only [bind_eq_ok, pure_eq_ok]
    constructor
    · intro h
      obtain ⟨_, b, hb, bs, hbs, rfl⟩ := h
      exact ⟨⟨b, hb⟩, bs, hbs⟩
    · intro h
      obtain ⟨⟨b, hb⟩, bs, hbs⟩ := h
      exact ⟨b :: bs, b, hb, bs, hbs, rfl⟩

/-- A traversal fails as its first item does that fails. -/
theorem exists_of_mapM_error {f : α → Except ε β} {xs : List α} {e : ε}
    (h : xs.mapM f = .error e) : ∃ before a after, xs = before ++ a :: after ∧
      (∀ b ∈ before, ∃ c, f b = .ok c) ∧ f a = .error e := by
  induction xs with
  | nil => cases h
  | cons x xs ih =>
    rw [List.mapM_cons, bind_eq_error] at h
    rcases h with h | ⟨b, hb, h⟩
    · exact ⟨[], x, xs, rfl, by simp, h⟩
    · simp only [bind_eq_error, pure_ne_error, and_false, exists_false, or_false] at h
      obtain ⟨before, a, after, rfl, hok, ha⟩ := ih h
      exact ⟨x :: before, a, after, rfl, List.forall_mem_cons.mpr ⟨⟨b, hb⟩, hok⟩, ha⟩

theorem mapM_eq_error {f : α → Except ε β} {xs : List α} {e : ε} :
    xs.mapM f = .error e ↔ ∃ before a after, xs = before ++ a :: after ∧
      (∀ b ∈ before, ∃ c, f b = .ok c) ∧ f a = .error e := by
  refine ⟨exists_of_mapM_error, ?_⟩
  rintro ⟨before, a, after, rfl, hok, ha⟩
  obtain ⟨cs, hcs⟩ := exists_mapM_iff.mpr hok
  rw [List.mapM_append, hcs, ok_bind, List.mapM_cons, ha]
  rfl

theorem mapM_congr {f g : α → Except ε β} {xs : List α} (h : ∀ a ∈ xs, f a = g a) :
    xs.mapM f = xs.mapM g := by
  induction xs with
  | nil => rfl
  | cons x xs ih =>
    obtain ⟨hx, hxs⟩ := List.forall_mem_cons.mp h
    rw [List.mapM_cons, List.mapM_cons, hx, ih hxs]

theorem exists_of_mem_forall₂ {r : α → β → Prop} {xs : List α} {ys : List β}
    (h : List.Forall₂ r xs ys) {b : β} (hb : b ∈ ys) : ∃ a ∈ xs, r a b := by
  induction h with
  | nil => cases hb
  | @cons a _ _ _ ha _ ih =>
    rcases List.mem_cons.mp hb with rfl | hb
    · exact ⟨a, List.mem_cons_self .., ha⟩
    · obtain ⟨a', hm, ha'⟩ := ih hb
      exact ⟨a', List.mem_cons_of_mem _ hm, ha'⟩

theorem exists_of_mem_mapM {f : α → Except ε β} {xs : List α} {ys : List β}
    (h : xs.mapM f = .ok ys) {b : β} (hb : b ∈ ys) : ∃ a ∈ xs, f a = .ok b :=
  exists_of_mem_forall₂ (mapM_ok_forall₂.mp h) hb

/-- A walk leads nowhere if one step finds nothing where those before it lead. -/
theorem foldlM_eq_none_iff {f : α → β → Option α} {a : α} {xs : List β} :
    xs.foldlM f a = none ↔ ∃ before x after b,
      xs = before ++ x :: after ∧ before.foldlM f a = some b ∧ f b x = none := by
  induction xs generalizing a with
  | nil => simp
  | cons y ys ih =>
    rw [List.foldlM_cons]
    cases hy : f a y with
    | none => exact iff_of_true rfl ⟨[], y, ys, a, rfl, rfl, hy⟩
    | some c =>
      rw [Option.bind_eq_bind, Option.bind_some, ih]
      constructor
      · intro h
        obtain ⟨before, x, after, b, rfl, hb, hx⟩ := h
        exact ⟨y :: before, x, after, b, rfl, by rw [List.foldlM_cons, hy]; exact hb, hx⟩
      · intro h
        obtain ⟨before, x, after, b, he, hb, hx⟩ := h
        cases before with
        | nil =>
          cases he
          cases hb
          rw [hy] at hx
          cases hx
        | cons z before =>
          cases he
          rw [List.foldlM_cons, hy] at hb
          exact ⟨before, x, after, b, rfl, hb, hx⟩

theorem exists_of_rel_left {r : α → β → Prop} {x : Option α} {y : Option β}
    (h : Option.Rel r x y) {a : α} (hx : x = some a) : ∃ b, y = some b ∧ r a b := by
  subst hx
  cases h with
  | some h => exact ⟨_, rfl, h⟩

theorem exists_of_rel_right {r : α → β → Prop} {x : Option α} {y : Option β}
    (h : Option.Rel r x y) {b : β} (hy : y = some b) : ∃ a, x = some a ∧ r a b := by
  subst hy
  cases h with
  | some h => exact ⟨_, rfl, h⟩

theorem rel_map_left {γ : Type} {r : β → γ → Prop} {f : α → β} {x : Option α} {y : Option γ}
    (h : Option.Rel (fun a c => r (f a) c) x y) : Option.Rel r (x.map f) y := by
  cases h with
  | some h => exact .some h
  | none => exact .none

theorem rel_map_right {γ : Type} {r : α → γ → Prop} {f : β → γ} {x : Option α} {y : Option β}
    (h : Option.Rel (fun a b => r a (f b)) x y) : Option.Rel r x (y.map f) := by
  cases h with
  | some h => exact .some h
  | none => exact .none

theorem exists_of_getElem? {xs : List α} {i : Nat} {a : α} (h : xs[i]? = some a) :
    ∃ pre post, xs = pre ++ a :: post ∧ i = pre.length := by
  obtain ⟨hi, rfl⟩ := List.getElem?_eq_some_iff.mp h
  refine ⟨xs.take i, xs.drop (i + 1), ?_, (List.length_take_of_le (Nat.le_of_lt hi)).symm⟩
  rw [← List.drop_eq_getElem_cons hi, List.take_append_drop]

theorem getElem?_append_singleton_iff {xs : List α} {a b : α} {i : Nat} :
    (xs ++ [a])[i]? = some b ↔ xs[i]? = some b ∨ i = xs.length ∧ a = b := by
  rcases Nat.lt_trichotomy i xs.length with h | h | h
  · simp [List.getElem?_append_left h, Nat.ne_of_lt h]
  · simp [h]
  · have hn : (xs ++ [a])[i]? = none :=
      List.getElem?_eq_none (by simpa [Nat.add_one_le_iff] using h)
    simp [hn, List.getElem?_eq_none (Nat.le_of_lt h), Nat.ne_of_gt h]

/-- In lists that correspond item by item, so do the items at one position. -/
theorem getElem?_rel {r : α → β → Prop} {xs : List α} {ys : List β} (h : List.Forall₂ r xs ys)
    (i : Nat) : Option.Rel r xs[i]? ys[i]? := by
  induction h generalizing i with
  | nil => exact .none
  | cons hab _ ih =>
    cases i with
    | zero => exact .some hab
    | succ i => exact ih i

theorem forall₂_iff_getElem? {r : α → β → Prop} {xs : List α} {ys : List β} :
    List.Forall₂ r xs ys ↔
      xs.length = ys.length ∧ ∀ (i : Nat) a b, xs[i]? = some a → ys[i]? = some b → r a b := by
  constructor
  · intro h
    refine ⟨h.length_eq, fun i a b ha hb => ?_⟩
    have hr := getElem?_rel h i
    rw [ha, hb] at hr
    exact Option.rel_some_some.mp hr
  · intro h
    refine List.forall₂_iff_get.mpr ⟨h.1, fun i hi hj => ?_⟩
    exact h.2 i _ _ (List.getElem?_eq_getElem hi) (List.getElem?_eq_getElem hj)

theorem forall₂_ofFn {r : α → β → Prop} {xs : List α} {f : Fin xs.length → β}
    (h : ∀ i : Fin xs.length, r xs[i] (f i)) : List.Forall₂ r xs (List.ofFn f) := by
  rw [List.forall₂_iff_get]
  refine ⟨by simp, fun i hi _ => ?_⟩
  simpa using h ⟨i, hi⟩

/-- A sublist of a list without repetition is determined by its members. -/
theorem sublist_ext {l xs ys : List α} (hl : l.Nodup) (hx : xs.Sublist l) (hy : ys.Sublist l)
    (h : ∀ a, a ∈ xs ↔ a ∈ ys) : xs = ys := by
  induction l generalizing xs ys with
  | nil => rw [List.sublist_nil.mp hx, List.sublist_nil.mp hy]
  | cons a l ih =>
    obtain ⟨ha, hl⟩ := List.nodup_cons.mp hl
    cases hx with
    | cons _ hx =>
      cases hy with
      | cons _ hy => exact ih hl hx hy h
      | cons_cons _ hy => exact absurd (hx.subset ((h a).mpr List.mem_cons_self)) ha
    | cons_cons _ hx =>
      cases hy with
      | cons _ hy => exact absurd (hy.subset ((h a).mp List.mem_cons_self)) ha
      | cons_cons _ hy =>
        refine congrArg (a :: ·) (ih hl hx hy fun b => ?_)
        by_cases hb : b = a
        · rw [hb]
          exact iff_of_false (fun hm => ha (hx.subset hm)) fun hm => ha (hy.subset hm)
        · simpa [hb] using h b

theorem map_eq_self_iff {f : α → α} {xs : List α} : xs.map f = xs ↔ ∀ a ∈ xs, f a = a := by
  conv_lhs => rhs; rw [← List.map_id xs]
  exact List.map_inj_left

/-- What a traversal gives is what some function gives item by item. -/
theorem mapM_eq_ok [Inhabited β] {f : α → Except ε β} {xs : List α} {ys : List β} :
    xs.mapM f = .ok ys ↔ ∃ g, (∀ a ∈ xs, f a = .ok (g a)) ∧ ys = xs.map g := by
  rw [mapM_ok_forall₂]
  constructor
  · intro h
    refine ⟨fun a => (f a).toOption.getD default, ?_⟩
    induction h with
    | nil => simp
    | cons hb _ ih => simpa [hb, Except.toOption] using ih
  · intro hx
    obtain ⟨g, hg, rfl⟩ := hx
    rw [List.forall₂_map_right_iff, List.forall₂_same]
    exact hg

end RecordCheck.Results
