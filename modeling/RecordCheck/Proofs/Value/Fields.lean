import Mathlib.Data.List.Nodup
import Mathlib.Data.List.Perm.Subperm
import RecordCheck.Proofs.Results
import RecordCheck.Value.Entries

/-! Looking names up. -/

namespace RecordCheck.Fields

variable {α β γ : Type} {name : String}

@[simp] theorem names_mapValues (f : α → β) (xs : List (String × α)) :
    names (mapValues f xs) = names xs := by
  simp [names, mapValues]

theorem mapValues_mapValues (f : α → β) (g : β → γ) (xs : List (String × α)) :
    mapValues g (mapValues f xs) = mapValues (g ∘ f) xs := by
  simp [mapValues]

theorem forall_mapValues_iff {f : α → β} {p : β → Prop} {xs : List (String × α)} :
    (∀ b ∈ (mapValues f xs).map (·.2), p b) ↔ ∀ a ∈ xs.map (·.2), p (f a) := by
  rw [mapValues, List.map_map, List.forall_mem_map, List.forall_mem_map]
  rfl

theorem mapValues_congr {f g : α → β} {xs : List (String × α)}
    (h : ∀ a ∈ xs.map (·.2), f a = g a) : mapValues f xs = mapValues g xs :=
  List.map_congr_left fun entry he => Prod.ext rfl (h entry.2 (List.mem_map_of_mem he))

theorem mapValues_eq_self_iff {f : α → α} {xs : List (String × α)} :
    mapValues f xs = xs ↔ ∀ a ∈ xs.map (·.2), f a = a := by
  rw [mapValues, Results.map_eq_self_iff, List.forall_mem_map]
  refine forall₂_congr fun entry _ => ?_
  simp [Prod.ext_iff]

theorem find?_mapValues (f : α → β) (xs : List (String × α)) :
    find? name (mapValues f xs) = (find? name xs).map f := by
  induction xs with
  | nil => rfl
  | cons x xs ih =>
    simp only [mapValues, List.map_cons, find?] at ih ⊢
    split
    · rfl
    · exact ih

/-- Entries of other names do not matter. -/
theorem find?_filter {p : String → Bool} (hp : p name = true) (xs : List (String × α)) :
    find? name (xs.filter fun entry => p entry.1) = find? name xs := by
  induction xs with
  | nil => rfl
  | cons x xs ih =>
    obtain ⟨n, a⟩ := x
    by_cases hn : n = name
    · simp [hn, hp, find?]
    · by_cases hpn : p n = true
      · simp [hpn, find?, hn, ih]
      · simp [hpn, find?, hn, ih]

/-- In lists of the same names, what is found in one corresponds to what is found in the other. -/
theorem find?_rel {r : α → β → Prop} {xs : List (String × α)} {ys : List (String × β)}
    (h : List.Forall₂ (fun a b => a.1 = b.1 ∧ r a.2 b.2) xs ys) (name : String) :
    Option.Rel r (find? name xs) (find? name ys) := by
  induction h with
  | nil => exact .none
  | @cons a b xs ys hab _ ih =>
    obtain ⟨n, x⟩ := a
    obtain ⟨m, y⟩ := b
    obtain ⟨rfl, hr⟩ := hab
    simp only [find?]
    split
    · exact .some hr
    · exact ih

theorem find?_append (xs ys : List (String × α)) :
    find? name (xs ++ ys) = (find? name xs).or (find? name ys) := by
  induction xs with
  | nil => rfl
  | cons x xs ih =>
    simp only [List.cons_append, find?]
    split
    · rfl
    · exact ih

theorem find?_constant (ns : List String) (a : α) :
    find? name (ns.map (·, a)) = if name ∈ ns then some a else none := by
  induction ns with
  | nil => rfl
  | cons n ns ih =>
    simp only [List.map_cons, find?, ih, List.mem_cons]
    by_cases hn : n = name
    · simp [hn]
    · simp [hn, Ne.symm hn]

theorem mem_of_find? {xs : List (String × α)} {a : α} (h : find? name xs = some a) :
    (name, a) ∈ xs := by
  induction xs with
  | nil => simp [find?] at h
  | cons x xs ih =>
    obtain ⟨n, b⟩ := x
    simp only [find?] at h
    split at h
    next hx => simp_all
    next hx => exact List.mem_cons_of_mem _ (ih h)

theorem find?_isSome_iff {xs : List (String × α)} :
    (find? name xs).isSome ↔ name ∈ names xs := by
  induction xs with
  | nil => simp [find?, names]
  | cons x xs ih =>
    simp only [find?]
    split
    next hx => simp [names, hx]
    next hx =>
      have hx' : name ≠ x.1 := Ne.symm hx
      simpa [names, hx'] using ih

/-- Where no name stands twice, every entry is found. -/
theorem find?_of_mem {xs : List (String × α)} {a : α} (hx : (names xs).Nodup)
    (h : (name, a) ∈ xs) : find? name xs = some a := by
  induction xs with
  | nil => cases h
  | cons x xs ih =>
    obtain ⟨n, b⟩ := x
    rw [names, List.map_cons, List.nodup_cons] at hx
    rcases List.mem_cons.mp h with he | ht
    · obtain ⟨rfl, rfl⟩ := Prod.mk.inj he
      simp [find?]
    · have hn : n ≠ name := by
        rintro rfl
        exact hx.1 (List.mem_map_of_mem (f := (·.1)) ht)
      simpa [find?, hn] using ih hx.2 ht

/-- In lists of the same distinct names, entries correspond if those of each name do. -/
theorem forall₂_iff_find? (r : α → β → Prop) {xs : List (String × α)} {ys : List (String × β)}
    (hx : (names xs).Nodup) :
    List.Forall₂ (fun a b => a.1 = b.1 ∧ r a.2 b.2) xs ys ↔
      names xs = names ys ∧
        ∀ name a b, find? name xs = some a → find? name ys = some b → r a b := by
  constructor
  · intro h
    have hn : names xs = names ys := by
      rw [names, names, ← List.forall₂_eq_eq_eq, List.forall₂_map_left_iff,
        List.forall₂_map_right_iff]
      exact h.imp fun _ _ => And.left
    refine ⟨hn, fun name a b ha hb => ?_⟩
    have hr := find?_rel h name
    rw [ha, hb] at hr
    exact Option.rel_some_some.mp hr
  · intro h
    obtain ⟨hn, hr⟩ := h
    induction xs generalizing ys with
    | nil =>
      obtain rfl : ys = [] := List.map_eq_nil_iff.mp hn.symm
      exact .nil
    | cons x xs ih =>
      obtain ⟨n, a⟩ := x
      cases ys with
      | nil => cases hn
      | cons y ys =>
        obtain ⟨m, b⟩ := y
        obtain ⟨rfl, htail⟩ : n = m ∧ names xs = names ys := List.cons.inj hn
        obtain ⟨hnot, hx⟩ := List.nodup_cons.mp hx
        refine .cons ⟨rfl, hr n a b (by simp [find?]) (by simp [find?])⟩ (ih hx htail ?_)
        intro name c d hc hd
        have hne : n ≠ name := by
          rintro rfl
          exact hnot (find?_isSome_iff.mp (Option.isSome_iff_exists.mpr ⟨c, hc⟩))
        exact hr name c d (by simpa [find?, hne] using hc) (by simpa [find?, hne] using hd)

/-! ### Replacing a value -/

section

variable {n : String} {pre post : List (String × α)}

theorem find?_middle (hn : n ∉ names pre) (a : α) :
    find? n (pre ++ (n, a) :: post) = some a := by
  have hp : find? n pre = none := by
    rwa [← Option.not_isSome_iff_eq_none, find?_isSome_iff]
  simp [find?_append, hp, find?]

theorem exists_of_find? {xs : List (String × α)} {a : α} (h : find? n xs = some a) :
    ∃ pre post, xs = pre ++ (n, a) :: post ∧ n ∉ names pre := by
  induction xs with
  | nil => cases h
  | cons x xs ih =>
    obtain ⟨m, b⟩ := x
    simp only [find?] at h
    split at h
    next hm =>
      cases h
      exact ⟨[], xs, by rw [hm, List.nil_append], List.not_mem_nil⟩
    next hm =>
      obtain ⟨pre, post, rfl, hn⟩ := ih h
      refine ⟨(m, b) :: pre, post, rfl, ?_⟩
      rw [names, List.map_cons, List.mem_cons, not_or]
      exact ⟨Ne.symm hm, hn⟩

/-- What is found under other names is the same. -/
theorem find?_replaced (hn : name ≠ n) (a b : α) :
    find? name (pre ++ (n, a) :: post) = find? name (pre ++ (n, b) :: post) := by
  simp [find?_append, find?, hn.symm]

theorem names_replaced (a b : α) :
    names (pre ++ (n, a) :: post) = names (pre ++ (n, b) :: post) := by
  simp [names]

end

/-! ### Insertion -/

theorem names_insert (name : String) (a : α) (xs : List (String × α)) :
    names (insert name a xs) = if name ∈ names xs then names xs else names xs ++ [name] := by
  induction xs with
  | nil => simp [insert, names]
  | cons x xs ih =>
    obtain ⟨n, b⟩ := x
    simp only [insert]
    split
    next hn => simp [names, hn]
    next hn =>
      have hne : name ≠ n := Ne.symm hn
      simp only [names, List.map_cons, List.mem_cons, hne, false_or] at ih ⊢
      rw [ih]
      split
      next hm => simp [hm]
      next hm => simp [hm]

theorem insert_of_not_mem {a : α} {xs : List (String × α)} (h : name ∉ names xs) :
    insert name a xs = xs ++ [(name, a)] := by
  induction xs with
  | nil => rfl
  | cons x xs ih =>
    obtain ⟨n, b⟩ := x
    simp only [names, List.map_cons, List.mem_cons, not_or] at h
    simp only [insert, Ne.symm h.1, if_false, List.cons_append]
    rw [ih h.2]

theorem insertAll_of_nodup {xs ys : List (String × α)} (h : (names (xs ++ ys)).Nodup) :
    insertAll xs ys = xs ++ ys := by
  induction ys generalizing xs with
  | nil => simp [insertAll]
  | cons y ys ih =>
    obtain ⟨n, a⟩ := y
    have hn : n ∉ names xs := by
      intro hm
      simp only [names, List.map_append, List.map_cons] at h hm
      exact List.disjoint_of_nodup_append h hm (List.mem_cons_self ..)
    have hxs : xs ++ (n, a) :: ys = xs ++ [(n, a)] ++ ys := by simp
    change insertAll (insert n a xs) ys = _
    rw [insert_of_not_mem hn, hxs]
    exact ih (by rwa [← hxs])

theorem insertAll_nodup {xs : List (String × α)} (h : (names xs).Nodup)
    (ys : List (String × α)) :
    (names (insertAll xs ys)).Nodup ∧ names (insertAll xs ys) ⊆ names xs ++ names ys := by
  induction ys generalizing xs with
  | nil => simpa [insertAll, names] using h
  | cons y ys ih =>
    obtain ⟨n, a⟩ := y
    have hi : (names (insert n a xs)).Nodup ∧ names (insert n a xs) ⊆ names xs ++ [n] := by
      rw [names_insert]
      split
      next hm => exact ⟨h, List.subset_append_left ..⟩
      next hm => exact ⟨List.concat_eq_append ▸ List.Nodup.concat hm h, fun _ hx => hx⟩
    obtain ⟨hd, hs⟩ := ih hi.1
    refine ⟨hd, fun x hx => ?_⟩
    rcases List.mem_append.mp (hs hx) with hx | hx
    · simpa [names, or_assoc] using Or.inl (List.mem_append.mp (hi.2 hx))
    · simpa [names] using Or.inr (Or.inr hx)

/-- Nothing is lost in a list of distinct names, and something is in any other. -/
theorem nodup_iff_length_ofList (xs : List (String × α)) :
    (names xs).Nodup ↔ (ofList xs).length = xs.length := by
  constructor
  · intro h
    rw [ofList, insertAll_of_nodup (by simpa using h), List.nil_append]
  · intro h
    have hnil : (names ([] : List (String × α))).Nodup := List.nodup_nil
    obtain ⟨hd, hs⟩ := insertAll_nodup hnil xs
    have hp : (names (ofList xs)).Perm (names xs) := by
      apply List.Subperm.perm_of_length_le
      · exact List.subperm_of_subset hd hs
      · simp [names, h]
    exact hp.nodup_iff.mp hd

end RecordCheck.Fields

namespace RecordCheck.Entries

variable {α β : Type} {xs : List (String × α)} {ys : List (String × β)}

theorem Sorted.names_sorted (h : Sorted xs) : (Fields.names xs).Pairwise (· < ·) :=
  List.pairwise_map.mpr h

theorem Sorted.nodup (h : Sorted xs) : (Fields.names xs).Nodup := by
  apply h.names_sorted.imp
  intro m n hlt he
  rw [he] at hlt
  exact String.lt_irrefl n hlt

/-- The same keys stand in the same order. -/
theorem Sorted.names_eq_iff (hx : Sorted xs) (hy : Sorted ys) :
    Fields.names xs = Fields.names ys ↔
      ∀ key, key ∈ Fields.names xs ↔ key ∈ Fields.names ys := by
  constructor
  · intro h key
    rw [h]
  · intro h
    have hp : (Fields.names xs).Perm (Fields.names ys) :=
      (List.perm_ext_iff_of_nodup hx.nodup hy.nodup).mpr h
    exact hp.eq_of_pairwise (fun m n _ _ hlt hgt => absurd hgt (String.lt_asymm hlt))
      hx.names_sorted hy.names_sorted

end RecordCheck.Entries
