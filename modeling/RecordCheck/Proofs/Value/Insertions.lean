import Mathlib.Data.Finset.Card
import Mathlib.Data.List.Induction
import RecordCheck.Proofs.Value.Fields

/-! Named values that are built by insertions, as the fields of an object are. They tell of each name
when it was first inserted and what it was last set to, and nothing else about the insertions. -/

namespace RecordCheck.Fields

variable {α : Type} {name : String} {a : α} {entries xs ys : List (String × α)}

/-! ### One insertion -/

theorem find?_insert (name n : String) (a : α) (xs : List (String × α)) :
    find? name (insert n a xs) = if n = name then some a else find? name xs := by
  induction xs with
  | nil => rfl
  | cons x xs ih =>
    obtain ⟨m, b⟩ := x
    simp only [insert]
    split
    next hm =>
      subst hm
      simp only [find?]
      split <;> rfl
    next hm =>
      simp only [find?, ih]
      by_cases hn : n = name
      · have hmn : m ≠ name := hn ▸ hm
        simp [hmn, hn]
      · simp [hn]

/-! ### Runs of insertions -/

theorem names_concat (xs : List (String × α)) (name : String) (a : α) :
    names (xs ++ [(name, a)]) = names xs ++ [name] := List.map_append

theorem mem_names_reverse : name ∈ names xs.reverse ↔ name ∈ names xs := by
  rw [names, List.map_reverse, List.mem_reverse, names]

theorem ofList_concat (entries : List (String × α)) (name : String) (a : α) :
    ofList (entries ++ [(name, a)]) = insert name a (ofList entries) := List.foldl_concat ..

/-- Of the insertions under a name the last one counts. -/
theorem find?_ofList (name : String) (entries : List (String × α)) :
    find? name (ofList entries) = find? name entries.reverse := by
  induction entries using List.reverseRecOn with
  | nil => rfl
  | append_singleton entries entry ih =>
    obtain ⟨n, a⟩ := entry
    rw [ofList_concat, find?_insert, ih, List.reverse_concat, find?]

theorem mem_names_ofList : name ∈ names (ofList entries) ↔ name ∈ names entries := by
  rw [← find?_isSome_iff, find?_ofList, find?_isSome_iff, mem_names_reverse]

/-- The names stand in the order of their first insertions. -/
theorem names_ofList_pairwise (entries : List (String × α)) :
    (names (ofList entries)).Pairwise fun m n =>
      (names entries).idxOf m < (names entries).idxOf n := by
  induction entries using List.reverseRecOn with
  | nil => exact .nil
  | append_singleton entries entry ih =>
    obtain ⟨name, a⟩ := entry
    -- a further insertion does not change where a name stands first
    have hlater : (names (ofList entries)).Pairwise fun m n =>
        (names entries ++ [name]).idxOf m < (names entries ++ [name]).idxOf n := by
      refine ih.imp_of_mem fun {m n} hm hn hlt => ?_
      rwa [List.idxOf_append_of_mem (mem_names_ofList.mp hm),
        List.idxOf_append_of_mem (mem_names_ofList.mp hn)]
    rw [ofList_concat, names_insert, names_concat]
    split
    next hold => exact hlater
    next hnew =>
      rw [mem_names_ofList] at hnew
      refine List.pairwise_append.mpr ⟨hlater, List.pairwise_singleton .., fun m hm n hn => ?_⟩
      obtain rfl := List.mem_singleton.mp hn
      have hm := mem_names_ofList.mp hm
      rw [List.idxOf_append_of_mem hm, List.idxOf_append_of_notMem hnew]
      exact Nat.lt_add_right _ (List.idxOf_lt_length_of_mem hm)

theorem names_ofList_nodup (entries : List (String × α)) : (names (ofList entries)).Nodup := by
  have hnil : (names ([] : List (String × α))).Nodup := List.nodup_nil
  exact (insertAll_nodup hnil entries).1

theorem length_ofList (entries : List (String × α)) :
    (ofList entries).length = (names entries).toFinset.card := by
  have hset : (names entries).toFinset = (names (ofList entries)).toFinset :=
    List.toFinset.ext fun _ => mem_names_ofList.symm
  rw [hset, List.toFinset_card_of_nodup (names_ofList_nodup entries), names, List.length_map]

/-! ### What shows of the insertions -/

/-- What named values show of the insertions that they are built by. -/
structure BuiltBy (entries fields : List (String × α)) : Prop where
  distinct : (names fields).Nodup
  /-- Of two names the one that was first inserted earlier stands first. -/
  ordered : (names fields).Pairwise fun m n =>
    (names entries).idxOf m < (names entries).idxOf n
  /-- The value is that of the last insertion under the name. -/
  find?_eq_some_iff : ∀ name a, find? name fields = some a ↔
    ∃ before after, entries = before ++ (name, a) :: after ∧ name ∉ names after
  find?_eq_none_iff : ∀ name, find? name fields = none ↔ name ∉ names entries
  length_eq : fields.length = (names entries).toFinset.card
  contains_iff : ∀ name, contains name fields = true ↔ name ∈ names entries

theorem find?_reverse_eq_some_iff :
    find? name entries.reverse = some a ↔
      ∃ before after, entries = before ++ (name, a) :: after ∧ name ∉ names after := by
  constructor
  · intro h
    obtain ⟨after, before, he, hn⟩ := exists_of_find? h
    refine ⟨before.reverse, after.reverse, ?_, mt mem_names_reverse.mp hn⟩
    rw [← List.reverse_reverse entries, he]
    simp
  · rintro ⟨before, after, rfl, hn⟩
    rw [List.reverse_append, List.reverse_cons, List.append_assoc]
    exact find?_middle (mt mem_names_reverse.mp hn) a

/-- Lists of the same distinct names with the same values are the same. -/
theorem eq_of_find? (hx : (names xs).Nodup) (hnames : names xs = names ys)
    (hfind : ∀ name, find? name xs = find? name ys) : xs = ys := by
  have hrel : List.Forall₂ (fun x y => x.1 = y.1 ∧ x.2 = y.2) xs ys := by
    refine (forall₂_iff_find? (· = ·) hx).mpr ⟨hnames, fun name a b ha hb => ?_⟩
    rw [hfind name, hb] at ha
    exact (Option.some.inj ha).symm
  exact List.forall₂_eq_eq_eq ▸ hrel.imp fun _ _ h => Prod.ext h.1 h.2

theorem BuiltBy.mem_names_iff (h : BuiltBy entries xs) :
    name ∈ names xs ↔ name ∈ names entries := by
  rw [← find?_isSome_iff, ← h.contains_iff, contains]

theorem BuiltBy.find?_eq (hx : BuiltBy entries xs) (hy : BuiltBy entries ys) (name : String) :
    find? name xs = find? name ys :=
  Option.ext fun a => (hx.find?_eq_some_iff name a).trans (hy.find?_eq_some_iff name a).symm

theorem BuiltBy.names_eq (hx : BuiltBy entries xs) (hy : BuiltBy entries ys) :
    names xs = names ys := by
  have hperm : (names xs).Perm (names ys) :=
    (List.perm_ext_iff_of_nodup hx.distinct hy.distinct).mpr fun _ =>
      hx.mem_names_iff.trans hy.mem_names_iff.symm
  exact hperm.eq_of_pairwise (fun _ _ _ _ hlt hgt => absurd hgt (Nat.lt_asymm hlt))
    hx.ordered hy.ordered

theorem builtBy_ofList (entries : List (String × α)) : BuiltBy entries (ofList entries) where
  distinct := names_ofList_nodup entries
  ordered := names_ofList_pairwise entries
  find?_eq_some_iff name a := by rw [find?_ofList, find?_reverse_eq_some_iff]
  find?_eq_none_iff name := by
    rw [← Option.not_isSome_iff_eq_none, find?_isSome_iff, mem_names_ofList]
  length_eq := length_ofList entries
  contains_iff name := by rw [contains, find?_isSome_iff, mem_names_ofList]

/-- After any run of insertions the names are distinct and stand in the order of their first
insertions, each has the value that it was last set to, and there are no others. No other list of
named values shows the same. -/
theorem eq_ofList_iff_builtBy (entries fields : List (String × α)) :
    fields = ofList entries ↔ BuiltBy entries fields := by
  constructor
  · rintro rfl
    exact builtBy_ofList entries
  · intro h
    have hb := builtBy_ofList entries
    exact eq_of_find? h.distinct (h.names_eq hb) (h.find?_eq hb)

/-- A name that is set again keeps its place. -/
example :
    ofList [("x", 1), ("y", 2), ("x", 10), ("z", 3), ("y", 20)] =
      [("x", 10), ("y", 20), ("z", 3)] := by decide

end RecordCheck.Fields
