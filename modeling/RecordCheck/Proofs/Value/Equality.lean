import RecordCheck.Proofs.Value.Parts
import RecordCheck.Value.Equality

/-! Equality of values looks into containers part by part. It is symmetric, and a value equals
itself unless a NaN stands somewhere inside. -/

namespace RecordCheck

theorem Double.numEq_comm (x y : Double) : x.numEq y = y.numEq x := by
  simp only [numEq, Bool.and_comm (!x.isNaN), BEq.comm (a := x.key)]

theorem Double.numEq_self_iff {x : Double} : x.numEq x = true ↔ x.isNaN = false := by
  simp [numEq]

namespace Value

variable {mixed : Bool} {u v x y : Value}

/-! ### Parts -/

theorem alikeItems_iff {xs ys : List Value} :
    alikeItems mixed xs ys = true ↔ List.Forall₂ (fun x y => alike mixed x y = true) xs ys := by
  induction xs generalizing ys with
  | nil => cases ys <;> simp [alikeItems]
  | cons x xs ih => cases ys <;> simp [alikeItems, ih]

theorem alikeFields_iff {xs ys : List (String × Value)} :
    alikeFields mixed xs ys = true ↔
      List.Forall₂ (fun a b => a.1 = b.1 ∧ alike mixed a.2 b.2 = true) xs ys := by
  induction xs generalizing ys with
  | nil => cases ys <;> simp [alikeFields]
  | cons x xs ih => cases ys <;> simp [alikeFields, ih]

/-- Lists, maps and objects. -/
def IsContainer : Value → Prop
  | list _ => True
  | map _ => True
  | object _ _ => True
  | _ => False

/-- Two containers of one shape whose parts are related: lists of one length, item by item; maps with
the same keys, key by key; objects of one class with the same names in the same order, field by
field. -/
def SameParts (r : Value → Value → Prop) : Value → Value → Prop
  | list xs, list ys =>
    xs.length = ys.length ∧ ∀ (i : Nat) x y, xs[i]? = some x → ys[i]? = some y → r x y
  | map xs, map ys =>
    (∀ key, key ∈ Fields.names xs ↔ key ∈ Fields.names ys) ∧
      ∀ key x y, Fields.find? key xs = some x → Fields.find? key ys = some y → r x y
  | object c xs, object d ys =>
    c = d ∧ Fields.names xs = Fields.names ys ∧
      ∀ name x y, Fields.find? name xs = some x → Fields.find? name ys = some y → r x y
  | _, _ => False

theorem sameParts_and {p q : Value → Value → Prop} :
    SameParts (fun u v => p u v ∧ q u v) x y ↔ SameParts p x y ∧ SameParts q x y := by
  unfold SameParts
  split
  · simp only [imp_and, forall_and]
    tauto
  · simp only [imp_and, forall_and]
    tauto
  · simp only [imp_and, forall_and]
    tauto
  · exact (and_self_iff).symm

/-- Equality of containers is that of their parts, as the representation of maps and objects has
their keys and names. -/
theorem alike_iff_sameParts (hx : x.WellFormed) (hy : y.WellFormed) (hc : x.IsContainer) :
    alike mixed x y = true ↔ SameParts (fun u v => alike mixed u v = true) x y := by
  cases x with
  | list xs =>
    cases y with
    | list ys => rw [alike, alikeItems_iff, Results.forall₂_iff_getElem?, SameParts]
    | _ => simp [alike, SameParts]
  | map xs =>
    cases y with
    | map ys =>
      rw [alike, alikeFields_iff, Fields.forall₂_iff_find? (alike mixed · · = true) hx.1.nodup,
        hx.1.names_eq_iff hy.1, SameParts]
    | _ => simp [alike, SameParts]
  | object c xs =>
    cases y with
    | object d ys =>
      rw [alike, Bool.and_eq_true, beq_iff_eq, alikeFields_iff,
        Fields.forall₂_iff_find? (alike mixed · · = true) hx.1, SameParts]
    | _ => simp [alike, SameParts]
  | _ => exact hc.elim

/-! ### Symmetry -/

theorem alikeItems_comm {xs : List Value}
    (h : ∀ x ∈ xs, ∀ y, alike mixed x y = alike mixed y x) (ys : List Value) :
    alikeItems mixed xs ys = alikeItems mixed ys xs := by
  induction xs generalizing ys with
  | nil => cases ys <;> rfl
  | cons x xs ih =>
    obtain ⟨hx, hxs⟩ := List.forall_mem_cons.mp h
    cases ys with
    | nil => rfl
    | cons y ys => rw [alikeItems, alikeItems, hx, ih hxs]

theorem alikeFields_comm {xs : List (String × Value)}
    (h : ∀ x ∈ xs.map (·.2), ∀ y, alike mixed x y = alike mixed y x) (ys : List (String × Value)) :
    alikeFields mixed xs ys = alikeFields mixed ys xs := by
  induction xs generalizing ys with
  | nil => cases ys <;> rfl
  | cons x xs ih =>
    obtain ⟨hx, hxs⟩ := List.forall_mem_cons.mp h
    cases ys with
    | nil => rfl
    | cons y ys => rw [alikeFields, alikeFields, hx, ih hxs, BEq.comm]

theorem alike_comm (mixed : Bool) (x y : Value) : alike mixed x y = alike mixed y x := by
  induction x using induction_parts generalizing y with
  | h x ih =>
    cases x with
    | list xs =>
      cases y with
      | list ys =>
        rw [alike, alike]
        exact alikeItems_comm ih ys
      | _ => rfl
    | map xs =>
      cases y with
      | map ys =>
        rw [alike, alike]
        exact alikeFields_comm ih ys
      | _ => rfl
    | object c xs =>
      cases y with
      | object d ys => rw [alike, alike, alikeFields_comm ih ys, BEq.comm]
      | _ => rfl
    | float a =>
      cases y with
      | float b =>
        rw [alike, alike]
        exact Double.numEq_comm a b
      | _ => rfl
    | _ => cases y <;> simp [alike, BEq.comm]

theorem looseEq_comm (x y : Value) : x.looseEq y = y.looseEq x := alike_comm true x y

/-! ### Identity -/

theorem alikeItems_self_iff {xs : List Value} :
    alikeItems mixed xs xs = true ↔ ∀ x ∈ xs, alike mixed x x = true := by
  rw [alikeItems_iff, List.forall₂_same]

theorem alikeFields_self_iff {xs : List (String × Value)} :
    alikeFields mixed xs xs = true ↔ ∀ x ∈ xs.map (·.2), alike mixed x x = true := by
  rw [alikeFields_iff, List.forall₂_same, List.forall_mem_map]
  simp

/-- The value `u` is `v`, or stands inside it at some depth. -/
inductive Inside (u : Value) : Value → Prop where
  | self : Inside u u
  | part {w v : Value} (hw : w ∈ v.parts) (h : Inside u w) : Inside u v

/-- No NaN stands inside. -/
def NaNFree (v : Value) : Prop := ∀ x, Inside (.float x) v → x.isNaN = false

theorem nanFree_iff :
    v.NaNFree ↔ (∀ x, v = .float x → x.isNaN = false) ∧ ∀ u ∈ v.parts, u.NaNFree := by
  constructor
  · intro h
    exact ⟨fun x hx => h x (hx ▸ .self), fun u hu x hx => h x (.part hu hx)⟩
  · rintro ⟨hself, hparts⟩ x hx
    cases hx with
    | self => exact hself x rfl
    | part hw hx => exact hparts _ hw x hx

theorem alike_self_iff : alike mixed v v = true ↔ v.NaNFree := by
  induction v using induction_parts with
  | h v ih =>
    rw [nanFree_iff]
    have hparts : (∀ u ∈ v.parts, alike mixed u u = true) ↔ ∀ u ∈ v.parts, u.NaNFree :=
      forall₂_congr ih
    rw [← hparts]
    cases v with
    | list xs => simp [alike, parts, alikeItems_self_iff]
    | map xs => simp [alike, parts, alikeFields_self_iff]
    | object c xs => simp [alike, parts, alikeFields_self_iff]
    | float a => simp [alike, parts, Double.numEq_self_iff]
    | _ => simp [alike, parts]

/-! ### Strict and loose equality -/

theorem looseItems_of_strict {xs ys : List Value}
    (h : ∀ x ∈ xs, ∀ {y}, x.strictEq y = true → x.looseEq y = true)
    (hs : alikeItems false xs ys = true) : alikeItems true xs ys = true := by
  rw [alikeItems_iff] at hs ⊢
  have hboth := (List.forall₂_and_left xs ys).mpr ⟨h, hs⟩
  exact hboth.imp fun x y hxy => hxy.1 hxy.2

theorem looseFields_of_strict {xs ys : List (String × Value)}
    (h : ∀ x ∈ xs.map (·.2), ∀ {y}, x.strictEq y = true → x.looseEq y = true)
    (hs : alikeFields false xs ys = true) : alikeFields true xs ys = true := by
  rw [alikeFields_iff] at hs ⊢
  have hboth := (List.forall₂_and_left xs ys).mpr ⟨List.forall_mem_map.mp h, hs⟩
  exact hboth.imp fun a b hab => ⟨hab.2.1, hab.1 hab.2.2⟩

/-- Strict equality is finer: it keeps integers and floats apart at every depth. -/
theorem looseEq_of_strictEq (h : x.strictEq y = true) : x.looseEq y = true := by
  induction x using induction_parts generalizing y with
  | h x ih =>
    cases x with
    | list xs =>
      cases y with
      | list ys =>
        rw [strictEq, alike] at h
        rw [looseEq, alike]
        exact looseItems_of_strict ih h
      | _ => cases h
    | map xs =>
      cases y with
      | map ys =>
        rw [strictEq, alike] at h
        rw [looseEq, alike]
        exact looseFields_of_strict ih h
      | _ => cases h
    | object c xs =>
      cases y with
      | object d ys =>
        rw [strictEq, alike, Bool.and_eq_true] at h
        rw [looseEq, alike, Bool.and_eq_true]
        exact ⟨h.1, looseFields_of_strict ih h.2⟩
      | _ => cases h
    | _ => cases y <;> first | exact h | cases h

end Value

end RecordCheck
