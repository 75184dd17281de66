import Mathlib.Data.List.Basic
import RecordCheck.Expr.References

/-! What an expression reads of a root, by counting: the root is read as a whole exactly if it
occurs more often than fields are taken directly from it. -/

namespace RecordCheck.Expr

variable {r : Root}

theorem isRoot_iff {e : Expr} : e.isRoot r = true ↔ ∃ s, e = .root r s := by
  cases e <;> simp [isRoot]

theorem stringLiteral?_iff {e : Expr} {name : String} :
    e.stringLiteral? = some name ↔ ∃ s, e = .literal (.string name) s := by
  unfold stringLiteral?
  split <;> simp_all

theorem mem_references {e : Expr} {name : String} :
    name ∈ e.references r ↔ ∃ t ∈ e.subterms, t.access? r = some name := by
  simp [references, List.mem_eraseDups, List.mem_filterMap]

/-! ### Occurrences -/

/-- How often the root stands in some expressions. -/
def rootCount (r : Root) (es : List Expr) : Nat := es.countP (isRoot r)

/-- How often a field is taken directly from the root. -/
def accessCount (r : Root) (es : List Expr) : Nat := es.countP fun e => (e.access? r).isSome

@[simp] theorem rootCount_append (xs ys : List Expr) :
    rootCount r (xs ++ ys) = rootCount r xs + rootCount r ys := List.countP_append

@[simp] theorem accessCount_append (xs ys : List Expr) :
    accessCount r (xs ++ ys) = accessCount r xs + accessCount r ys := List.countP_append

theorem rootCount_cons (e : Expr) (es : List Expr) :
    rootCount r (e :: es) = rootCount r es + if e.isRoot r then 1 else 0 := List.countP_cons

theorem accessCount_cons (e : Expr) (es : List Expr) :
    accessCount r (e :: es) = accessCount r es + if (e.access? r).isSome then 1 else 0 :=
  List.countP_cons

/-- Each access has an occurrence of its own, and the root is read as a whole if one is left. -/
def Counted (r : Root) (es : List Expr) (whole : Bool) : Prop :=
  accessCount r es ≤ rootCount r es ∧ (whole = true ↔ accessCount r es < rootCount r es)

theorem Counted.nil : Counted r [] false := by simp [Counted, accessCount, rootCount]

theorem Counted.append {xs ys : List Expr} {a b : Bool} (hx : Counted r xs a)
    (hy : Counted r ys b) : Counted r (xs ++ ys) (a || b) := by
  obtain ⟨hxle, hxlt⟩ := hx
  obtain ⟨hyle, hylt⟩ := hy
  simp only [Counted, accessCount_append, rootCount_append, Bool.or_eq_true, hxlt, hylt]
  omega

/-- An expression that is neither a root nor an access adds no occurrence to its parts. -/
theorem Counted.cons {e : Expr} {es : List Expr} {whole : Bool} (hr : e.isRoot r = false)
    (ha : e.access? r = none) (h : Counted r es whole) : Counted r (e :: es) whole := by
  simpa [Counted, rootCount_cons, accessCount_cons, hr, ha] using h

/-- An access and the root that it is taken from. -/
theorem Counted.access {e base : Expr} {es : List Expr} {name : String} (hr : e.isRoot r = false)
    (ha : e.access? r = some name) (hb : base.isRoot r = true) (h : Counted r es false) :
    Counted r (e :: base :: es) false := by
  have hbase : base.access? r = none := by
    obtain ⟨s, rfl⟩ := isRoot_iff.mp hb
    rfl
  simp only [Counted, Bool.false_eq_true, false_iff] at h
  simp only [Counted, rootCount_cons, accessCount_cons, hr, ha, hb, hbase]
  simp
  omega

mutual

theorem counted_subterms (e : Expr) : Counted r e.subterms (e.readsWhole r) := by
  match e with
  | .literal _ _ => exact .cons rfl rfl .nil
  | .root s _ =>
    by_cases hs : s = r
    · simp [subterms, readsWhole, Counted, accessCount, rootCount, isRoot, access?, hs]
    · simp [subterms, readsWhole, Counted, accessCount, rootCount, isRoot, access?, hs]
  | .field base name s =>
    have ih := counted_subterms base
    by_cases hb : base.isRoot r
    · have ha : access? r (.field base name s) = some name := by simp [access?, hb]
      obtain ⟨t, rfl⟩ := isRoot_iff.mp hb
      simpa [subterms, readsWhole, hb] using Counted.access rfl ha hb .nil
    · have ha : access? r (.field base name s) = none := by simp [access?, hb]
      simpa [subterms, readsWhole, hb] using Counted.cons rfl ha ih
  | .index base i s =>
    have ihb := counted_subterms base
    have ihi := counted_subterms i
    by_cases hb : base.isRoot r
    · have ha : access? r (.index base i s) = i.stringLiteral? := by simp [access?, hb]
      cases hl : i.stringLiteral? with
      | some name =>
        obtain ⟨t, rfl⟩ := isRoot_iff.mp hb
        obtain ⟨u, rfl⟩ := stringLiteral?_iff.mp hl
        simpa [subterms, readsWhole, hb, hl] using Counted.access rfl (ha.trans hl) hb ihi
      | none =>
        simpa [subterms, readsWhole, hb, hl] using Counted.cons rfl (ha.trans hl) (ihb.append ihi)
    · have ha : access? r (.index base i s) = none := by simp [access?, hb]
      simpa [subterms, readsWhole, hb] using Counted.cons rfl ha (ihb.append ihi)
  | .binary _ left right _ =>
    simpa [subterms, readsWhole] using
      Counted.cons rfl rfl ((counted_subterms left).append (counted_subterms right))
  | .compare first links _ =>
    simpa [subterms, readsWhole] using
      Counted.cons rfl rfl ((counted_subterms first).append (counted_links links))
  | .unary _ operand _ => exact .cons rfl rfl (counted_subterms operand)
  | .matches operand _ _ => exact .cons rfl rfl (counted_subterms operand)
  | .call _ arguments _ => exact .cons rfl rfl (counted_all arguments)
  | .list items _ => exact .cons rfl rfl (counted_all items)

theorem counted_all (es : List Expr) : Counted r (subtermsOfAll es) (anyReadsWhole r es) := by
  match es with
  | [] => exact .nil
  | e :: rest => exact (counted_subterms e).append (counted_all rest)

theorem counted_links (links : List (CompareOp × Expr)) :
    Counted r (subtermsOfLinks links) (anyLinkReadsWhole r links) := by
  match links with
  | [] => exact .nil
  | (_, e) :: rest => exact (counted_subterms e).append (counted_links rest)

end

/-- The root is read as a whole exactly if it occurs more often than it is accessed. -/
theorem readsWhole_iff_accessCount_lt (e : Expr) :
    e.readsWhole r = true ↔ accessCount r e.subterms < rootCount r e.subterms :=
  (counted_subterms e).2

/-! ### Unused roots -/

theorem rootCount_eq_zero {e : Expr} (h : e.uses r = false) : rootCount r e.subterms = 0 := by
  simpa [rootCount, uses, List.countP_eq_zero] using h

theorem readsWhole_of_not_uses {e : Expr} (h : e.uses r = false) : e.readsWhole r = false := by
  have hc := rootCount_eq_zero h
  rw [Bool.eq_false_iff, ne_eq, readsWhole_iff_accessCount_lt]
  omega

theorem references_of_not_uses {e : Expr} (h : e.uses r = false) : e.references r = [] := by
  have hc := rootCount_eq_zero h
  have hle := (counted_subterms (r := r) e).1
  have hz : accessCount r e.subterms = 0 := by omega
  rw [accessCount, List.countP_eq_zero] at hz
  apply List.eq_nil_iff_forall_not_mem.mpr
  intro name hn
  obtain ⟨t, ht, ha⟩ := mem_references.mp hn
  exact hz t ht (by simp [ha])

end RecordCheck.Expr
