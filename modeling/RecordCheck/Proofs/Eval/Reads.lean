import RecordCheck.Eval.Basic
import RecordCheck.Proofs.Expr.References

/-! The value of an expression depends on a root through nothing but the fields that the
expression takes from it, unless the root is read as a whole. -/

namespace RecordCheck.Eval

open RecordCheck.Expr

/-! ### Indexes by a string -/

/-- The error of an access, worded as that of an index by a string. -/
def asIndex : EvalError → EvalError
  | .type (.access _ base) => .type (.index base "string")
  | e => e

theorem fieldOf_object (className name : String) (fields : List (String × Value)) :
    fieldOf (.object className fields) name =
      ((Fields.find? name fields).elim (.error (.unknownField name className)) .ok) := by
  simp only [fieldOf]
  cases Fields.find? name fields <;> rfl

theorem fieldOf_map (name : String) (entries : List (String × Value)) :
    fieldOf (.map entries) name =
      ((Fields.find? name entries).elim (.error (.missingKey name)) .ok) := by
  simp only [fieldOf]
  cases Fields.find? name entries <;> rfl

theorem indexOf_string (v : Value) (name : String) :
    indexOf v (.string name) = (fieldOf v name).mapError asIndex := by
  cases v with
  | object className fields =>
    change fieldOf (.object className fields) name = _
    rw [fieldOf_object]
    cases Fields.find? name fields <;> rfl
  | map entries =>
    change fieldOf (.map entries) name = _
    rw [fieldOf_map]
    cases Fields.find? name entries <;> rfl
  | _ => rfl

/-- A field that is taken directly from a root is found if the root has it. -/
theorem eval_of_access? {r : Root} {ctx : Context} {e : Expr} {name : String} {v : Value}
    (ha : e.access? r = some name) (hf : fieldOf (ctx.value r) name = .ok v) :
    eval ctx e = .ok v := by
  cases e with
  | field base field _ =>
    simp only [access?] at ha
    split at ha <;> cases ha
    next hb =>
      obtain ⟨t, rfl⟩ := isRoot_iff.mp hb
      exact hf
  | index base i _ =>
    simp only [access?] at ha
    split at ha
    next hb =>
      obtain ⟨t, rfl⟩ := isRoot_iff.mp hb
      obtain ⟨u, rfl⟩ := stringLiteral?_iff.mp ha
      change indexOf (ctx.value r) (.string name) = _
      rw [indexOf_string, hf]
      rfl
    next => cases ha
  | _ => cases ha

/-! ### Two contexts -/

/-- Every field that some expressions take directly from the root is the same in two values, or
fails alike. -/
def SameReads (r : Root) (v w : Value) (es : List Expr) : Prop :=
  ∀ e ∈ es, ∀ name, e.access? r = some name → fieldOf v name = fieldOf w name

theorem SameReads.left {r : Root} {v w : Value} {xs ys : List Expr}
    (h : SameReads r v w (xs ++ ys)) : SameReads r v w xs :=
  fun e he => h e (List.mem_append_left ys he)

theorem SameReads.right {r : Root} {v w : Value} {xs ys : List Expr}
    (h : SameReads r v w (xs ++ ys)) : SameReads r v w ys :=
  fun e he => h e (List.mem_append_right xs he)

theorem SameReads.parts {r : Root} {v w : Value} {x : Expr} {xs : List Expr}
    (h : SameReads r v w (x :: xs)) : SameReads r v w xs :=
  fun e he => h e (List.mem_cons_of_mem x he)

variable {r : Root} {ctx ctx' : Context}

mutual

theorem eval_congr (ho : ∀ s, s ≠ r → ctx.value s = ctx'.value s) (e : Expr)
    (hw : e.readsWhole r = false)
    (hs : SameReads r (ctx.value r) (ctx'.value r) e.subterms) : eval ctx e = eval ctx' e := by
  match e with
  | .literal _ _ => rfl
  | .root s _ =>
    have hne : s ≠ r := by simpa [readsWhole] using hw
    simp only [eval, ho s hne]
  | .field base name s =>
    by_cases hb : base.isRoot r
    · have ha : (Expr.field base name s).access? r = some name := by simp [access?, hb]
      obtain ⟨t, rfl⟩ := isRoot_iff.mp hb
      exact hs _ (List.mem_cons_self ..) name ha
    · have ih := eval_congr ho base (by simpa [readsWhole, hb] using hw) hs.parts
      simp only [eval, ih]
  | .index base i s =>
    by_cases hb : base.isRoot r ∧ i.stringLiteral?.isSome
    · obtain ⟨hr, hl⟩ := hb
      obtain ⟨name, hn⟩ := Option.isSome_iff_exists.mp hl
      have ha : (Expr.index base i s).access? r = some name := by simp [access?, hr, hn]
      have hf := hs _ (List.mem_cons_self ..) name ha
      obtain ⟨t, rfl⟩ := isRoot_iff.mp hr
      obtain ⟨u, rfl⟩ := stringLiteral?_iff.mp hn
      change indexOf (ctx.value r) (.string name) = indexOf (ctx'.value r) (.string name)
      rw [indexOf_string, indexOf_string, hf]
    · have hw' : base.readsWhole r = false ∧ i.readsWhole r = false := by
        simpa [readsWhole, hb] using hw
      have ihb := eval_congr ho base hw'.1 hs.parts.left
      have ihi := eval_congr ho i hw'.2 hs.parts.right
      simp only [eval, ihb, ihi]
  | .binary op left right _ =>
    have hw' : left.readsWhole r = false ∧ right.readsWhole r = false := by
      simpa [readsWhole] using hw
    have ihl := eval_congr ho left hw'.1 hs.parts.left
    have ihr := eval_congr ho right hw'.2 hs.parts.right
    cases op <;> simp only [eval, ihl, ihr]
  | .compare first links _ =>
    have hw' : first.readsWhole r = false ∧ anyLinkReadsWhole r links = false := by
      simpa [readsWhole] using hw
    have ihf := eval_congr ho first hw'.1 hs.parts.left
    have ihl := evalLinks_congr ho links hw'.2 hs.parts.right
    simp only [eval, ihf, ihl]
  | .unary _ operand _ =>
    have ih := eval_congr ho operand (by simpa [readsWhole] using hw) hs.parts
    simp only [eval, ih]
  | .matches operand _ _ =>
    have ih := eval_congr ho operand (by simpa [readsWhole] using hw) hs.parts
    simp only [eval, ih]
  | .call _ arguments _ =>
    have ih := evalAll_congr ho arguments (by simpa [readsWhole] using hw) hs.parts
    simp only [eval, ih]
  | .list items _ =>
    have ih := evalAll_congr ho items (by simpa [readsWhole] using hw) hs.parts
    simp only [eval, ih]

theorem evalAll_congr (ho : ∀ s, s ≠ r → ctx.value s = ctx'.value s) (es : List Expr)
    (hw : anyReadsWhole r es = false)
    (hs : SameReads r (ctx.value r) (ctx'.value r) (subtermsOfAll es)) :
    evalAll ctx es = evalAll ctx' es := by
  match es with
  | [] => rfl
  | e :: rest =>
    have hw' : e.readsWhole r = false ∧ anyReadsWhole r rest = false := by
      simpa [anyReadsWhole] using hw
    have ihe := eval_congr ho e hw'.1 hs.left
    have ihr := evalAll_congr ho rest hw'.2 hs.right
    simp only [evalAll, ihe, ihr]

/-- Both chains go on from the same operand and the same result so far. -/
theorem evalLinks_congr (ho : ∀ s, s ≠ r → ctx.value s = ctx'.value s)
    (links : List (CompareOp × Expr)) (hw : anyLinkReadsWhole r links = false)
    (hs : SameReads r (ctx.value r) (ctx'.value r) (subtermsOfLinks links))
    (result left : Value) : evalLinks ctx result left links = evalLinks ctx' result left links := by
  match links with
  | [] => rfl
  | (_, e) :: rest =>
    have hw' : e.readsWhole r = false ∧ anyLinkReadsWhole r rest = false := by
      simpa [anyLinkReadsWhole] using hw
    have ihe := eval_congr ho e hw'.1 hs.left
    have ihr := evalLinks_congr ho rest hw'.2 hs.right
    simp only [evalLinks, ihe, ihr]

end

/-- An expression that does not read a root as a whole has the same value, or the same error, in
two contexts that differ in that root only and agree on the fields taken from it. One that does
not use the root at all does not depend on it. -/
theorem eval_eq_of_same_references (e : Expr) (r : Root) (ctx ctx' : Context)
    (ho : ∀ s, s ≠ r → ctx.value s = ctx'.value s) :
    (e.readsWhole r = false →
        (∀ name ∈ e.references r, fieldOf (ctx.value r) name = fieldOf (ctx'.value r) name) →
        eval ctx e = eval ctx' e) ∧
      (e.uses r = false → eval ctx e = eval ctx' e) := by
  have reads (hw : e.readsWhole r = false)
      (hf : ∀ name ∈ e.references r, fieldOf (ctx.value r) name = fieldOf (ctx'.value r) name) :
      eval ctx e = eval ctx' e := by
    apply eval_congr ho e hw
    intro t ht name ha
    exact hf name (mem_references.mpr ⟨t, ht, ha⟩)
  refine ⟨reads, ?_⟩
  intro hu
  apply reads (readsWhole_of_not_uses hu)
  simp [references_of_not_uses hu]

/-- The fields of an object and the entries of a map are read alike, in brackets as after a point,
and what else the two hold does not matter. -/
theorem eval_eq_of_same_limit :
    let limit := Expr.index (.root .block default) (.literal (.string "limit") default) default
    let e := Expr.compare limit [(.gt, .root .this default)] default
    let ctx : Context := ⟨.int 3, .object "Range" [("limit", .int 5)], .null⟩
    let ctx' : Context := ⟨.int 3, .map [("limit", .int 5), ("unit", .string "m")], .null⟩
    (∀ s, s ≠ .block → ctx.value s = ctx'.value s) ∧ e.readsWhole .block = false ∧
      e.references .block = ["limit"] ∧ eval ctx e = eval ctx' e := by
  intro limit e ctx ctx'
  have ho : ∀ s, s ≠ .block → ctx.value s = ctx'.value s := by
    intro s hs
    cases s with
    | block => exact absurd rfl hs
    | _ => rfl
  have hr : e.references .block = ["limit"] := by decide
  refine ⟨ho, rfl, hr, (eval_eq_of_same_references e .block ctx ctx' ho).1 rfl ?_⟩
  intro name hn
  rw [hr, List.mem_singleton] at hn
  rw [hn]
  rfl

end RecordCheck.Eval
