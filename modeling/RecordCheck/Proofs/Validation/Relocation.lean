import RecordCheck.Proofs.Validation.Congruence

/-! Visits at other places and under other depth limits. A visit gives the same tree wherever it
starts, and the same error seen from there, unless it ends at the depth limit. -/

namespace RecordCheck

open Validation

/-! ### Errors elsewhere -/

namespace ValidationError

/-- The error at another place. -/
def mapPath (g : Path → Path) : ValidationError → ValidationError
  | assertionFailed constraint path expression => assertionFailed constraint (g path) expression
  | evaluation constraint path expression e => evaluation constraint (g path) expression e
  | typeMismatch path expected found => typeMismatch (g path) expected found
  | unknownClass name => unknownClass name
  | depthExceeded path limit => depthExceeded (g path) limit

theorem mapPath_id (e : ValidationError) : e.mapPath id = e := by
  cases e <;> rfl

end ValidationError

/-- The second result is the first one with its error at another place, unless the first one is an
end at the depth limit. -/
inductive Carried (g : Path → Path) {α : Type} :
    Except ValidationError α → Except ValidationError α → Prop where
  | ok (a : α) : Carried g (.ok a) (.ok a)
  | error (e : ValidationError) : Carried g (.error e) (.error (e.mapPath g))
  | tooDeep (path : Path) (limit : Nat) (y : Except ValidationError α) :
      Carried g (.error (.depthExceeded path limit)) y

namespace Carried

variable {g : Path → Path} {α β : Type} {x y : Except ValidationError α}

theorem bind {f f' : α → Except ValidationError β} (h : Carried g x y)
    (hf : ∀ a, Carried g (f a) (f' a)) : Carried g (x >>= f) (y >>= f') := by
  cases h with
  | ok a => exact hf a
  | error e => exact .error e
  | tooDeep path limit => exact .tooDeep path limit _

theorem mapM {xs : List α} {f f' : α → Except ValidationError β}
    (hf : ∀ a ∈ xs, Carried g (f a) (f' a)) : Carried g (xs.mapM f) (xs.mapM f') := by
  induction xs with
  | nil => exact .ok []
  | cons a rest ih =>
    obtain ⟨ha, hr⟩ := List.forall_mem_cons.mp hf
    rw [List.mapM_cons, List.mapM_cons]
    exact ha.bind fun b => (ih hr).bind fun bs => .ok (b :: bs)

theorem eq_mapError (h : Carried g x y)
    (hx : ∀ path limit, x ≠ .error (.depthExceeded path limit)) : y = x.mapError (·.mapPath g) := by
  cases h with
  | ok | error => rfl
  | tooDeep path limit => exact absurd rfl (hx path limit)

end Carried

/-- A change of places that keeps the steps beyond a place, where a limit of `n` becomes one of
`m`. -/
structure Relocates (g : Path → Path) (n m : Nat) : Prop where
  push : ∀ path step, g (path.push step) = (g path).push step
  depth_le : ∀ path : Path, path.depth ≤ n → (g path).depth ≤ m

/-- The settings with another depth limit. -/
def Settings.withLimit (settings : Settings) (limit : Nat) : Settings :=
  { settings with maxDepth := limit }

namespace Validation

/-- The validation with another depth limit. -/
def withLimit (w : Validation) (limit : Nat) : Validation :=
  { w with settings := w.settings.withLimit limit }

variable {w : Validation} {g : Path → Path} {limit : Nat} {path : Path} {type : FieldType}

/-! ### One place -/

theorem carried_mismatch {α : Type} (expected found : String) :
    Carried g (mismatch (α := α) path expected found) (mismatch (g path) expected found) :=
  .error _

theorem carried_runAll (settings : Settings) (ctx : Eval.Context) (ks : List Constraint) :
    Carried g (settings.runAll path ctx ks)
      ((settings.withLimit limit).runAll (g path) ctx ks) := by
  induction ks with
  | nil => exact .ok []
  | cons k rest ih =>
    refine Carried.bind ?_ fun outcome => ih.bind fun outcomes => .ok _
    have he : (settings.withLimit limit).expression? k = settings.expression? k := rfl
    simp only [Settings.runConstraint, he]
    split
    · exact .error _
    · exact .ok _
    · exact .error _
    · exact .ok _

theorem carried_enter (hg : Relocates g w.settings.maxDepth limit) (v : Value) :
    Carried g (w.enter path type v) ((w.withLimit limit).enter (g path) type v) := by
  refine Carried.bind ?_ fun _ => ?_
  · by_cases hd : path.depth ≤ w.settings.maxDepth
    · rw [checkDepth_eq_ok.mpr hd, checkDepth_eq_ok.mpr (hg.depth_le path hd)]
      exact .ok ()
    · rw [checkDepth, if_pos (Nat.lt_of_not_le hd)]
      exact .tooDeep _ _ _
  · unfold alternative
    split
    · split
      · exact .ok _
      · exact carried_mismatch _ _
    · split
      · exact .ok _
      · exact carried_mismatch _ _
    · exact .ok _

theorem carried_leaf (v : Value) :
    Carried g (w.leaf path type v) ((w.withLimit limit).leaf (g path) type v) := by
  have hm (name variant : String) :
      (w.withLimit limit).isVariant name variant = w.isVariant name variant := rfl
  have hs : (w.withLimit limit).schema = w.schema := rfl
  simp only [leaf, hm, hs]
  split
  all_goals first
    | exact carried_mismatch _ _
    | split <;> first | exact .ok _ | exact carried_mismatch _ _ | exact .error _

/-! ### Layers -/

/-- The visit of a value gives the same at any place, for any type. -/
def CarriedVisit (w : Validation) (g : Path → Path) (limit : Nat) (v : Value) : Prop :=
  ∀ path type, Carried g (visit w v path type) (visit (w.withLimit limit) v (g path) type)

theorem carried_visitItems (hg : Relocates g w.settings.maxDepth limit) {items : List Value}
    (h : ∀ v ∈ items, CarriedVisit w g limit v) (i : Nat) :
    Carried g (visitItems w items path type i)
      (visitItems (w.withLimit limit) items (g path) type i) := by
  induction items generalizing i with
  | nil => exact .ok []
  | cons v rest ih =>
    obtain ⟨hv, hr⟩ := List.forall_mem_cons.mp h
    simp only [visitItems, ← hg.push]
    exact (hv _ _).bind fun node => (ih hr (i + 1)).bind fun nodes => .ok _

theorem carried_visitEntries (hg : Relocates g w.settings.maxDepth limit) (key : FieldType)
    {entries : List (String × Value)} (h : ∀ v ∈ entries.map (·.2), CarriedVisit w g limit v) :
    Carried g (visitEntries w entries path key type)
      (visitEntries (w.withLimit limit) entries (g path) key type) := by
  induction entries with
  | nil => exact .ok []
  | cons entry rest ih =>
    obtain ⟨k, v⟩ := entry
    obtain ⟨hv, hr⟩ := List.forall_mem_cons.mp h
    have hk : (w.withLimit limit).acceptsKey key k = w.acceptsKey key k := rfl
    simp only [visitEntries, ← hg.push, hk]
    split
    · exact (hv _ _).bind fun node => (ih hr).bind fun nodes => .ok _
    · exact .error _

theorem carried_visitField (hg : Relocates g w.settings.maxDepth limit) (block : Value)
    {fields : List (String × Value)} (f : Field)
    (h : ∀ u, fieldValue? fields f = some u → CarriedVisit w g limit u) :
    Carried g (w.visitField path block fields (visits w fields) f)
      ((w.withLimit limit).visitField (g path) block fields (visits (w.withLimit limit) fields)
        f) := by
  rw [visitField_eq, visitField_eq]
  simp only [← hg.push]
  cases hu : fieldValue? fields f with
  | none => exact carried_mismatch _ _
  | some u =>
    exact (h u hu _ _).bind fun node =>
      Carried.bind (carried_runAll w.settings _ _) fun checks => .ok _

theorem carried_visitObject (hg : Relocates g w.settings.maxDepth limit) (c : OrderedClass)
    {fields : List (String × Value)}
    (h : ∀ f u, fieldValue? fields f = some u → CarriedVisit w g limit u) :
    Carried g (w.visitObject path c fields (visits w fields))
      ((w.withLimit limit).visitObject (g path) c fields (visits (w.withLimit limit) fields)) :=
  Carried.bind (Carried.mapM fun f _ => carried_visitField hg _ f (h f)) fun _ =>
    Carried.bind (carried_runAll w.settings _ _) fun _ => .ok _

/-! ### Values -/

/-- A visit at another place and under another limit gives the same. -/
theorem carried_visit (hg : Relocates g w.settings.maxDepth limit) (v : Value) :
    CarriedVisit w g limit v := by
  induction v using Value.induction_parts_null with
  | h v ih hnull =>
    intro path type
    cases v with
    | list items =>
      simp only [visit]
      refine (carried_enter hg _).bind fun a => ?_
      split
      next item => exact (carried_visitItems hg ih 0).bind fun nodes => .ok _
      next => exact carried_leaf _
    | map entries =>
      simp only [visit]
      refine (carried_enter hg _).bind fun a => ?_
      split
      next key item => exact (carried_visitEntries hg key ih).bind fun nodes => .ok _
      next => exact carried_leaf _
    | object className fields =>
      have hfields (f : Field) (u : Value) (hu : fieldValue? fields f = some u) :
          CarriedVisit w g limit u := by
        rcases fieldValue?_mem hu with hp | rfl
        · exact ih u hp
        · exact hnull (by simp)
      simp only [visit]
      refine (carried_enter hg _).bind fun a => ?_
      have hs : (w.withLimit limit).schema = w.schema := rfl
      split
      next name =>
        simp only [hs]
        split
        · exact .error _
        · split
          · exact carried_visitObject hg _ hfields
          · exact carried_mismatch _ _
      next => exact carried_leaf _
    | _ => exact (carried_enter hg _).bind fun a => carried_leaf _

end Validation

end RecordCheck
