import RecordCheck.Proofs.Schema.Building
import RecordCheck.Proofs.Validation.Acceptance
import RecordCheck.Proofs.Validation.Relocation

/-! The depth limit. A validation that ends at the limit does so one step beyond it; it goes no
deeper than the value does, whatever the classes of the schema refer to; and a limit that is not
reached does not matter. -/

namespace RecordCheck

open Results

namespace Value

mutual

/-- How far the parts of a value lie inside. -/
def height : Value → Nat
  | list items => 1 + heightOfItems items
  | map entries => 1 + heightOfEntries entries
  | object _ fields => 1 + heightOfEntries fields
  | _ => 0

/-- The greatest height of some values. -/
def heightOfItems : List Value → Nat
  | [] => 0
  | v :: rest => max (height v) (heightOfItems rest)

def heightOfEntries : List (String × Value) → Nat
  | [] => 0
  | (_, v) :: rest => max (height v) (heightOfEntries rest)

end

theorem height_le_heightOfItems {items : List Value} {v : Value} (h : v ∈ items) :
    v.height ≤ heightOfItems items := by
  induction items with
  | nil => cases h
  | cons u rest ih =>
    rw [heightOfItems]
    rcases List.mem_cons.mp h with rfl | h
    · exact Nat.le_max_left ..
    · exact Nat.le_trans (ih h) (Nat.le_max_right ..)

theorem height_le_heightOfEntries {entries : List (String × Value)} {v : Value}
    (h : v ∈ entries.map (·.2)) : v.height ≤ heightOfEntries entries := by
  induction entries with
  | nil => cases h
  | cons entry rest ih =>
    rw [heightOfEntries]
    rcases List.mem_cons.mp h with rfl | h
    · exact Nat.le_max_left ..
    · exact Nat.le_trans (ih h) (Nat.le_max_right ..)

/-- The value of a declared field lies less deep than the object, also where it is absent. -/
theorem height_of_fieldValue? {name : String} {fields : List (String × Value)} {f : Field}
    {u : Value} (h : Validation.fieldValue? fields f = some u) :
    u.height + 1 ≤ (object name fields).height := by
  rw [height, Nat.add_comm]
  rcases Validation.fieldValue?_mem h with hp | rfl
  · exact Nat.add_le_add_left (height_le_heightOfEntries hp) 1
  · exact Nat.le_add_right 1 _

end Value

/-- The error is an end at the depth limit. -/
def ValidationError.isDepthExceeded : ValidationError → Bool
  | depthExceeded _ _ => true
  | _ => false

namespace Validation

/-- An end at the depth limit is one step beyond it, and at a depth of no more than `n`. -/
inductive EndsBy (w : Validation) (n : Nat) {α : Type} : Except ValidationError α → Prop where
  | ok (a : α) : EndsBy w n (.ok a)
  | other {e : ValidationError} (h : ∀ place limit, e ≠ .depthExceeded place limit) :
      EndsBy w n (.error e)
  | limit {place : Path} (hd : place.depth = w.settings.maxDepth + 1) (hn : place.depth ≤ n) :
      EndsBy w n (.error (.depthExceeded place w.settings.maxDepth))

variable {w : Validation} {path : Path} {type : FieldType} {n : Nat} {α β : Type}

namespace EndsBy

variable {x : Except ValidationError α}

theorem mismatch (path : Path) (expected found : String) :
    EndsBy w n (Validation.mismatch (α := α) path expected found) :=
  .other fun _ _ h => by cases h

theorem bind {f : α → Except ValidationError β} (h : EndsBy w n x)
    (hf : ∀ a, x = .ok a → EndsBy w n (f a)) : EndsBy w n (x >>= f) := by
  cases h with
  | ok a => exact hf a rfl
  | other h => exact .other h
  | limit hd hn => exact .limit hd hn

theorem mapM {xs : List α} {f : α → Except ValidationError β} (hf : ∀ a ∈ xs, EndsBy w n (f a)) :
    EndsBy w n (xs.mapM f) := by
  induction xs with
  | nil => exact .ok []
  | cons a rest ih =>
    obtain ⟨ha, hr⟩ := List.forall_mem_cons.mp hf
    rw [List.mapM_cons]
    exact ha.bind fun b _ => (ih hr).bind fun bs _ => .ok (b :: bs)

theorem eq_of_depthExceeded {place : Path} {l : Nat}
    (h : EndsBy w n (α := α) (.error (.depthExceeded place l))) :
    l = w.settings.maxDepth ∧ place.depth = w.settings.maxDepth + 1 ∧ place.depth ≤ n := by
  cases h with
  | other h => exact absurd rfl (h place l)
  | limit hd hn => exact ⟨rfl, hd, hn⟩

end EndsBy

theorem endsBy_runAll (settings : Settings) (ctx : Eval.Context) (ks : List Constraint) :
    EndsBy w n (settings.runAll path ctx ks) := by
  induction ks with
  | nil => exact .ok []
  | cons k rest ih =>
    refine EndsBy.bind ?_ fun outcome _ => ih.bind fun outcomes _ => .ok _
    simp only [Settings.runConstraint]
    split
    · exact .other fun _ _ h => by cases h
    · exact .ok _
    · exact .other fun _ _ h => by cases h
    · exact .ok _

theorem endsBy_enter (hd : path.depth ≤ w.settings.maxDepth + 1) (hn : path.depth ≤ n)
    (v : Value) : EndsBy w n (w.enter path type v) := by
  refine EndsBy.bind ?_ fun _ _ => ?_
  · unfold checkDepth
    split
    next hlt => exact .limit (Nat.le_antisymm hd hlt) hn
    next => exact .ok _
  · unfold alternative
    split
    · split
      · exact .ok _
      · exact .mismatch ..
    · split
      · exact .ok _
      · exact .mismatch ..
    · exact .ok _

theorem depth_le_of_enter {v : Value} {a : FieldType} (h : w.enter path type v = .ok a) :
    path.depth ≤ w.settings.maxDepth := by
  obtain ⟨_, hd, -⟩ := bind_eq_ok.mp h
  exact checkDepth_eq_ok.mp hd

theorem endsBy_leaf (v : Value) : EndsBy w n (w.leaf path type v) := by
  unfold leaf
  split
  all_goals first
    | exact .mismatch ..
    | split <;> first | exact .ok _ | exact .mismatch .. | exact .other fun _ _ h => by cases h

/-! ### Layers -/

theorem endsBy_visitItems {items : List Value}
    (h : ∀ v ∈ items, ∀ step, EndsBy w n (visit w v (path.push step) type)) (i : Nat) :
    EndsBy w n (visitItems w items path type i) := by
  induction items generalizing i with
  | nil => exact .ok []
  | cons v rest ih =>
    obtain ⟨hv, hr⟩ := List.forall_mem_cons.mp h
    simp only [visitItems]
    exact (hv _).bind fun node _ => (ih hr (i + 1)).bind fun nodes _ => .ok _

theorem endsBy_visitEntries {entries : List (String × Value)} (key : FieldType)
    (h : ∀ v ∈ entries.map (·.2), ∀ step, EndsBy w n (visit w v (path.push step) type)) :
    EndsBy w n (visitEntries w entries path key type) := by
  induction entries with
  | nil => exact .ok []
  | cons entry rest ih =>
    obtain ⟨k, v⟩ := entry
    obtain ⟨hv, hr⟩ := List.forall_mem_cons.mp h
    simp only [visitEntries]
    split
    · exact (hv _).bind fun node _ => (ih hr).bind fun nodes _ => .ok _
    · exact EndsBy.bind (.mismatch ..) fun _ h => by cases h

theorem endsBy_visitObject (c : OrderedClass) {fields : List (String × Value)}
    (h : ∀ f u, fieldValue? fields f = some u → ∀ step,
      EndsBy w n (visit w u (path.push step) f.type)) :
    EndsBy w n (w.visitObject path c fields (visits w fields)) := by
  refine EndsBy.bind (EndsBy.mapM fun f _ => ?_) fun nodes _ =>
    (endsBy_runAll ..).bind fun checks _ => .ok _
  rw [visitField_eq]
  cases hu : fieldValue? fields f with
  | none => exact .mismatch ..
  | some u =>
    exact (h f u hu _).bind fun node _ =>
      (endsBy_runAll ..).bind fun checks _ => .ok _

/-! ### Values -/

/-- A visit goes no deeper than the value. -/
theorem endsBy_visit (v : Value) (hd : path.depth ≤ w.settings.maxDepth + 1)
    (hn : path.depth + v.height ≤ n) : EndsBy w n (visit w v path type) := by
  induction v using Value.induction_parts_null generalizing path type with
  | h v ih hnull =>
    have entered : EndsBy w n (w.enter path type v) :=
      endsBy_enter hd (Nat.le_trans (Nat.le_add_right ..) hn) v
    -- A part lies one step deeper and is not as high.
    have part {u : Value} (hu : ∀ {p : Path} {t : FieldType}, p.depth ≤ w.settings.maxDepth + 1 →
        p.depth + u.height ≤ n → EndsBy w n (visit w u p t)) (hle : u.height + 1 ≤ v.height)
        {a : FieldType} (ha : w.enter path type v = .ok a) (t : FieldType) (step : Step) :
        EndsBy w n (visit w u (path.push step) t) := by
      have := depth_le_of_enter ha
      exact hu (by rw [depth_push]; omega) (by rw [depth_push]; omega)
    cases v with
    | list items =>
      simp only [visit]
      refine entered.bind fun a ha => ?_
      split
      next item =>
        refine (endsBy_visitItems (fun u hu step => part (ih u hu) ?_ ha item step) 0).bind
          fun nodes _ => .ok _
        rw [Value.height, Nat.add_comm]
        exact Nat.add_le_add_left (Value.height_le_heightOfItems hu) 1
      next => exact endsBy_leaf _
    | map entries =>
      simp only [visit]
      refine entered.bind fun a ha => ?_
      split
      next key item =>
        refine (endsBy_visitEntries key fun u hu step => part (ih u hu) ?_ ha item step).bind
          fun nodes _ => .ok _
        rw [Value.height, Nat.add_comm]
        exact Nat.add_le_add_left (Value.height_le_heightOfEntries hu) 1
      next => exact endsBy_leaf _
    | object className fields =>
      simp only [visit]
      refine entered.bind fun a ha => ?_
      split
      next name =>
        split
        · exact .other fun _ _ h => by cases h
        · split
          · refine endsBy_visitObject _ fun f u hu step => part (fun {p t} => ?_)
              (Value.height_of_fieldValue? hu) ha f.type step
            rcases fieldValue?_mem hu with hp | rfl
            · exact ih u hp
            · exact hnull (by simp)
          · exact .mismatch ..
      next => exact endsBy_leaf _
    | _ => exact entered.bind fun a _ => endsBy_leaf _

end Validation

namespace Schema

open Validation

variable {schema : Schema} {settings : Settings} {type : FieldType} {v : Value}

theorem endsBy_validate (schema : Schema) (settings : Settings) (type : FieldType) (v : Value) :
    EndsBy ⟨schema, settings, v⟩ v.height (schema.validate settings type v) :=
  endsBy_visit v (Nat.zero_le _) (by simp [Path.depth])

theorem validate_ne_depthExceeded (h : v.height ≤ settings.maxDepth) (path : Path) (limit : Nat) :
    schema.validate settings type v ≠ .error (.depthExceeded path limit) := by
  intro he
  have hb := he ▸ schema.endsBy_validate settings type v
  obtain ⟨-, hd, hle⟩ := hb.eq_of_depthExceeded
  have : settings.maxDepth + 1 ≤ v.height := hd ▸ hle
  omega

theorem validate_withLimit {limit : Nat} (hl : settings.maxDepth ≤ limit)
    (h : ∀ path l, schema.validate settings type v ≠ .error (.depthExceeded path l)) :
    schema.validate (settings.withLimit limit) type v = schema.validate settings type v := by
  have hg : Relocates id settings.maxDepth limit :=
    ⟨fun _ _ => rfl, fun _ hd => Nat.le_trans hd hl⟩
  have hc : Carried id (schema.validate settings type v)
      (schema.validate (settings.withLimit limit) type v) :=
    carried_visit (w := ⟨schema, settings, v⟩) hg v ⟨type.rootName, []⟩ type
  rw [hc.eq_mapError h]
  cases schema.validate settings type v with
  | ok tree => rfl
  | error e => exact congrArg Except.error e.mapPath_id

/-- A validation that ends at the depth limit tells the limit and a place one step beyond it. A
limit of the height of the value is not reached, however the classes refer to each other; and where
the limit is not reached, a greater one gives the same result. -/
theorem depthExceeded_spec (schema : Schema) (settings : Settings) (type : FieldType) (v : Value) :
    (∀ path limit, schema.validate settings type v = .error (.depthExceeded path limit) →
      limit = settings.maxDepth ∧ path.steps.length = settings.maxDepth + 1) ∧
    (v.height ≤ settings.maxDepth → ∀ path limit,
      schema.validate settings type v ≠ .error (.depthExceeded path limit)) ∧
    ∀ limit, settings.maxDepth ≤ limit →
      (∀ path l, schema.validate settings type v ≠ .error (.depthExceeded path l)) →
        schema.validate (settings.withLimit limit) type v =
          schema.validate settings type v := by
  refine ⟨fun path limit he => ?_, validate_ne_depthExceeded, fun limit => validate_withLimit⟩
  have hb := he ▸ schema.endsBy_validate settings type v
  obtain ⟨hl, hd, -⟩ := hb.eq_of_depthExceeded
  exact ⟨hl, hd⟩

/-- A class that refers to itself, and an object with another one inside. A limit of one refuses
the parts of the inner one, two steps inside, and a limit of two allows them as any greater one
does. -/
theorem exists_depthExceeded :
    let node : ClassDecl := ⟨"Node", [⟨"value", .int, []⟩,
      ⟨"next", .optional (.class "Node"), []⟩], []⟩
    let v : Value :=
      .object "Node" [("value", .int 1), ("next", .object "Node" [("value", .int 2)])]
    ∃ schema path limit tree, Schema.ofDeclarations [.class node] = .ok schema ∧
      schema.validate (Settings.mk 1 false true) (.class "Node") v =
        .error (.depthExceeded path limit) ∧
      limit = 1 ∧ path.steps.length = 2 ∧ v.height ≤ 2 ∧
      (∀ p l, schema.validate (Settings.mk 2 false true) (.class "Node") v ≠
        .error (.depthExceeded p l)) ∧
      schema.validate (Settings.mk 2 false true) (.class "Node") v = .ok tree ∧
      schema.validate (Settings.mk 128 false true) (.class "Node") v = .ok tree := by
  intro node v
  have hv : (Schema.ofDeclarations [.class node]).toOption.any (fun schema =>
      failsWith (·.isDepthExceeded)
          (schema.validate (Settings.mk 1 false true) (.class "Node") v) &&
        (schema.validate (Settings.mk 2 false true) (.class "Node") v).isOk) = true := by
    decide +kernel
  obtain ⟨schema, hs, hall⟩ := toOption_any_iff.mp hv
  obtain ⟨hfail, hok⟩ := Bool.and_eq_true_iff.mp hall
  obtain ⟨e, he, hdeep⟩ := failsWith_iff.mp hfail
  obtain ⟨tree, ht⟩ := isOk_iff.mp hok
  cases e with
  | depthExceeded path limit =>
    have hle : v.height ≤ 2 := by decide +kernel
    have small := (depthExceeded_spec schema (Settings.mk 1 false true) (.class "Node") v).1 _ _ he
    have large := (depthExceeded_spec schema (Settings.mk 2 false true) (.class "Node") v).2
    have never := large.1 hle
    exact ⟨schema, path, limit, tree, hs, he, small.1, small.2, hle, never, ht,
      (large.2 128 (by decide) never).trans ht⟩
  | _ => cases hdeep

end Schema

end RecordCheck
