import Mathlib.Data.List.Basic
import RecordCheck.Eval.Basic
import RecordCheck.Proofs.Results

/-! Which calls fail as calls, and which expressions have no such call. -/

namespace RecordCheck

open Results

/-- The error of a call by itself, whatever its arguments are: no function has the name, or none
takes that many arguments. -/
def EvalError.isMiscall : EvalError → Bool
  | unknownFunction _ => true
  | arity .. => true
  | _ => false

namespace Eval

variable {α β : Type}

/-- If the computation fails, then not by a wrong call. -/
def WellCalled (x : Result α) : Prop := ∀ e, x = .error e → e.isMiscall = false

@[simp] theorem wellCalled_ok (a : α) : WellCalled (.ok a) := by
  intro e he
  cases he

@[simp] theorem wellCalled_error {e : EvalError} :
    WellCalled (.error e : Result α) ↔ e.isMiscall = false := by
  simp [WellCalled]

@[simp] theorem wellCalled_typeError (fault : TypeFault) :
    WellCalled (typeError fault : Result α) := wellCalled_error.mpr rfl

theorem WellCalled.bind {x : Result α} {f : α → Result β} (hx : WellCalled x)
    (hf : ∀ a, WellCalled (f a)) : WellCalled (x >>= f) := by
  intro e he
  rcases bind_eq_error.mp he with he | ⟨a, -, he⟩
  · exact hx e he
  · exact hf a e he

theorem WellCalled.map {x : Result α} (hx : WellCalled x) (f : α → β) : WellCalled (x.map f) :=
  hx.bind fun a => wellCalled_ok (f a)

theorem wellCalled_mapM {f : α → Result β} (hf : ∀ a, WellCalled (f a)) (xs : List α) :
    WellCalled (xs.mapM f) := by
  induction xs with
  | nil => exact wellCalled_ok []
  | cons x xs ih =>
    rw [List.mapM_cons]
    exact (hf x).bind fun b => ih.bind fun bs => wellCalled_ok (b :: bs)

theorem wellCalled_foldlM {f : β → α → Result β} (hf : ∀ b a, WellCalled (f b a)) (b : β)
    (xs : List α) : WellCalled (xs.foldlM f b) := by
  induction xs generalizing b with
  | nil => exact wellCalled_ok b
  | cons x xs ih =>
    rw [List.foldlM_cons]
    exact (hf b x).bind ih

/-! ### Operators -/

theorem wellCalled_fit (n : Int) : WellCalled (fit n) := by
  unfold fit
  split <;> simp

theorem wellCalled_arithmetic {op : BinaryOp} {onInts : Int → Int → Result Value}
    {onFloats : Double → Double → Result Value} (hi : ∀ a b, WellCalled (onInts a b))
    (hf : ∀ a b, WellCalled (onFloats a b)) (x y : Value) :
    WellCalled (arithmetic op onInts onFloats x y) := by
  unfold arithmetic
  split
  · simp
  · simp
  · exact hi _ _
  · split
    · exact hf _ _
    · simp

theorem wellCalled_fieldOf (v : Value) (name : String) : WellCalled (fieldOf v name) := by
  unfold fieldOf
  split
  · split <;> simp [EvalError.isMiscall]
  · split <;> simp [EvalError.isMiscall]
  · simp
  · simp

theorem wellCalled_itemAt (items : List α) (i : Int64) : WellCalled (itemAt items i) := by
  simp only [itemAt]
  generalize (if i.toInt < 0 then (items.length : Int) + i.toInt else i.toInt) = position
  split
  · exact wellCalled_error.mpr rfl
  · split <;> simp [EvalError.isMiscall]

theorem wellCalled_indexOf (v i : Value) : WellCalled (indexOf v i) := by
  unfold indexOf
  split
  · exact (wellCalled_itemAt _ _).map _
  · simp
  · exact wellCalled_itemAt _ _
  · split
    · exact wellCalled_fieldOf _ _
    · simp
  · split
    · exact wellCalled_fieldOf _ _
    · simp
  · simp

theorem wellCalled_membership (needle haystack : Value) :
    WellCalled (membership needle haystack) := by
  unfold membership
  split
  all_goals first | exact wellCalled_ok _ | exact wellCalled_typeError _ | split <;> simp

theorem wellCalled_not (v : Value) : WellCalled (not v) := by
  unfold not
  split <;> simp

theorem wellCalled_truth (op : BinaryOp) (v : Value) : WellCalled (truth op v) := by
  unfold truth
  split <;> simp

theorem wellCalled_connective (op : BinaryOp) (decisive : Bool) (left : Value)
    {right : Result Value} (hr : WellCalled right) :
    WellCalled (connective op decisive left right) := by
  unfold connective
  refine (wellCalled_truth op left).bind fun a => ?_
  split
  · split
    · exact wellCalled_ok _
    · exact hr.bind fun v => (wellCalled_truth op v).bind fun b => wellCalled_ok _
  · refine hr.bind fun v => (wellCalled_truth op v).bind fun b => ?_
    split <;> exact wellCalled_ok _

theorem wellCalled_compare (op : CompareOp) (x y : Value) : WellCalled (compare op x y) := by
  unfold compare
  split
  · simp
  · simp
  · split
    · simp
    · split
      · simp
      · split <;> simp

theorem wellCalled_binary (op : BinaryOp) (x y : Value) : WellCalled (binary op x y) := by
  cases op with
  | add =>
    simp only [binary, add]
    split
    · simp
    · simp
    · exact wellCalled_arithmetic (fun a b => wellCalled_fit _) (fun a b => wellCalled_ok _) _ _
  | sub | mul =>
    exact wellCalled_arithmetic (fun a b => wellCalled_fit _) (fun a b => wellCalled_ok _) _ _
  | div =>
    simp only [binary, div]
    refine wellCalled_arithmetic (fun a b => ?_) (fun a b => ?_) _ _
    · split
      · exact wellCalled_error.mpr rfl
      · exact wellCalled_fit _
    · split
      · exact wellCalled_error.mpr rfl
      · exact wellCalled_ok _
  | mod =>
    simp only [binary, mod]
    split
    · simp
    · simp
    · split
      · exact wellCalled_error.mpr rfl
      · exact (wellCalled_fit _).bind fun _ => wellCalled_fit _
    · simp
  | and => exact wellCalled_connective _ _ _ (wellCalled_ok y)
  | or => exact wellCalled_connective _ _ _ (wellCalled_ok y)
  | isIn => exact wellCalled_membership _ _
  | notIn => exact (wellCalled_membership _ _).bind wellCalled_not

theorem wellCalled_unary (op : UnaryOp) (v : Value) : WellCalled (unary op v) := by
  cases op with
  | not => exact wellCalled_not v
  | neg =>
    simp only [unary, neg]
    split
    · simp
    · exact wellCalled_fit _
    · simp
    · simp

theorem wellCalled_matchPattern (pattern : Pattern) (v : Value) :
    WellCalled (matchPattern pattern v) := by
  unfold matchPattern
  split
  · simp
  · split <;> simp

/-! ### Functions -/

theorem wellCalled_listArgument (name : String) (v : Value) : WellCalled (listArgument name v) := by
  unfold listArgument
  split <;> simp

theorem wellCalled_mapText (name : String) (f : String → String) (v : Value) :
    WellCalled (mapText name f v) := by
  unfold mapText
  split
  · simp
  · split <;> simp

theorem wellCalled_testTexts (name : String) (f : String → String → Bool) (v w : Value) :
    WellCalled (testTexts name f v w) := by
  unfold testTexts
  split
  · simp
  · split <;> simp

theorem wellCalled_endOf (name : String) (pick : {α : Type} → List α → Option α) (v : Value) :
    WellCalled (endOf name pick v) := by
  unfold endOf
  split <;> simp

theorem wellCalled_length (v : Value) : WellCalled (length v) := by
  unfold length
  split
  · simp
  · split <;> simp

theorem wellCalled_regexMatch (v w : Value) : WellCalled (regexMatch v w) := by
  unfold regexMatch
  split
  · simp
  · split
    · exact wellCalled_error.mpr rfl
    · split
      · simp
      · split <;> simp

theorem wellCalled_pluck (name : String) (v w : Value) : WellCalled (pluck name v w) := by
  unfold pluck
  refine (wellCalled_listArgument name v).bind fun items => ?_
  split
  · simp
  · exact (wellCalled_mapM (fun item => wellCalled_fieldOf item _) items).bind
      fun vs => wellCalled_ok _

theorem wellCalled_sum (items : List Value) : WellCalled (sum items) := by
  refine wellCalled_foldlM (fun total item => ?_) _ items
  unfold sumStep
  split
  · exact wellCalled_fit _
  · split <;> simp

theorem wellCalled_extreme (name : String) (keep : Ordering) (items : List Value) :
    WellCalled (extreme name keep items) := by
  cases items with
  | nil => exact wellCalled_ok _
  | cons v rest =>
    refine wellCalled_foldlM (fun best item => ?_) v rest
    unfold better
    split <;> simp

theorem wellCalled_abs (v : Value) : WellCalled (abs v) := by
  unfold abs
  split
  · simp
  · exact wellCalled_fit _
  · simp
  · simp

theorem wellCalled_round (v : Value) : WellCalled (round v) := by
  unfold round
  split <;> simp

theorem wellCalled_roundPlaces (v digits : Value) : WellCalled (roundPlaces v digits) := by
  unfold roundPlaces
  split
  · split
    · simp
    · split <;> simp
  · simp

theorem wellCalled_keys (v : Value) : WellCalled (keys v) := by
  unfold keys
  split <;> simp

theorem wellCalled_values (v : Value) : WellCalled (values v) := by
  unfold values
  split <;> simp

/-- A function fails for the number of its arguments only if it does not take that many. -/
theorem wellCalled_apply {name : String} {f : Intrinsic} {arguments : List Value}
    (h : f.arity.accepts arguments.length = true) : WellCalled (apply name f arguments) := by
  match arguments with
  | [] => cases f <;> cases h
  | [v] =>
    cases f with
    | length => exact wellCalled_length v
    | lower | upper | trim => exact wellCalled_mapText _ _ v
    | unique => exact (wellCalled_listArgument name v).map _
    | sum => exact (wellCalled_listArgument name v).bind wellCalled_sum
    | abs => exact wellCalled_abs v
    | keys => exact wellCalled_keys v
    | values => exact wellCalled_values v
    | first | last => exact wellCalled_endOf _ _ v
    | isNull => exact wellCalled_ok _
    | round => exact wellCalled_round v
    | min | max => exact (wellCalled_listArgument name v).bind (wellCalled_extreme name _)
    | contains | startsWith | endsWith | regexMatch | pluck => cases h
  | [v, w] =>
    cases f with
    | contains => exact wellCalled_membership w v
    | startsWith | endsWith => exact wellCalled_testTexts _ _ v w
    | regexMatch => exact wellCalled_regexMatch v w
    | pluck => exact wellCalled_pluck name v w
    | round => exact wellCalled_roundPlaces v w
    | min => exact wellCalled_extreme name .lt [v, w]
    | max => exact wellCalled_extreme name .gt [v, w]
    | _ => cases h
  | v :: w :: u :: rest =>
    cases f with
    | min => exact wellCalled_extreme name .lt (v :: w :: u :: rest)
    | max => exact wellCalled_extreme name .gt (v :: w :: u :: rest)
    | _ => simp [Intrinsic.arity, Arity.accepts] at h

theorem apply_of_not_accepts {name : String} {f : Intrinsic} {arguments : List Value}
    (h : f.arity.accepts arguments.length = false) :
    apply name f arguments = .error (.arity name f.arity.text arguments.length) := by
  match arguments with
  | [] => cases f <;> rfl
  | [v] => cases f <;> first | rfl | cases h
  | [v, w] => cases f <;> first | rfl | cases h
  | v :: w :: u :: rest =>
    cases f with
    | min | max => simp [Intrinsic.arity, Arity.accepts] at h
    | _ => rfl

/-! ### Names -/

/-- The functions that can be called are those that calls are checked for, with the same numbers of
arguments. -/
theorem arityOf?_eq (name : String) :
    arityOf? name = (Intrinsic.ofName? name).map (·.arity) := by
  unfold arityOf? Intrinsic.ofName?
  generalize Text.lower name = lower
  unfold Intrinsic.ofLowerName?
  split
  case h_23 =>
    unfold arityOfLowerName?
    split <;> simp_all
  all_goals rfl

theorem call_of_arityOf?_none {name : String} (h : arityOf? name = none)
    (arguments : List Value) : call name arguments = .error (.unknownFunction name) := by
  rw [arityOf?_eq, Option.map_eq_none_iff] at h
  simp only [call, h]

theorem call_of_arityOf?_some {name : String} {arity : Arity} (h : arityOf? name = some arity) :
    ∃ f : Intrinsic, f.arity = arity ∧ call name = apply name f := by
  rw [arityOf?_eq, Option.map_eq_some_iff] at h
  obtain ⟨f, hf, ha⟩ := h
  refine ⟨f, ha, ?_⟩
  funext arguments
  simp only [call, hf]

theorem wellCalled_call {name : String} {arity : Arity} {arguments : List Value}
    (h : arityOf? name = some arity) (ha : arity.accepts arguments.length = true) :
    WellCalled (call name arguments) := by
  obtain ⟨f, rfl, hc⟩ := call_of_arityOf?_some h
  rw [hc]
  exact wellCalled_apply ha

theorem call_of_not_accepts {name : String} {arity : Arity} {arguments : List Value}
    (h : arityOf? name = some arity) (ha : arity.accepts arguments.length = false) :
    call name arguments = .error (.arity name arity.text arguments.length) := by
  obtain ⟨f, rfl, hc⟩ := call_of_arityOf?_some h
  rw [hc]
  exact apply_of_not_accepts ha

theorem call_eq_unknownFunction_iff {name found : String} {arguments : List Value} :
    call name arguments = .error (.unknownFunction found) ↔
      arityOf? name = none ∧ found = name := by
  cases h : arityOf? name with
  | none => simp [call_of_arityOf?_none h, eq_comm]
  | some arity =>
    cases ha : arity.accepts arguments.length with
    | false => simp [call_of_not_accepts h ha]
    | true =>
      simp only [reduceCtorEq, false_and, iff_false]
      intro he
      cases wellCalled_call h ha _ he

theorem call_eq_arity_iff {name found expected : String} {n : Nat} {arguments : List Value} :
    call name arguments = .error (.arity found expected n) ↔
      ∃ arity, arityOf? name = some arity ∧ arity.accepts arguments.length = false ∧
        found = name ∧ expected = arity.text ∧ n = arguments.length := by
  cases h : arityOf? name with
  | none => simp [call_of_arityOf?_none h]
  | some arity =>
    cases ha : arity.accepts arguments.length with
    | false =>
      rw [call_of_not_accepts h ha]
      constructor
      · intro he
        cases he
        exact ⟨arity, rfl, ha, rfl, rfl, rfl⟩
      · intro hx
        obtain ⟨_, hs, -, rfl, rfl, rfl⟩ := hx
        cases hs
        rfl
    | true =>
      simp only [Option.some.injEq, exists_eq_left', ha, reduceCtorEq, false_and, iff_false]
      intro he
      cases wellCalled_call h ha _ he

end Eval

end RecordCheck
