import RecordCheck.Expr.Formula
import RecordCheck.Proofs.Eval.Calls

/-! Which expressions are formulas: those without a wrong call. They evaluate to no wrong call
either. -/

namespace RecordCheck

open Results

/-- A call that is wrong by itself: no function has the name, or none takes so many arguments. The
error is at the call. -/
inductive Expr.Miscall : Expr → SyntaxError → Prop where
  | unknown {name arguments span} (h : arityOf? name = none) :
      Miscall (.call name arguments span) ⟨.unknownFunction name, span⟩
  | arity {name arguments span a} (h : arityOf? name = some a)
      (ha : a.accepts arguments.length = false) :
      Miscall (.call name arguments span) ⟨.wrongArity name a arguments.length, span⟩

/-- None of some expressions is a wrong call. -/
def Expr.CallsFit (es : List Expr) : Prop := ∀ e ∈ es, ∀ err, ¬ e.Miscall err

namespace Expr.CallsFit

variable {e : Expr} {es es' : List Expr}

theorem parts (h : CallsFit (e :: es)) : CallsFit es :=
  fun t ht => h t (List.mem_cons_of_mem e ht)

theorem left (h : CallsFit (es ++ es')) : CallsFit es :=
  fun t ht => h t (List.mem_append_left es' ht)

theorem right (h : CallsFit (es ++ es')) : CallsFit es' :=
  fun t ht => h t (List.mem_append_right es ht)

end Expr.CallsFit

namespace Formula

open RecordCheck.Expr

theorem callError?_eq_some_iff {e : Expr} {err : SyntaxError} :
    callError? e = some err ↔ e.Miscall err := by
  constructor
  · intro h
    cases e with
    | call name arguments span =>
      simp only [callError?] at h
      split at h
      next hn =>
        cases h
        exact .unknown hn
      next a hs =>
        split at h
        next => cases h
        next ha =>
          cases h
          exact .arity hs (by simpa using ha)
    | _ => cases h
  · intro h
    cases h with
    | unknown hn => simp only [callError?, hn]
    | arity hs ha => simp only [callError?, hs, ha, Bool.false_eq_true, if_false]

theorem callError?_eq_none_iff {e : Expr} : callError? e = none ↔ ∀ err, ¬ e.Miscall err := by
  simp only [Option.eq_none_iff_forall_ne_some, ne_eq, callError?_eq_some_iff]

/-- The first wrong call is one with only right ones before it. -/
theorem firstCallError?_eq_some_iff {e : Expr} {err : SyntaxError} :
    firstCallError? e = some err ↔
      ∃ before t after, e.subterms = before ++ t :: after ∧ CallsFit before ∧ t.Miscall err := by
  simp only [firstCallError?, List.findSome?_eq_some_iff, callError?_eq_some_iff,
    callError?_eq_none_iff, CallsFit]
  constructor
  · intro h
    obtain ⟨before, t, after, he, ht, hb⟩ := h
    exact ⟨before, t, after, he, hb, ht⟩
  · intro h
    obtain ⟨before, t, after, he, hb, ht⟩ := h
    exact ⟨before, t, after, he, ht, hb⟩

theorem firstCallError?_eq_none_iff {e : Expr} :
    firstCallError? e = none ↔ CallsFit e.subterms := by
  simp only [firstCallError?, List.findSome?_eq_none_iff, callError?_eq_none_iff, CallsFit]

end Formula

/-! ### Evaluation -/

namespace Eval

open RecordCheck.Expr

theorem length_evalAll {ctx : Context} {es : List Expr} {vs : List Value}
    (h : evalAll ctx es = .ok vs) : vs.length = es.length := by
  induction es generalizing vs with
  | nil =>
    cases h
    rfl
  | cons e rest ih =>
    simp only [evalAll, bind_eq_ok, pure_eq_ok] at h
    obtain ⟨v, -, ws, hw, rfl⟩ := h
    rw [List.length_cons, List.length_cons, ih hw]

/-- A call with as many arguments as the function takes. -/
theorem wellCalled_call_of_fits {name : String} {arguments : List Expr} {span : Span}
    {vs : List Value} (h : ∀ err, ¬ (Expr.call name arguments span).Miscall err)
    (hl : vs.length = arguments.length) : WellCalled (call name vs) := by
  cases ha : arityOf? name with
  | none => exact absurd (.unknown ha) (h _)
  | some a =>
    cases hn : a.accepts arguments.length with
    | false => exact absurd (.arity ha hn) (h _)
    | true => exact wellCalled_call ha (by rwa [hl])

mutual

theorem wellCalled_eval (ctx : Context) (e : Expr) (h : CallsFit e.subterms) :
    WellCalled (eval ctx e) := by
  match e with
  | .literal _ _ => exact wellCalled_ok _
  | .root _ _ => exact wellCalled_ok _
  | .field base name _ =>
    have ih := wellCalled_eval ctx base (h.parts)
    exact ih.bind fun v => wellCalled_fieldOf v name
  | .index base i _ =>
    have ihb := wellCalled_eval ctx base h.parts.left
    have ihi := wellCalled_eval ctx i h.parts.right
    exact ihb.bind fun x => ihi.bind (wellCalled_indexOf x)
  | .binary op left right _ =>
    have ihl := wellCalled_eval ctx left h.parts.left
    have ihr := wellCalled_eval ctx right h.parts.right
    cases op with
    | and => exact ihl.bind fun x => wellCalled_connective .and false x ihr
    | or => exact ihl.bind fun x => wellCalled_connective .or true x ihr
    | add | sub | mul | div | mod | isIn | notIn =>
      exact ihl.bind fun x => ihr.bind (wellCalled_binary _ x)
  | .compare first links _ =>
    have ihf := wellCalled_eval ctx first h.parts.left
    exact ihf.bind (wellCalled_evalLinks ctx links h.parts.right _)
  | .unary op operand _ =>
    have ih := wellCalled_eval ctx operand h.parts
    exact ih.bind (wellCalled_unary op)
  | .matches operand pattern _ =>
    have ih := wellCalled_eval ctx operand h.parts
    exact ih.bind (wellCalled_matchPattern pattern)
  | .call name arguments span =>
    have ih := wellCalled_evalAll ctx arguments h.parts
    intro err he
    simp only [eval, bind_eq_error] at he
    rcases he with he | ⟨vs, hvs, he⟩
    · exact ih err he
    · exact wellCalled_call_of_fits (h _ (List.mem_cons_self ..)) (length_evalAll hvs) err he
  | .list items _ =>
    have ih := wellCalled_evalAll ctx items h.parts
    exact ih.bind fun vs => wellCalled_ok _

theorem wellCalled_evalAll (ctx : Context) (es : List Expr) (h : CallsFit (subtermsOfAll es)) :
    WellCalled (evalAll ctx es) := by
  match es with
  | [] => exact wellCalled_ok _
  | e :: rest =>
    have ihe := wellCalled_eval ctx e h.left
    have ihr := wellCalled_evalAll ctx rest h.right
    exact ihe.bind fun v => ihr.bind fun vs => wellCalled_ok _

theorem wellCalled_evalLinks (ctx : Context) (links : List (CompareOp × Expr))
    (h : CallsFit (subtermsOfLinks links)) (result left : Value) :
    WellCalled (evalLinks ctx result left links) := by
  match links with
  | [] => exact wellCalled_ok _
  | (op, e) :: rest =>
    have ihe := wellCalled_eval ctx e h.left
    have ihr := wellCalled_evalLinks ctx rest h.right
    refine ihe.bind fun right => (wellCalled_compare op left right).bind fun v => ?_
    split
    · exact wellCalled_ok _
    · exact ihr _ _
    · exact ihr _ _

end

theorem wellCalled_holds? {ctx : Context} {e : Expr} (h : CallsFit e.subterms) :
    WellCalled (holds? ctx e) := by
  refine (wellCalled_eval ctx e h).bind fun v => ?_
  split
  · exact wellCalled_ok _
  · exact wellCalled_ok _
  · exact wellCalled_error.mpr rfl

end Eval

/-! ### Formulas -/

namespace Formula

open RecordCheck.Expr

/-- A source without braces around it is parsed as it stands. -/
theorem blankBraces_eq_self {text : List Char} (h : unwrapped? (Text.trim text) = none) :
    blankBraces text = text := by
  simp only [blankBraces, h]

theorem compile_of_parse {source : String} {e : Expr}
    (hp : Expr.parse (String.ofList (blankBraces source.toList)) = .ok e) :
    compile source =
      match firstCallError? e with
      | some err => .error err
      | none => .ok ⟨String.ofList (Text.trim source.toList), e⟩ := by
  simp only [compile, hp, ok_bind]
  cases firstCallError? e <;> rfl

/-- An expression becomes a formula if none of its calls is wrong. -/
theorem exists_compile_iff {source : String} {e : Expr}
    (hp : Expr.parse (String.ofList (blankBraces source.toList)) = .ok e) :
    (∃ f, compile source = .ok f) ↔ CallsFit e.subterms := by
  rw [← firstCallError?_eq_none_iff, compile_of_parse hp]
  cases firstCallError? e <;> simp

theorem compile_eq_error_iff {source : String} {e : Expr} {err : SyntaxError}
    (hp : Expr.parse (String.ofList (blankBraces source.toList)) = .ok e) :
    compile source = .error err ↔
      ∃ before t after, e.subterms = before ++ t :: after ∧ CallsFit before ∧ t.Miscall err := by
  rw [← firstCallError?_eq_some_iff, compile_of_parse hp]
  cases firstCallError? e <;> simp

theorem callsFit_of_compile {source : String} {f : Formula} (h : compile source = .ok f) :
    CallsFit f.expr.subterms := by
  simp only [compile, bind_eq_ok] at h
  obtain ⟨e, -, h⟩ := h
  split at h
  next => simp at h
  next hn =>
    rw [pure_eq_ok] at h
    subst h
    exact firstCallError?_eq_none_iff.mp hn

/-- Calls are checked before anything is evaluated, and as evaluation would find them. First, a
call by a name fails for its name or for the number of its arguments exactly if the table of
arities says so, whatever the arguments are. Then, an expression becomes a formula exactly if no
call in it is of that kind, and else the first such call is reported. So a formula has no such
failure in any context. For a source without braces around it, the text that is parsed is the
source itself. -/
theorem compile_agrees_with_calls :
    (∀ name arguments,
      ((∃ found, Eval.call name arguments = .error (.unknownFunction found)) ↔
        arityOf? name = none) ∧
      ((∃ found expected n, Eval.call name arguments = .error (.arity found expected n)) ↔
        ∃ a, arityOf? name = some a ∧ a.accepts arguments.length = false)) ∧
    (∀ source e, Expr.parse (String.ofList (blankBraces source.toList)) = .ok e →
      ((∃ f, compile source = .ok f) ↔ ∀ t ∈ e.subterms, ∀ err, ¬ t.Miscall err) ∧
      ∀ err, compile source = .error err ↔
        ∃ before t after, e.subterms = before ++ t :: after ∧
          (∀ u ∈ before, ∀ other, ¬ u.Miscall other) ∧ t.Miscall err) ∧
    ∀ source f, compile source = .ok f → ∀ ctx,
      (∀ err, Eval.eval ctx f.expr = .error err → err.isMiscall = false) ∧
      ∀ err, Eval.holds? ctx f.expr = .error err → err.isMiscall = false := by
  refine ⟨fun name arguments => ⟨?_, ?_⟩, fun source e hp => ?_, fun source f hf ctx => ?_⟩
  · simp only [Eval.call_eq_unknownFunction_iff, exists_and_left, exists_eq, and_true]
  · simp only [Eval.call_eq_arity_iff]
    constructor
    · intro h
      obtain ⟨_, _, _, a, ha, hn, -⟩ := h
      exact ⟨a, ha, hn⟩
    · intro h
      obtain ⟨a, ha, hn⟩ := h
      exact ⟨_, _, _, a, ha, hn, rfl, rfl, rfl⟩
  · exact ⟨exists_compile_iff hp, fun err => compile_eq_error_iff hp⟩
  · have hfit := callsFit_of_compile hf
    exact ⟨Eval.wellCalled_eval ctx f.expr hfit, Eval.wellCalled_holds? hfit⟩

/-- Of two wrong calls, one with a piped argument and one inside a list, the first is reported,
and the numbers of its arguments fit no values. -/
theorem exists_first_miscall :
    let source := "this|Length(1) > 0 or [frobnicate(this)] == []"
    ∃ e err, Expr.parse (String.ofList (blankBraces source.toList)) = .ok e ∧
      compile source = .error err ∧ err.fault = .wrongArity "Length" (.exactly 1) 2 ∧
      (∃ before t after, e.subterms = before ++ t :: after ∧
        (∀ u ∈ before, ∀ other, ¬ u.Miscall other) ∧ t.Miscall err) ∧
      ∀ v w, ∃ found expected n, Eval.call "Length" [v, w] = .error (.arity found expected n) := by
  intro source
  have hs : unwrapped? (Text.trim source.toList) = none := by decide +kernel
  have hc : failsWith (fun err => err.fault = .wrongArity "Length" (.exactly 1) 2)
      (compile source) = true := by
    decide +kernel
  obtain ⟨err, he, hf⟩ := failsWith_iff.mp hc
  have hp : (Expr.parse source).isOk = true := by decide +kernel
  obtain ⟨e, hp⟩ := isOk_iff.mp hp
  have hp : Expr.parse (String.ofList (blankBraces source.toList)) = .ok e := by
    rw [blankBraces_eq_self hs, String.ofList_toList, hp]
  refine ⟨e, err, hp, he, by simpa using hf, ?_, fun v w => ?_⟩
  · exact ((compile_agrees_with_calls.2.1 source e hp).2 err).mp he
  · apply (compile_agrees_with_calls.1 "Length" [v, w]).2.mpr
    exact ⟨.exactly 1, by decide +kernel, rfl⟩

end Formula

end RecordCheck
