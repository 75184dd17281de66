import RecordCheck.Eval.Basic
import RecordCheck.Proofs.Results

/-! An expression whose parts have values is its operator, function or access on these values. -/

namespace RecordCheck.Eval

open Results

variable {ctx : Context} {x y : Expr} {v w : Value}

theorem eval_binary (hx : eval ctx x = .ok v) (hy : eval ctx y = .ok w) (op : BinaryOp) (s : Span) :
    eval ctx (.binary op x y s) = binary op v w := by
  cases op <;> simp only [eval, binary, hx, hy, ok_bind]

theorem eval_unary (hx : eval ctx x = .ok v) (op : UnaryOp) (s : Span) :
    eval ctx (.unary op x s) = unary op v := by
  simp only [eval, hx, ok_bind]

theorem eval_field (hx : eval ctx x = .ok v) (name : String) (s : Span) :
    eval ctx (.field x name s) = fieldOf v name := by
  simp only [eval, hx, ok_bind]

theorem eval_index (hx : eval ctx x = .ok v) (hy : eval ctx y = .ok w) (s : Span) :
    eval ctx (.index x y s) = indexOf v w := by
  simp only [eval, hx, hy, ok_bind]

/-- A call of a function on one argument, by whichever name. -/
theorem eval_call {name : String} {f : Intrinsic} (hf : Intrinsic.ofName? name = some f)
    (hx : eval ctx x = .ok v) (s : Span) : eval ctx (.call name [x] s) = apply name f [v] := by
  simp only [eval, evalAll, hx, ok_bind, pure, Except.pure, call, hf]

end RecordCheck.Eval
