import RecordCheck.Proofs.Eval.Integers
import RecordCheck.Proofs.Expr.Braces
import RecordCheck.Proofs.Expr.Printer
import RecordCheck.Value.Text

/-! The texts of integers as expressions. A sign is an operator on the digits behind it, so every
integer is read back from its text but the least one, whose digits alone are too large. -/

namespace RecordCheck

open Results

/-! ### Values without places -/

namespace Eval

variable {ctx : Context}

mutual

/-- The value of an expression does not depend on its places in the text. -/
theorem eval_spanless (e : Expr) : eval ctx e.spanless = eval ctx e := by
  match e with
  | .literal _ _ | .root _ _ => rfl
  | .field base _ _ => simp only [Expr.spanless, eval, eval_spanless base]
  | .index base i _ => simp only [Expr.spanless, eval, eval_spanless base, eval_spanless i]
  | .binary op left right _ =>
    cases op <;> simp only [Expr.spanless, eval, eval_spanless left, eval_spanless right]
  | .compare first links _ =>
    simp only [Expr.spanless, eval, eval_spanless first, evalLinks_spanless links]
  | .unary _ operand _ => simp only [Expr.spanless, eval, eval_spanless operand]
  | .matches operand _ _ => simp only [Expr.spanless, eval, eval_spanless operand]
  | .call _ arguments _ => simp only [Expr.spanless, eval, evalAll_spanless arguments]
  | .list items _ => simp only [Expr.spanless, eval, evalAll_spanless items]

theorem evalAll_spanless (es : List Expr) :
    evalAll ctx (Expr.spanlessAll es) = evalAll ctx es := by
  match es with
  | [] => rfl
  | e :: rest => simp only [Expr.spanlessAll, evalAll, eval_spanless e, evalAll_spanless rest]

theorem evalLinks_spanless (links : List (CompareOp × Expr)) (result left : Value) :
    evalLinks ctx result left (Expr.spanlessLinks links) = evalLinks ctx result left links := by
  match links with
  | [] => rfl
  | (op, e) :: rest =>
    simp only [Expr.spanlessLinks, evalLinks, eval_spanless e, evalLinks_spanless rest]

end

end Eval

/-! ### Texts and values -/

/-- Spaces between any two tokens, but none behind a sign. -/
def Layout.signed : Layout where
  spaced
    | .symbol .minus, _ => false
    | _, _ => true
  apart k k' h := by
    split at h
    · exact fun _ _ => rfl
    · cases h

namespace Eval

open RecordCheck.Expr

/-- The text is an expression with the value, whatever the roots are. -/
def Denotes (text : String) (v : Value) : Prop :=
  ∃ e, Expr.parse text = .ok e ∧ ∀ ctx, eval ctx e = .ok v

theorem denotes_of_derives {e : Expr} {ks : List Token.Kind} {v : Value} (layout : Layout)
    (hks : ∀ k ∈ ks, k.Spellable) (hd : Derives (.expr .disjunction e) ks)
    (hv : ∀ ctx, eval ctx e = .ok v) : Denotes (String.ofList (layout.text ks)) v := by
  obtain ⟨tokens, htokens, rfl⟩ := Tokens.ofChars_text layout hks Mark.start
  obtain ⟨e', he', rfl⟩ := exists_ofTokens_of_derives hd
  refine ⟨e', ?_, fun ctx => ?_⟩
  · rw [Expr.parse, Tokens.ofText, String.toList_ofList, htokens, ok_bind, he']
  · rw [← eval_spanless, hv]

theorem derives_int (i : Int64) :
    Derives (.expr .primary (.literal (.int i) default)) [.int i] := .literal rfl

/-- The digits of an integer behind a sign. -/
theorem derives_negated (i : Int64) :
    Derives (.expr .signed (.unary .neg (.literal (.int i) default) default))
      [.symbol .minus, .int i] :=
  .unary rfl (.loosen (derives_int i) .signed (by decide))

theorem eval_int (i : Int64) (ctx : Context) :
    eval ctx (.literal (.int i) default) = .ok (.int i) := rfl

theorem eval_negated {i n : Int64} (h : i.toInt = -n.toInt) (ctx : Context) :
    eval ctx (.unary .neg (.literal (.int i) default) default) = .ok (.int n) := by
  rw [eval_unary (eval_int i ctx)]
  simp only [unary, neg, h, Int.neg_neg, fit_toInt]

/-! ### Texts of integers -/

variable {n : Int64}

theorem text_of_nonneg (h : 0 ≤ n.toInt) :
    (Value.int n).text = String.ofList (Decimal.digits n.toInt.toNat) := by
  change Int.repr n.toInt = _
  rw [Int.repr_eq_if, if_pos h, Nat.repr_eq_ofList_toDigits]
  rfl

theorem text_of_neg (h : n.toInt < 0) :
    (Value.int n).text = String.ofList ('-' :: Decimal.digits (-n.toInt).toNat) := by
  change Int.repr n.toInt = _
  rw [Int.repr_eq_if, if_neg (Int.not_le.mpr h), Nat.repr_eq_ofList_toDigits]
  exact (@String.ofList_append ['-'] _).symm

theorem spellable_int {i : Int64} (h : 0 ≤ i.toInt) : (Token.Kind.int i).Spellable :=
  Int64.le_iff_toInt_le.mpr h

theorem text_int (i : Int64) : Layout.signed.text [.int i] = Decimal.digits i.toInt.toNat :=
  List.append_nil _

theorem text_negated (i : Int64) :
    Layout.signed.text [.symbol .minus, .int i] = '-' :: Decimal.digits i.toInt.toNat :=
  congrArg ('-' :: ·) (List.append_nil _)

theorem denotes_of_nonneg (h : 0 ≤ n.toInt) : Denotes (Value.int n).text (.int n) := by
  rw [text_of_nonneg h, ← text_int]
  refine denotes_of_derives .signed ?_ ((derives_int n).loosen .disjunction (by decide))
    (eval_int n)
  simpa using spellable_int h

/-- A negative integer is read as the one without its sign, which is an integer as well unless the
negative one is the least. -/
theorem denotes_of_neg (h : n.toInt < 0) (hn : n ≠ Int64.minValue) :
    Denotes (Value.int n).text (.int n) := by
  have hmin : n.toInt ≠ -2 ^ 63 := fun h => hn (Int64.toInt_inj.mp h)
  obtain ⟨hle, -⟩ := inRange_toInt n
  let i := Int64.ofInt (-n.toInt)
  have hi : i.toInt = -n.toInt := Int64.toInt_ofInt_of_le (by omega) (by omega)
  have hspell : (Token.Kind.int i).Spellable := spellable_int (by omega)
  rw [text_of_neg h, ← hi, ← text_negated]
  refine denotes_of_derives .signed ?_ ((derives_negated i).loosen .disjunction (by decide))
    (eval_negated hi)
  simpa using hspell

/-- Digits beyond the largest integer are those of no integer. -/
theorem exists_ofChars_digits_error {m : Nat} (hm : Lexer.largestInt < m) (mark : Mark) :
    ∃ e, Tokens.ofChars mark (Decimal.digits m) = .error e := by
  obtain ⟨c, cs, hcs⟩ : ∃ c cs, Decimal.digits m = c :: cs :=
    List.exists_cons_of_ne_nil Nat.toDigits_ne_nil
  have hc : c.isDigit = true :=
    Nat.isDigit_of_mem_toDigits (by decide) (by decide) (hcs ▸ List.mem_cons_self)
  have htoken := Lexer.token_digits_eq [] hcs (by simp)
  rw [if_neg (Nat.not_le.mpr hm), List.append_nil] at htoken
  rw [hcs]
  exact Tokens.ofChars_error (List.forall_mem_nil _) (Lexer.isBlank_of_isDigit hc) htoken mark

theorem exists_parse_least_error :
    ∃ e, Expr.parse (Value.int Int64.minValue).text = .error e := by
  have htoken (cs : List Char) : Lexer.token '-' cs = .ok (.symbol .minus, 0) := rfl
  obtain ⟨stop, span, hsign⟩ := Tokens.ofChars_token (List.forall_mem_nil _)
    (by decide +kernel) (htoken (Decimal.digits (-Int64.minValue.toInt).toNat)) Mark.start
  obtain ⟨e, he⟩ := exists_ofChars_digits_error
    (by decide : Lexer.largestInt < (-Int64.minValue.toInt).toNat) stop
  rw [List.nil_append, List.drop_zero, he] at hsign
  refine ⟨e, ?_⟩
  rw [text_of_neg (by decide), Expr.parse, Tokens.ofText, String.toList_ofList, hsign]
  rfl

/-- The least integer is one below the largest one with a sign. -/
theorem exists_denotes_least : ∃ text, Denotes text (.int Int64.minValue) := by
  let ks : List Token.Kind :=
    [.symbol .minus, .int Int64.maxValue, .symbol .minus, .int 1]
  have hks : ∀ k ∈ ks, k.Spellable := by
    have hmax : (Token.Kind.int Int64.maxValue).Spellable := spellable_int (by decide)
    have hone : (Token.Kind.int 1).Spellable := spellable_int (by decide)
    simp [ks, hmax, hone]
  have hd : Derives (.expr .sum (.binary .sub _ _ default)) ks :=
    .binary rfl rfl ((derives_negated Int64.maxValue).loosen .sum (by decide))
      ((derives_int 1).loosen .product (by decide))
  refine ⟨_, denotes_of_derives .signed hks (hd.loosen .disjunction (by decide)) fun ctx => ?_⟩
  rw [eval_binary (eval_negated (n := -Int64.maxValue) (by decide) ctx) (eval_int 1 ctx)]
  rfl

/-- Every integer but the least is the value of its own text, in which the digits of the least one
are beyond the largest integer. The least one is the value of another text. -/
theorem denotes_text_iff (n : Int64) :
    (Denotes (Value.int n).text (.int n) ↔ n ≠ Int64.minValue) ∧
      ∃ text, Denotes text (.int n) := by
  have hiff : Denotes (Value.int n).text (.int n) ↔ n ≠ Int64.minValue := by
    constructor
    · rintro ⟨e, he, -⟩ rfl
      obtain ⟨_, herr⟩ := exists_parse_least_error
      rw [he] at herr
      cases herr
    · intro hn
      by_cases h : 0 ≤ n.toInt
      · exact denotes_of_nonneg h
      · exact denotes_of_neg (Int.not_le.mp h) hn
  refine ⟨hiff, ?_⟩
  by_cases hn : n = Int64.minValue
  · rw [hn]
    exact exists_denotes_least
  · exact ⟨_, hiff.mpr hn⟩

/-- The text of the least integer is refused at its digits. -/
theorem exists_unreadable_text :
    ∃ n : Int64, (Value.int n).text = "-9223372036854775808" ∧
      Expr.parse (Value.int n).text =
        .error ⟨.invalidInteger "9223372036854775808", ⟨1, 20, 1, 2⟩⟩ ∧
      ¬ Denotes (Value.int n).text (.int n) := by
  have hfails : failsWith
      (· == ⟨.invalidInteger "9223372036854775808", ⟨1, 20, 1, 2⟩⟩)
      (Expr.parse (Value.int Int64.minValue).text) = true := by
    decide +kernel
  obtain ⟨e, he, hfault⟩ := failsWith_iff.mp hfails
  obtain rfl := eq_of_beq hfault
  refine ⟨Int64.minValue, by decide +kernel, he, ?_⟩
  rintro ⟨_, hok, -⟩
  cases hok.symm.trans he

end Eval

end RecordCheck
