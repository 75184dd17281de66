import Mathlib.Data.List.Basic
import RecordCheck.Proofs.Expr.Grammar

/-! The text of tokens. The lexer reads a token back from its text if the next character does not
go on with it, so it reads back tokens with spaces between them. -/

namespace RecordCheck

open Text

namespace Lexer

variable {c : Char} {cs rest : List Char}

/-- The word of some letters, digits and underscores. A digit cannot be the first. -/
def isIdentifier (name : String) : Bool :=
  match name.toList with
  | [] => false
  | c :: cs => isWordStart c && cs.all isWordChar

/-- A character between double quotes. -/
def escaped (c : Char) : List Char := if c = '\\' ∨ c = '"' then ['\\', c] else [c]

/-- A text between double quotes. -/
def quoted (s : String) : List Char := '"' :: (s.toList.flatMap escaped ++ ['"'])

/-! ### Characters -/

theorem isUpper_iff : c.isUpper = true ↔ 65 ≤ c.toNat ∧ c.toNat ≤ 90 := by
  change decide (65 ≤ c.val ∧ c.val ≤ 90) = true ↔ _
  simp [UInt32.le_iff_toNat_le]

theorem isLower_iff : c.isLower = true ↔ 97 ≤ c.toNat ∧ c.toNat ≤ 122 := by
  change (decide (97 ≤ c.val) && decide (c.val ≤ 122)) = true ↔ _
  simp [UInt32.le_iff_toNat_le]

/-- The letters and the underscore, by their numbers. -/
theorem isWordStart_iff : isWordStart c = true ↔
    (65 ≤ c.toNat ∧ c.toNat ≤ 90) ∨ (97 ≤ c.toNat ∧ c.toNat ≤ 122) ∨ c.toNat = 95 := by
  change (c.isUpper || c.isLower || c == '_') = true ↔ _
  simp [isUpper_iff, isLower_iff, or_assoc, Char.ext_iff, UInt32.ext_iff]

theorem isBlank_of_isWordStart (h : isWordStart c = true) : isBlank c = false := by
  rw [Bool.eq_false_iff]
  intro hb
  rw [isWordStart_iff] at h
  simp [isBlank, blanks, CodePoints.contains] at hb
  omega

theorem isBlank_of_isDigit (h : c.isDigit = true) : isBlank c = false := by
  rw [Bool.eq_false_iff]
  intro hb
  simp [Char.isDigit, UInt32.le_iff_toNat_le, isBlank, blanks, CodePoints.contains] at h hb
  omega

theorem isWordChar_space : isWordChar ' ' = false := by decide +kernel

theorem isWordChar_leftParen : isWordChar '(' = false := by decide +kernel

theorem takeWhile_of_head {p : Char → Bool} (hcs : ∀ d ∈ cs, p d = true)
    (hr : ∀ d ∈ rest.head?, p d = false) : (cs ++ rest).takeWhile p = cs := by
  rw [List.takeWhile_append_of_pos hcs]
  cases rest with
  | nil => simp
  | cons d rest => simp [hr d rfl]

/-! ### Words and strings -/

theorem token_word (hc : isWordStart c = true) : token c rest = .ok (word c rest) := by
  have hne (d : Char) (hd : isWordStart d = false) : c ≠ d := by
    rintro rfl
    rw [hc] at hd
    cases hd
  have hq : ¬ (c = '"' ∨ c = '\'') := by
    rintro (rfl | rfl)
    · cases hc
    · cases hc
  rw [token, if_neg (hne _ rfl), if_neg (hne _ rfl), if_neg (hne _ rfl), if_neg (hne _ rfl),
    if_neg hq, if_pos hc]

/-- A word is read from its text, as a keyword if it is one. -/
theorem exists_word {name : String} (h : isIdentifier name = true)
    (hr : ∀ d ∈ rest.head?, isWordChar d = false) :
    ∃ c cs, name.toList = c :: cs ∧ isBlank c = false ∧
      token c (cs ++ rest) = .ok (match Keyword.ofWord? name.toList with
        | some keyword => (.keyword keyword name, cs.length)
        | none => (.ident name, cs.length)) := by
  unfold isIdentifier at h
  split at h
  · cases h
  · next c cs hcs =>
    rw [Bool.and_eq_true, List.all_eq_true] at h
    refine ⟨c, cs, hcs, isBlank_of_isWordStart h.1, ?_⟩
    have hw := takeWhile_of_head h.2 hr
    cases hk : Keyword.ofWord? name.toList with
    | none | some => simp [token_word h.1, word, hw, ← hcs, hk]

theorem stringBody_escaped (s rest : List Char) :
    stringBody '"' (s.flatMap escaped ++ '"' :: rest) =
      .ok (s, (s.flatMap escaped).length + 1) := by
  induction s with
  | nil =>
    unfold stringBody
    rfl
  | cons c s ih =>
    rw [List.flatMap_cons, List.append_assoc]
    by_cases hc : c = '\\' ∨ c = '"'
    · have he : escape c = [c] := by rcases hc with rfl | rfl <;> rfl
      rw [escaped, if_pos hc]
      unfold stringBody
      simp [ih, Except.map, he]
    · obtain ⟨hb, hq⟩ := not_or.mp hc
      rw [escaped, if_neg hc]
      unfold stringBody
      simp [ih, Except.map, hq, hb]

theorem token_quoted (s : String) (rest : List Char) :
    token '"' (s.toList.flatMap escaped ++ '"' :: rest) =
      .ok (.string s, (s.toList.flatMap escaped).length + 1) := by
  simp [token, string, stringBody_escaped]

/-! ### Integers -/

theorem ofDigits_digits (n : Nat) : Decimal.ofDigits (Decimal.digits n) = n := by
  simpa [Decimal.ofDigits, Decimal.digits, Nat.ofDigitChars] using @Nat.ofDigitChars_ten_toDigits n

theorem fraction_eq_nil (h : cs.head? ≠ some '.') : fraction cs = [] := by
  unfold fraction
  split
  · exact absurd rfl h
  · rfl

theorem exponent_eq_nil (he : cs.head? ≠ some 'e') (hE : cs.head? ≠ some 'E') :
    exponent cs = ([], true) := by
  cases cs with
  | nil => rfl
  | cons c cs =>
    rw [exponent, if_neg]
    rintro (rfl | rfl)
    · exact he rfl
    · exact hE rfl

/-- Digits alone are an integer that can be written, or an integer that is too large. -/
theorem token_digits_eq {n : Nat} (rest : List Char) (hcs : Decimal.digits n = c :: cs)
    (hr : ∀ d ∈ rest.head?, d.isDigit = false ∧ d ≠ '.' ∧ d ≠ 'e' ∧ d ≠ 'E') :
    token c (cs ++ rest) =
      if n ≤ largestInt then .ok (.int (Int64.ofNat n), cs.length)
      else .error ⟨.invalidInteger (String.ofList (c :: cs)), 0, cs.length + 1⟩ := by
  have hdigits (d : Char) (hd : d ∈ c :: cs) : d.isDigit = true :=
    Nat.isDigit_of_mem_toDigits (by decide) (by decide) (hcs ▸ hd)
  obtain ⟨hc, hds⟩ := List.forall_mem_cons.mp hdigits
  have hne (d : Char) (hd : d.isDigit = false) : c ≠ d := by
    rintro rfl
    rw [hc] at hd
    cases hd
  have hq : ¬ (c = '"' ∨ c = '\'') := by
    rintro (rfl | rfl)
    · cases hc
    · cases hc
  have hw : ¬ isWordStart c = true := by
    rw [isWordStart_iff]
    simp [Char.isDigit, UInt32.le_iff_toNat_le] at hc
    omega
  have hwhole : (cs ++ rest).takeWhile Char.isDigit = cs :=
    takeWhile_of_head hds fun d hd => (hr d hd).1
  have hfraction : fraction rest = [] := fraction_eq_nil fun h => (hr '.' h).2.1 rfl
  have hexponent : exponent rest = ([], true) :=
    exponent_eq_nil (fun h => (hr 'e' h).2.2.1 rfl) fun h => (hr 'E' h).2.2.2 rfl
  rw [token, if_neg (hne _ rfl), if_neg (hne _ rfl), if_neg (hne _ rfl), if_neg (hne _ rfl),
    if_neg hq, if_neg hw, if_pos hc]
  have hn : Decimal.ofDigits (c :: cs) = n := hcs ▸ ofDigits_digits n
  simp [number, hwhole, hfraction, hexponent, hn]

theorem token_digits {n : Nat} (rest : List Char) (hn : n ≤ largestInt)
    (hcs : Decimal.digits n = c :: cs)
    (hr : ∀ d ∈ rest.head?, d.isDigit = false ∧ d ≠ '.' ∧ d ≠ 'e' ∧ d ≠ 'E') :
    token c (cs ++ rest) = .ok (.int (Int64.ofNat n), cs.length) := by
  rw [token_digits_eq rest hcs hr, if_pos hn]

theorem token_symbol (symbol : Symbol) (hr : symbol ∈ [.lt, .gt] → rest.head? ≠ some '=') :
    ∃ c cs, symbol.text.toList = c :: cs ∧ isBlank c = false ∧
      token c (cs ++ rest) = .ok (.symbol symbol, cs.length) := by
  cases symbol with
  | lt =>
    refine ⟨'<', [], rfl, rfl, ?_⟩
    simp [token, withEquals, hr (by simp)]
  | gt =>
    refine ⟨'>', [], rfl, rfl, ?_⟩
    simp [token, withEquals, hr (by simp)]
  | _ => exact ⟨_, _, rfl, rfl, rfl⟩

end Lexer

/-! ### Tokens -/

namespace Token.Kind

/-- The text of a token. Numbers with fractions have none. -/
def spell : Kind → List Char
  | keyword _ spelling => spelling.toList
  | ident name => name.toList
  | int i => Decimal.digits i.toNatClampNeg
  | float _ => []
  | string s => Lexer.quoted s
  | symbol s => s.text.toList

/-- The token is the one that its text stands for. -/
def Spellable : Kind → Prop
  | keyword k spelling => Lexer.isIdentifier spelling ∧ Keyword.ofWord? spelling.toList = some k
  | ident name => Lexer.isIdentifier name ∧ Keyword.ofWord? name.toList = none
  | int i => 0 ≤ i
  | float _ => False
  | string _ => True
  | symbol _ => True

/-- A character that goes on with the text of a token. -/
def extendedBy : Kind → Char → Bool
  | keyword _ _, c => Lexer.isWordChar c
  | ident _, c => Lexer.isWordChar c
  | int _, c => c.isDigit || c == '.' || c == 'e' || c == 'E'
  | symbol .lt, c => c == '='
  | symbol .gt, c => c == '='
  | _, _ => false

theorem extendedBy_space (k : Kind) : k.extendedBy ' ' = false := by
  cases k with
  | keyword | ident => exact Lexer.isWordChar_space
  | symbol symbol => cases symbol <;> rfl
  | _ => rfl

theorem extendedBy_int {i : Int64} {c : Char} :
    (int i).extendedBy c = false ↔ c.isDigit = false ∧ c ≠ '.' ∧ c ≠ 'e' ∧ c ≠ 'E' := by
  change (c.isDigit || c == '.' || c == 'e' || c == 'E') = false ↔ _
  simp [and_assoc]

/-- The lexer reads a token from its text. -/
theorem exists_token {k : Kind} (h : k.Spellable) (rest : List Char)
    (hr : ∀ d ∈ rest.head?, k.extendedBy d = false) :
    ∃ c cs, k.spell = c :: cs ∧ Text.isBlank c = false ∧
      Lexer.token c (cs ++ rest) = .ok (k, cs.length) := by
  cases k with
  | keyword keyword spelling =>
    obtain ⟨hi, hk⟩ := h
    simpa only [hk, spell] using Lexer.exists_word hi hr
  | ident name =>
    obtain ⟨hi, hk⟩ := h
    simpa only [hk, spell] using Lexer.exists_word hi hr
  | int i =>
    obtain ⟨c, cs, hcs⟩ := List.exists_cons_of_ne_nil
      (Nat.toDigits_ne_nil : Decimal.digits i.toNatClampNeg ≠ [])
    have hn : i.toNatClampNeg ≤ Lexer.largestInt := Nat.le_of_lt_succ i.toNatClampNeg_lt
    have hd := Lexer.token_digits rest hn hcs (by simpa only [extendedBy_int] using hr)
    rw [Int64.ofNat_toNatClampNeg i h] at hd
    have hc : c ∈ Nat.toDigits 10 i.toNatClampNeg := hcs ▸ List.mem_cons_self
    have hb := Lexer.isBlank_of_isDigit (Nat.isDigit_of_mem_toDigits (by decide) (by decide) hc)
    exact ⟨c, cs, hcs, hb, hd⟩
  | float x => exact h.elim
  | string s =>
    refine ⟨'"', _, rfl, rfl, ?_⟩
    rw [List.append_assoc]
    simpa using Lexer.token_quoted s rest
  | symbol symbol =>
    refine Lexer.token_symbol symbol fun hs he => ?_
    simp only [List.mem_cons, List.not_mem_nil, or_false] at hs
    rcases hs with rfl | rfl
    · cases hr '=' he
    · cases hr '=' he

end Token.Kind

/-! ### Texts of tokens -/

/-- Where spaces stand between tokens: at least where two tokens would otherwise run together. -/
structure Layout where
  spaced : Token.Kind → Token.Kind → Bool
  apart : ∀ k k', spaced k k' = false → ∀ d ∈ k'.spell.head?, k.extendedBy d = false

namespace Layout

/-- A space between any two tokens. -/
def wide : Layout := ⟨fun _ _ => true, fun _ _ h => nomatch h⟩

/-- No space within what follows a value, nor before the arguments of a call. -/
def compact : Layout where
  spaced
    | .symbol .dot, _ => false
    | .symbol .pipe, _ => false
    | .symbol .rightParen, .symbol .dot => false
    | .symbol .rightParen, .symbol .pipe => false
    | .ident _, .symbol .leftParen => false
    | _, _ => true
  apart k k' h := by
    split at h
    case h_5 =>
      rintro d ⟨⟩
      exact Lexer.isWordChar_leftParen
    case h_6 => cases h
    all_goals exact fun _ _ => rfl

/-- The space, if any, between two tokens. -/
def gap (layout : Layout) (k k' : Token.Kind) : List Char :=
  if layout.spaced k k' then [' '] else []

/-- The text of some tokens after another one. -/
def textAfter (layout : Layout) (k : Token.Kind) : List Token.Kind → List Char
  | [] => []
  | k' :: ks => layout.gap k k' ++ (k'.spell ++ layout.textAfter k' ks)

/-- The text of some tokens. -/
def text (layout : Layout) : List Token.Kind → List Char
  | [] => []
  | k :: ks => k.spell ++ layout.textAfter k ks

theorem gap_blank (layout : Layout) {k k' : Token.Kind} :
    ∀ b ∈ layout.gap k k', isBlank b = true := by
  unfold gap
  split
  · simp only [List.mem_singleton, forall_eq]
    decide
  · simp

/-- Nothing after a token goes on with it. -/
theorem extendedBy_textAfter (layout : Layout) {k : Token.Kind} {ks : List Token.Kind}
    (hks : ∀ k ∈ ks, k.Spellable) :
    ∀ d ∈ (layout.textAfter k ks).head?, k.extendedBy d = false := by
  cases ks with
  | nil => simp [textAfter]
  | cons k' ks =>
    unfold textAfter gap
    split
    · simpa using k.extendedBy_space
    · next hs =>
      obtain ⟨c, cs, hspell, -⟩ := Token.Kind.exists_token (hks k' List.mem_cons_self) []
        (by simp)
      have hd := layout.apart k k' (by simpa using hs)
      simpa [hspell] using hd

end Layout

theorem Text.dropWhile_isBlank_cons {blanks rest : List Char} {c : Char}
    (hb : ∀ b ∈ blanks, isBlank b = true) (hc : isBlank c = false) :
    (blanks ++ c :: rest).dropWhile isBlank = c :: rest := by
  rw [List.dropWhile_append_of_pos hb, List.dropWhile_cons_of_neg (by simp [hc])]

namespace Tokens

theorem ofChars_token {blanks rest : List Char} {c : Char} {k : Token.Kind} {n : Nat}
    (hb : ∀ b ∈ blanks, isBlank b = true) (hc : isBlank c = false)
    (ht : Lexer.token c rest = .ok (k, n)) (mark : Mark) :
    ∃ stop span, ofChars mark (blanks ++ c :: rest) =
      (ofChars stop (rest.drop n)).map (cons ⟨k, span⟩) := by
  have hdrop : (blanks ++ c :: rest).dropWhile isBlank = c :: rest := dropWhile_isBlank_cons hb hc
  rw [ofChars]
  split
  · next h => simp [hdrop] at h
  · next c' rest' h =>
    obtain ⟨rfl, rfl⟩ := List.cons.inj (hdrop.symm.trans h)
    simp only [ht]
    exact ⟨_, _, rfl⟩

/-- The lexer reads tokens back from their text. -/
theorem ofChars_spell (layout : Layout) {k : Token.Kind} {ks : List Token.Kind} (hk : k.Spellable)
    (hks : ∀ k ∈ ks, k.Spellable) (mark : Mark) (blanks : List Char)
    (hb : ∀ b ∈ blanks, isBlank b = true) :
    ∃ tokens, ofChars mark (blanks ++ (k.spell ++ layout.textAfter k ks)) = .ok tokens ∧
      tokens.kinds = k :: ks := by
  induction ks generalizing k mark blanks with
  | nil =>
    obtain ⟨c, cs, hspell, hc, ht⟩ := Token.Kind.exists_token hk _ (layout.extendedBy_textAfter hks)
    obtain ⟨stop, span, h⟩ := ofChars_token hb hc ht mark
    rw [hspell, List.cons_append, h, List.drop_left, Layout.textAfter, ofChars]
    exact ⟨_, rfl, rfl⟩
  | cons k' ks ih =>
    obtain ⟨c, cs, hspell, hc, ht⟩ := Token.Kind.exists_token hk _ (layout.extendedBy_textAfter hks)
    obtain ⟨stop, span, h⟩ := ofChars_token hb hc ht mark
    obtain ⟨hk', hks⟩ := List.forall_mem_cons.mp hks
    obtain ⟨tokens, htokens, hkinds⟩ := ih hk' hks stop _ layout.gap_blank
    rw [hspell, List.cons_append, h, List.drop_left, Layout.textAfter, htokens]
    exact ⟨_, rfl, congrArg (k :: ·) hkinds⟩

theorem ofChars_text (layout : Layout) {ks : List Token.Kind} (hks : ∀ k ∈ ks, k.Spellable)
    (mark : Mark) :
    ∃ tokens, ofChars mark (layout.text ks) = .ok tokens ∧ tokens.kinds = ks := by
  cases ks with
  | nil =>
    rw [Layout.text, ofChars]
    exact ⟨_, rfl, rfl⟩
  | cons k ks =>
    obtain ⟨hk, hks⟩ := List.forall_mem_cons.mp hks
    exact ofChars_spell layout hk hks mark [] (by simp)

end Tokens

end RecordCheck
