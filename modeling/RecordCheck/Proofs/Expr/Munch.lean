import Mathlib.Data.List.TakeWhile
import RecordCheck.Proofs.Expr.Spelling
import RecordCheck.Proofs.Results

/-! A token is read from its own characters. What follows them matters only where it would go on
with the token, which blanks and the end of the text do not. -/

namespace RecordCheck

open Text Results

/-! ### Blanks -/

namespace Text.CodePoints

/-- No range of one set meets a range of the other. -/
def Apart (s t : CodePoints) : Prop :=
  ∀ a ∈ s.ranges, ∀ b ∈ t.ranges, a.2 < b.1 ∨ b.2 < a.1

instance (s t : CodePoints) : Decidable (s.Apart t) :=
  inferInstanceAs (Decidable (∀ a ∈ s.ranges, ∀ b ∈ t.ranges, _ ∨ _))

theorem Apart.contains_eq_false {s t : CodePoints} (h : s.Apart t) {c : Char}
    (hc : t.contains c = true) : s.contains c = false := by
  rw [Bool.eq_false_iff]
  intro hs
  simp only [contains, List.any_eq_true, decide_eq_true_eq] at hs hc
  obtain ⟨a, ha, has⟩ := hs
  obtain ⟨b, hb, hbt⟩ := hc
  have := h a ha b hb
  omega

end Text.CodePoints

namespace Lexer

variable {c : Char} {cs rest after : List Char} {k : Token.Kind} {n : Nat}

theorem isBlank_of_isWordChar (h : isWordChar c = true) : isBlank c = false := by
  simp only [isWordChar, isAlphanumeric, Char.isAlphanum, Bool.or_eq_true] at h
  rcases h with (((h | h) | h) | h) | h
  · exact isBlank_of_isWordStart (by simp [isWordStart, h])
  · exact isBlank_of_isDigit h
  · exact CodePoints.Apart.contains_eq_false (by decide +kernel : blanks.Apart letters) h
  · exact CodePoints.Apart.contains_eq_false (by decide +kernel : blanks.Apart numerals) h
  · exact isBlank_of_isWordStart (by simp [isWordStart, h])

/-- What stands after a token: nothing, or a blank first. -/
def Parted (after : List Char) : Prop := ∀ d ∈ after.head?, isBlank d = true

theorem parted_nil : Parted [] := by simp [Parted]

theorem parted_of_blank {gap : List Char} (hg : ∀ b ∈ gap, isBlank b = true) (hne : gap ≠ [])
    (rest : List Char) : Parted (gap ++ rest) := by
  obtain ⟨b, gap, rfl⟩ := List.exists_cons_of_ne_nil hne
  simpa [Parted] using hg b List.mem_cons_self

/-- A property that blanks lack does not go on behind a token. -/
theorem Parted.eq_false (ha : Parted after) {p : Char → Bool}
    (hp : ∀ d, p d = true → isBlank d = false) : ∀ d ∈ after.head?, p d = false := by
  intro d hd
  rw [Bool.eq_false_iff]
  intro h
  simpa [hp d h] using ha d hd

theorem Parted.isDigit (ha : Parted after) : ∀ d ∈ after.head?, d.isDigit = false :=
  ha.eq_false fun _ => isBlank_of_isDigit

theorem Parted.head?_ne (ha : Parted after) {d : Char} (hd : isBlank d = false) :
    after.head? ≠ some d := by
  intro h
  simpa [hd] using ha d h

/-- What is read from a text is its front, and is read again from that front and anything parted
from it. -/
def Repeats {ε β : Type} (read : List Char → Except ε (β × Nat)) : Prop :=
  ∀ rest b n, read rest = .ok (b, n) → ∃ more after, rest = more ++ after ∧ more.length = n ∧
    ∀ after, Parted after → read (more ++ after) = .ok (b, n)

/-! ### Words and strings -/

theorem repeats_word (c : Char) : Repeats fun rest => (.ok (word c rest) : Except Failure _) := by
  intro rest k n h
  have hn : (word c rest).2 = (rest.takeWhile isWordChar).length := by
    unfold word
    dsimp only
    split <;> rfl
  rw [Except.ok.injEq] at h
  refine ⟨rest.takeWhile isWordChar, rest.dropWhile isWordChar,
    List.takeWhile_append_dropWhile.symm, by rw [← hn, h], fun after ha => ?_⟩
  have hmore : (rest.takeWhile isWordChar ++ after).takeWhile isWordChar =
      rest.takeWhile isWordChar :=
    takeWhile_of_head (fun d hd => List.mem_takeWhile_imp hd)
      (ha.eq_false fun _ => isBlank_of_isWordChar)
  simp only [word, hmore, ← h]

/-- Nothing after the closing quote matters, parted from it or not. -/
theorem stringBody_append {quote : Char} {content : List Char}
    (h : stringBody quote rest = .ok (content, n)) :
    ∃ more after, rest = more ++ after ∧ more.length = n ∧
      ∀ after, stringBody quote (more ++ after) = .ok (content, n) := by
  fun_induction stringBody quote rest generalizing content n with
  | case1 => cases h
  | case2 rest =>
    cases h
    refine ⟨[quote], rest, rfl, rfl, fun after => ?_⟩
    rw [List.cons_append, stringBody.eq_def]
    simp
  | case3 => cases h
  | case4 d rest hq ih =>
    obtain ⟨⟨content, n⟩, hs, h⟩ := map_eq_ok.mp h
    cases h
    obtain ⟨more, after, rfl, rfl, hmore⟩ := ih hs
    refine ⟨'\\' :: d :: more, after, rfl, rfl, fun after => ?_⟩
    rw [List.cons_append, List.cons_append, stringBody.eq_def]
    simp [hq, hmore, Except.map]
  | case5 c rest hq hb ih =>
    obtain ⟨⟨content, n⟩, hs, h⟩ := map_eq_ok.mp h
    cases h
    obtain ⟨more, after, rfl, rfl, hmore⟩ := ih hs
    refine ⟨c :: more, after, rfl, rfl, fun after => ?_⟩
    rw [List.cons_append, stringBody.eq_def]
    simp [hq, hb, hmore, Except.map]

theorem repeats_string (quote : Char) : Repeats (string quote) := by
  intro rest k n h
  unfold string at h
  split at h
  · next content n' hs =>
    cases h
    obtain ⟨more, after, rfl, rfl, hmore⟩ := stringBody_append hs
    exact ⟨more, after, rfl, rfl, fun after _ => by rw [string, hmore]⟩
  · cases h
  · cases h

/-! ### Numbers -/

theorem fraction_front (cs : List Char) : fraction cs <+: cs := by
  unfold fraction
  split
  · dsimp only
    split
    · exact List.nil_prefix
    · exact (List.prefix_cons_inj _).mpr (List.takeWhile_prefix _)
  · exact List.nil_prefix

/-- A fraction is a point and digits, if it is there. -/
theorem fraction_cases (cs : List Char) : fraction cs = [] ∨
    ∃ digits, digits ≠ [] ∧ (∀ d ∈ digits, d.isDigit = true) ∧ fraction cs = '.' :: digits := by
  unfold fraction
  split
  · dsimp only
    split
    · exact .inl rfl
    · next h =>
      exact .inr ⟨_, by simpa using h, fun d hd => List.mem_takeWhile_imp hd, rfl⟩
  · exact .inl rfl

/-- A fraction ends where neither a digit nor a point follows. -/
theorem fraction_again (cs : List Char) (hd : ∀ d ∈ after.head?, d.isDigit = false)
    (hp : after.head? ≠ some '.') : fraction (fraction cs ++ after) = fraction cs := by
  rcases fraction_cases cs with h | ⟨digits, hne, hdigits, h⟩
  · rw [h, List.nil_append, fraction_eq_nil hp]
  · rw [h, List.cons_append, fraction, takeWhile_of_head hdigits hd]
    simp [hne]

theorem exponentSign_front (cs : List Char) : exponentSign cs <+: cs := by
  unfold exponentSign
  split <;> simp

/-- The sign of an exponent is read again if no sign comes after it. -/
theorem exponentSign_again (cs : List Char) (hp : after.head? ≠ some '+')
    (hm : after.head? ≠ some '-') : exponentSign (exponentSign cs ++ after) = exponentSign cs := by
  have hnone : exponentSign after = [] := by
    unfold exponentSign
    split
    · exact absurd rfl hp
    · exact absurd rfl hm
    · rfl
  rw [exponentSign.eq_def cs]
  split
  · rfl
  · rfl
  · exact hnone

theorem exponent_front (cs : List Char) : (exponent cs).1 <+: cs := by
  unfold exponent
  split
  · exact List.nil_prefix
  · next c rest =>
    split
    · refine (List.prefix_cons_inj _).mpr ?_
      conv_rhs => rw [← List.prefix_iff_eq_append.mp (exponentSign_front rest)]
      exact (List.prefix_append_right_inj _).mpr (List.takeWhile_prefix _)
    · exact List.nil_prefix

/-- An exponent that has its digits is a mark, a sign or none, and those digits. -/
theorem exponent_cases (h : (exponent cs).2 = true) : (exponent cs).1 = [] ∨
    ∃ c rest digits, (c = 'e' ∨ c = 'E') ∧ digits ≠ [] ∧ (∀ d ∈ digits, d.isDigit = true) ∧
      (exponent cs).1 = c :: (exponentSign rest ++ digits) := by
  unfold exponent at h ⊢
  split
  · exact .inl rfl
  · next c rest =>
    split
    · next hc =>
      exact .inr ⟨c, rest, _, hc, by simpa [hc] using h, fun d hd => List.mem_takeWhile_imp hd, rfl⟩
    · exact .inl rfl

theorem exponent_again (h : (exponent cs).2 = true) (ha : Parted after) :
    exponent ((exponent cs).1 ++ after) = ((exponent cs).1, true) := by
  rcases exponent_cases h with h | ⟨c, rest, digits, hc, hne, hdigits, h⟩
  · rw [h]
    exact exponent_eq_nil (ha.head?_ne (by decide)) (ha.head?_ne (by decide))
  · have hhead (d : Char) (hd : d.isDigit = false) : (digits ++ after).head? ≠ some d := by
      obtain ⟨d', digits, rfl⟩ := List.exists_cons_of_ne_nil hne
      rintro ⟨⟩
      simp [hd] at hdigits
    have hsign := exponentSign_again rest (hhead '+' rfl) (hhead '-' rfl)
    rw [h, List.cons_append, List.append_assoc, exponent, if_pos hc, hsign]
    simp [takeWhile_of_head hdigits ha.isDigit, hne]

/-- An exponent, or the end of a number, starts with no digit and no point. -/
theorem exponent_head (h : (exponent cs).2 = true) (ha : Parted after) {d : Char}
    (hd : d ∈ ((exponent cs).1 ++ after).head?) : d.isDigit = false ∧ d ≠ '.' := by
  rcases exponent_cases h with h | ⟨c, rest, digits, hc, -, -, h⟩
  · rw [h, List.nil_append] at hd
    exact ⟨ha.isDigit d hd, fun hp => ha.head?_ne (by decide) (hp ▸ hd)⟩
  · rw [h] at hd
    cases hd
    rcases hc with rfl | rfl <;> decide

theorem fraction_head (cs : List Char) (ha : ∀ d ∈ after.head?, d.isDigit = false) :
    ∀ d ∈ (fraction cs ++ after).head?, d.isDigit = false := by
  rcases fraction_cases cs with h | ⟨digits, -, -, h⟩
  · rw [h, List.nil_append]
    exact ha
  · rw [h]
    rintro d ⟨⟩
    rfl

/-- A number is its first digit, the whole digits after it, its fraction and its exponent. -/
theorem number_parts (h : number c rest = .ok (k, n)) :
    ∃ whole parts power, rest = whole ++ parts ∧ rest.takeWhile Char.isDigit = whole ∧
      exponent (parts.drop (fraction parts).length) = (power, true) ∧
      n = (whole ++ (fraction parts ++ power)).length := by
  unfold number at h
  dsimp only at h
  have hrest := List.prefix_iff_eq_append.mp (rest.takeWhile_prefix Char.isDigit)
  generalize rest.drop (rest.takeWhile Char.isDigit).length = parts at h hrest
  refine ⟨_, parts, (exponent (parts.drop (fraction parts).length)).1, hrest.symm, rfl, ?_⟩
  split at h
  · cases h
  · next hc =>
    refine ⟨Prod.ext rfl (by simpa using hc), ?_⟩
    split at h
    · split at h
      · cases h
        simp
      · cases h
    · cases h
      simp

theorem repeats_number (c : Char) : Repeats (number c) := by
  intro rest k n h
  obtain ⟨whole, parts, power, rfl, hwhole, hexponent, rfl⟩ := number_parts h
  have hparts := List.prefix_iff_eq_append.mp (fraction_front parts)
  obtain ⟨after, hafter⟩ := exponent_front (parts.drop (fraction parts).length)
  rw [hexponent] at hafter
  refine ⟨_, after, by simp only [List.append_assoc, hafter, hparts], rfl, fun after ha => ?_⟩
  have hagain : exponent (power ++ after) = (power, true) := by
    simpa only [hexponent] using exponent_again (congrArg Prod.snd hexponent) ha
  -- Behind the fraction come the mark of an exponent or a blank, and neither goes on with it.
  have hhead : ∀ d ∈ (power ++ after).head?, d.isDigit = false ∧ d ≠ '.' := fun d hd =>
    exponent_head (congrArg Prod.snd hexponent) ha (by rwa [hexponent])
  have hfraction := fraction_again parts (fun d hd => (hhead d hd).1) fun h => (hhead '.' h).2 rfl
  have hdigits : ∀ d ∈ whole, d.isDigit = true := fun d hd =>
    List.mem_takeWhile_imp (hwhole.symm ▸ hd)
  have hwhole' := takeWhile_of_head hdigits (fraction_head parts fun d hd => (hhead d hd).1)
  rw [← h, List.append_assoc, List.append_assoc]
  simp only [number, hwhole, hwhole', List.drop_left, hfraction, hagain, hexponent]

/-! ### Tokens -/

/-- A token of one character, or none. -/
theorem repeats_const {read : Except Failure (Token.Kind × Nat)}
    (h : ∀ k n, read = .ok (k, n) → n = 0) : Repeats fun _ => read := by
  intro rest k n hr
  exact ⟨[], rest, rfl, (h k n hr).symm, fun _ _ => hr⟩

theorem withEquals_cons (rest : List Char) (longer : Symbol) :
    withEquals ('=' :: rest) longer = some (.symbol longer, 1) := rfl

theorem withEquals_eq_none {longer : Symbol} (h : rest.head? ≠ some '=') :
    withEquals rest longer = none := if_neg h

/-- An equals sign goes on with a symbol, and a blank does not. -/
theorem repeats_withEquals (longer : Symbol) {read : List Char → Except Failure (Token.Kind × Nat)}
    {short : Except Failure (Token.Kind × Nat)}
    (hlong : ∀ rest, withEquals rest longer = some (.symbol longer, 1) →
      read rest = .ok (.symbol longer, 1))
    (hshort : ∀ rest, withEquals rest longer = none → read rest = short)
    (h : ∀ k n, short = .ok (k, n) → n = 0) : Repeats read := by
  intro rest k n hr
  by_cases he : rest.head? = some '='
  · obtain ⟨rest, rfl⟩ := List.head?_eq_some_iff.mp he
    have hsame (after : List Char) := hlong _ (withEquals_cons after longer)
    cases (hsame rest).symm.trans hr
    exact ⟨['='], rest, rfl, rfl, fun after _ => hsame after⟩
  · have hk := (hshort rest (withEquals_eq_none he)).symm.trans hr
    refine ⟨[], rest, rfl, (h k n hk).symm, fun after ha => ?_⟩
    exact (hshort after (withEquals_eq_none (ha.head?_ne (by decide)))).trans hk

/-- A token is read from its own characters. -/
theorem repeats_token (c : Char) : Repeats (token c) := by
  have hsymbol (s : Symbol) (k : Token.Kind) (n : Nat)
      (h : (.ok (.symbol s, 0) : Except Failure (Token.Kind × Nat)) = .ok (k, n)) : n = 0 := by
    cases h
    rfl
  have herror (k : Token.Kind) (n : Nat)
      (h : (.error ⟨.unexpectedChar c, 0, 1⟩ : Except Failure (Token.Kind × Nat)) = .ok (k, n)) :
      n = 0 := by
    cases h
  unfold token
  dsimp only
  split
  · exact repeats_withEquals .eq (fun _ h => by simp [h]) (fun _ h => by simp [h]) (hsymbol .eq)
  split
  · exact repeats_withEquals .le (fun _ h => by simp [h]) (fun _ h => by simp [h]) (hsymbol .lt)
  split
  · exact repeats_withEquals .ge (fun _ h => by simp [h]) (fun _ h => by simp [h]) (hsymbol .gt)
  split
  · exact repeats_withEquals .ne (fun _ h => by simp [h]) (fun _ h => by simp [h]) herror
  split
  · exact repeats_string c
  split
  · exact repeats_word c
  split
  · exact repeats_number c
  split
  · exact repeats_const (hsymbol _)
  · exact repeats_const herror

end Lexer

end RecordCheck
