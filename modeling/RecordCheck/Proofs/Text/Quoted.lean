import Mathlib.Data.List.Basic
import RecordCheck.Text.Quoted

/-! Quoted text is read back character by character, whatever comes after it. So two texts that are
quoted alike are the same, and the closing quote is found. -/

namespace RecordCheck.Text

variable {c d : Char} {n : Nat} {s t xs ys : List Char}

/-! ### Hexadecimal digits -/

/-- The number of hexadecimal digits, the most significant first. -/
def ofHex (digits : List Char) : Nat :=
  digits.foldl (fun n c => 16 * n + "0123456789abcdef".toList.idxOf c) 0

theorem ofHex_concat (ds : List Char) (k : Nat) (hk : k < 16) :
    ofHex (ds ++ [Nat.digitChar k]) = 16 * ofHex ds + k := by
  have hdigit : ∀ k < 16, "0123456789abcdef".toList.idxOf (Nat.digitChar k) = k := by decide
  rw [ofHex, List.foldl_concat, hdigit k hk, ofHex]

theorem ofHex_toDigits (n : Nat) : ofHex (Nat.toDigits 16 n) = n := by
  induction n using Nat.strongRecOn with
  | ind n ih =>
    by_cases hn : n < 16
    · rw [Nat.toDigits_of_lt_base hn]
      simpa [ofHex] using ofHex_concat [] n hn
    · have hlt : n / 16 < n := by omega
      rw [Nat.toDigits_of_base_le (by decide) (by omega), ofHex_concat _ _ (by omega), ih _ hlt]
      omega

theorem ne_brace_of_mem_toDigits (h : c ∈ Nat.toDigits 16 n) : c ≠ '\x7d' := by
  have hdigit : ∀ k < 16, Nat.digitChar k ≠ '\x7d' := by decide
  induction n using Nat.strongRecOn with
  | ind n ih =>
    by_cases hn : n < 16
    · rw [Nat.toDigits_of_lt_base hn, List.mem_singleton] at h
      exact h ▸ hdigit n hn
    · rw [Nat.toDigits_of_base_le (by decide) (by omega), List.mem_append] at h
      rcases h with h | h
      · exact ih _ (by omega) h
      · exact List.mem_singleton.mp h ▸ hdigit _ (by omega)

/-! ### Characters -/

/-- The character at the front of a quoted text, and the text after it. -/
def unquoteChar : List Char → Option (Char × List Char)
  | '\\' :: '0' :: rest => some ('\x00', rest)
  | '\\' :: 't' :: rest => some ('\t', rest)
  | '\\' :: 'r' :: rest => some ('\r', rest)
  | '\\' :: 'n' :: rest => some ('\n', rest)
  | '\\' :: '"' :: rest => some ('"', rest)
  | '\\' :: '\\' :: rest => some ('\\', rest)
  | '\\' :: 'u' :: '\x7b' :: rest =>
    some (Char.ofNat (ofHex (rest.takeWhile (· != '\x7d'))), (rest.dropWhile (· != '\x7d')).tail)
  | c :: rest => some (c, rest)
  | [] => none

theorem unquoteChar_quotedChar (c : Char) (rest : List Char) :
    unquoteChar (quotedChar c ++ rest) = some (c, rest) := by
  unfold quotedChar
  split
  case h_7 hslash =>
    split
    · have hdigits : ∀ d ∈ Nat.toDigits 16 c.toNat, (d != '\x7d') = true := fun d hd => by
        simpa using ne_brace_of_mem_toDigits hd
      have htake : (Nat.toDigits 16 c.toNat ++ '\x7d' :: rest).takeWhile (· != '\x7d') =
          Nat.toDigits 16 c.toNat := by
        rw [List.takeWhile_append_of_pos hdigits]
        simp
      have hdrop : (Nat.toDigits 16 c.toNat ++ '\x7d' :: rest).dropWhile (· != '\x7d') =
          '\x7d' :: rest := by
        rw [List.dropWhile_append_of_pos hdigits]
        simp
      simp [unquoteChar, htake, hdrop, ofHex_toDigits, Char.ofNat_toNat]
    · unfold unquoteChar
      split <;> simp_all
  all_goals rfl

theorem quotedChar_append_inj (h : quotedChar c ++ xs = quotedChar d ++ ys) : c = d ∧ xs = ys := by
  have hc := unquoteChar_quotedChar c xs
  rw [h, unquoteChar_quotedChar d ys, Option.some.injEq, Prod.mk.injEq] at hc
  exact ⟨hc.1.symm, hc.2.symm⟩

/-- No character between the quotes starts with a quote. -/
theorem head?_quotedChar (c : Char) (rest : List Char) :
    (quotedChar c ++ rest).head? ≠ some '"' := by
  unfold quotedChar
  split
  case h_7 hquote _ =>
    split
    · simp
    · simpa using hquote
  all_goals simp

/-! ### Texts -/

theorem flatMap_quotedChar_inj
    (h : s.flatMap quotedChar ++ '"' :: xs = t.flatMap quotedChar ++ '"' :: ys) :
    s = t ∧ xs = ys := by
  induction s generalizing t with
  | nil =>
    cases t with
    | nil => simpa using h
    | cons d t =>
      have hhead := congrArg List.head? h
      rw [List.flatMap_cons, List.append_assoc] at hhead
      exact absurd hhead.symm (head?_quotedChar d _)
  | cons c s ih =>
    cases t with
    | nil =>
      have hhead := congrArg List.head? h
      rw [List.flatMap_cons, List.append_assoc] at hhead
      exact absurd hhead (head?_quotedChar c _)
    | cons d t =>
      rw [List.flatMap_cons, List.flatMap_cons, List.append_assoc, List.append_assoc] at h
      obtain ⟨rfl, hrest⟩ := quotedChar_append_inj h
      obtain ⟨rfl, hafter⟩ := ih hrest
      exact ⟨rfl, hafter⟩

theorem toList_quoted (s : String) :
    (quoted s).toList = '"' :: (s.toList.flatMap quotedChar ++ ['"']) := by
  rw [quoted, String.toList_ofList, List.cons_append]

/-- The text between quotes is recovered, and so is what stands behind the closing quote. -/
theorem quoted_append_inj {k l : String}
    (h : (quoted k).toList ++ xs = (quoted l).toList ++ ys) : k = l ∧ xs = ys := by
  rw [toList_quoted, toList_quoted, List.cons_append, List.cons_append, List.append_assoc,
    List.append_assoc] at h
  obtain ⟨hs, hrest⟩ := flatMap_quotedChar_inj (List.cons.inj h).2
  exact ⟨String.toList_inj.mp hs, hrest⟩

end RecordCheck.Text
