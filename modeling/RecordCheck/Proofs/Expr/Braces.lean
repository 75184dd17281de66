import RecordCheck.Proofs.Expr.FaultPlaces

/-! Double braces around a source. They are looked for at the ends of the trimmed text; in the text
as it stands they are the first that open and the last that close. With blanks in their place the
source has the tree and the places, or the error, of a text without braces. -/

namespace RecordCheck

open Text Results

/-! ### Occurrences -/

namespace Text

/-- A part stands behind `i` characters of a text, and nowhere before. -/
def FirstAt (part text : List Char) (i : Nat) : Prop :=
  part <+: text.drop i ∧ ∀ j < i, ¬ part <+: text.drop j

/-- A part stands behind `i` characters of a text, and nowhere after. -/
def LastAt (part text : List Char) (i : Nat) : Prop :=
  part <+: text.drop i ∧ ∀ j, i < j → ¬ part <+: text.drop j

theorem getElem?_of_prefix_drop {part text : List Char} {i k : Nat} (h : part <+: text.drop i)
    (hk : k < part.length) : text[i + k]? = some part[k] := by
  rw [← List.getElem?_drop]
  exact List.prefix_iff_getElem?.mp h k hk

/-- Trimming takes away the blanks around a text that neither starts nor ends with one. -/
theorem trim_append {before body after : List Char} (hb : ∀ c ∈ before, isBlank c = true)
    (ha : ∀ c ∈ after, isBlank c = true) (hne : body ≠ [])
    (hhead : ∀ c ∈ body.head?, isBlank c = false)
    (hlast : ∀ c ∈ body.getLast?, isBlank c = false) : trim (before ++ (body ++ after)) = body := by
  have pass {front body rest : List Char} (hf : ∀ c ∈ front, isBlank c = true) (hne : body ≠ [])
      (hhead : ∀ c ∈ body.head?, isBlank c = false) :
      (front ++ (body ++ rest)).dropWhile isBlank = body ++ rest := by
    cases body with
    | nil => exact absurd rfl hne
    | cons c cs => exact dropWhile_isBlank_cons hf (hhead c rfl)
  have hright : (body ++ after).reverse.dropWhile isBlank = body.reverse := by
    rw [List.reverse_append, ← List.append_nil body.reverse]
    exact pass (by simpa using ha) (by simpa) (by rwa [List.head?_reverse])
  rw [trim, trimLeft, pass hb hne hhead, trimRight, hright, List.reverse_reverse]

end Text

/-! ### A text between braces -/

namespace Formula

/-- The text between double braces. -/
def braced (inner : List Char) : List Char := ['\x7b', '\x7b'] ++ inner ++ ['\x7d', '\x7d']

theorem unwrapped?_braced (inner : List Char) : unwrapped? (braced inner) = some inner := by
  have hs : ['\x7d', '\x7d'].isSuffixOf (inner ++ ['\x7d', '\x7d']) = true :=
    List.isSuffixOf_iff_suffix.mpr (List.suffix_append ..)
  simp [unwrapped?, braced, hs]

variable {before inner after : List Char}

theorem trim_braced (hb : ∀ c ∈ before, isBlank c = true) (ha : ∀ c ∈ after, isBlank c = true) :
    trim (before ++ (braced inner ++ after)) = braced inner := by
  refine trim_append hb ha (by simp [braced]) ?_ ?_
  · intro c hc
    obtain rfl : '\x7b' = c := by simpa [braced] using hc
    decide +kernel
  · intro c hc
    obtain rfl : '\x7d' = c := by simpa [braced, List.getLast?_cons] using hc
    decide +kernel

/-- The blanks around and all that stands between the braces keep their places. -/
theorem blankBraces_braced (hb : ∀ c ∈ before, isBlank c = true)
    (ha : ∀ c ∈ after, isBlank c = true) :
    blankBraces (before ++ (braced inner ++ after)) =
      before ++ [' ', ' '] ++ inner ++ [' ', ' '] ++ after := by
  have hfront : (before ++ (braced inner ++ after)).takeWhile isBlank = before := by
    rw [List.takeWhile_append_of_pos hb]
    have : isBlank '\x7b' = false := by decide +kernel
    simp [braced, this]
  have hback : (before ++ (braced inner ++ after)).drop
      (before.length + (braced inner).length) = after := by
    rw [← List.append_assoc, ← List.length_append, List.drop_left]
  simp only [blankBraces, trim_braced hb ha, unwrapped?_braced, hfront, hback]

/-- No braces open among the blanks before. -/
theorem firstAt_braced (hb : ∀ c ∈ before, isBlank c = true) :
    FirstAt ['\x7b', '\x7b'] (before ++ (braced inner ++ after)) before.length := by
  constructor
  · rw [List.drop_left]
    exact ⟨inner ++ ['\x7d', '\x7d'] ++ after, by simp [braced]⟩
  · intro j hj h
    have hget := getElem?_of_prefix_drop (k := 0) h (by simp)
    rw [Nat.add_zero, List.getElem?_append_left hj] at hget
    have hblank := hb _ (List.mem_of_getElem? hget)
    revert hblank
    decide +kernel

/-- No braces close behind those at the end: two braces that started later would reach into the
blanks. -/
theorem lastAt_braced (ha : ∀ c ∈ after, isBlank c = true) :
    LastAt ['\x7d', '\x7d'] (before ++ (braced inner ++ after))
      (before.length + 2 + inner.length) := by
  have htext : before ++ (braced inner ++ after) =
      before ++ ['\x7b', '\x7b'] ++ inner ++ (['\x7d', '\x7d'] ++ after) := by
    simp [braced]
  have hlen : (before ++ ['\x7b', '\x7b'] ++ inner).length = before.length + 2 + inner.length := by
    simp only [List.length_append, List.length_cons, List.length_nil]
  rw [htext, ← hlen]
  generalize before ++ ['\x7b', '\x7b'] ++ inner = front
  constructor
  · rw [List.drop_left]
    exact List.prefix_append ..
  · intro j hj h
    have hget := getElem?_of_prefix_drop (k := 1) h (by simp)
    rw [List.getElem?_append_right (by omega), List.getElem?_append_right (by simp; omega)] at hget
    have hblank := ha _ (List.mem_of_getElem? hget)
    revert hblank
    decide +kernel

end Formula

/-! ### Texts that cannot be wrapped -/

theorem Tokens.ofChars_error {blanks rest : List Char} {c : Char} {failure : Lexer.Failure}
    (hb : ∀ b ∈ blanks, isBlank b = true) (hc : isBlank c = false)
    (ht : Lexer.token c rest = .error failure) (mark : Mark) :
    ∃ e, ofChars mark (blanks ++ c :: rest) = .error e := by
  have hdrop : (blanks ++ c :: rest).dropWhile isBlank = c :: rest := dropWhile_isBlank_cons hb hc
  rw [ofChars]
  split
  · next h => simp [hdrop] at h
  · next c' rest' h =>
    obtain ⟨rfl, rfl⟩ := List.cons.inj (hdrop.symm.trans h)
    simp only [ht]
    exact ⟨_, rfl⟩

namespace Formula

/-- No expression starts with a brace. -/
theorem unwrapped?_of_parse {source : String} {e : Expr} (h : Expr.parse source = .ok e) :
    unwrapped? (trim source.toList) = none := by
  cases hu : unwrapped? (trim source.toList) with
  | none => rfl
  | some inner =>
    obtain ⟨after, htext⟩ := exists_trim source.toList
    rw [eq_of_unwrapped hu] at htext
    obtain ⟨err, herr⟩ : ∃ err, Tokens.ofChars Mark.start source.toList = .error err := by
      rw [htext]
      exact Tokens.ofChars_error (fun b hb => List.mem_takeWhile_imp hb) (by decide +kernel) rfl _
    rw [Expr.parse, Tokens.ofText, herr] at h
    cases h

/-- An expression whose calls are not wrong; else the error of the first wrong one. -/
def checkCalls (e : Expr) : Except SyntaxError Expr :=
  match firstCallError? e with
  | some err => .error err
  | none => .ok e

theorem compile_eq (source : String) :
    compile source = do
      let e ← Expr.parse (String.ofList (blankBraces source.toList))
      let e ← checkCalls e
      return ⟨String.ofList (trim source.toList), e⟩ := by
  cases hp : Expr.parse (String.ofList (blankBraces source.toList)) with
  | error err => simp only [compile, hp]; rfl
  | ok e =>
    rw [compile_of_parse hp, ok_bind, checkCalls]
    cases firstCallError? e <;> rfl

/-- Double braces around a source, with any blanks beside them, change nothing but the text of the
formula: it is compiled as the text with two blanks in the place of each pair, so with the same
places. The pairs are the first that opens in the text and the last that closes. And no text of an
expression is taken for one between braces; it is compiled as it stands. -/
theorem compile_braced :
    (∀ before inner after : String, (∀ c ∈ before.toList, isBlank c = true) →
      (∀ c ∈ after.toList, isBlank c = true) →
      let source := before ++ "\x7b\x7b" ++ inner ++ "\x7d\x7d" ++ after
      (compile source = do
        let e ← Expr.parse (before ++ "  " ++ inner ++ "  " ++ after)
        let e ← checkCalls e
        return ⟨"\x7b\x7b" ++ inner ++ "\x7d\x7d", e⟩) ∧
      FirstAt ['\x7b', '\x7b'] source.toList before.length ∧
      LastAt ['\x7d', '\x7d'] source.toList (before.length + 2 + inner.length)) ∧
    ∀ source e, Expr.parse source = .ok e →
      unwrapped? (trim source.toList) = none ∧ blankBraces source.toList = source.toList ∧
      compile source = (checkCalls e).map (Formula.mk (String.ofList (trim source.toList))) := by
  refine ⟨fun before inner after hb ha => ?_, fun source e he => ?_⟩
  · have htext : (before ++ "\x7b\x7b" ++ inner ++ "\x7d\x7d" ++ after).toList =
        before.toList ++ (braced inner.toList ++ after.toList) := by
      simp [braced]
    have hblank : String.ofList (before.toList ++ [' ', ' '] ++ inner.toList ++ [' ', ' '] ++
        after.toList) = before ++ "  " ++ inner ++ "  " ++ after := by
      simp [← String.toList_inj]
    have hbody : String.ofList (braced inner.toList) = "\x7b\x7b" ++ inner ++ "\x7d\x7d" := by
      simp [braced, ← String.toList_inj]
    refine ⟨?_, ?_, ?_⟩
    · rw [compile_eq, htext, blankBraces_braced hb ha, trim_braced hb ha, hblank, hbody]
    · rw [htext]
      exact firstAt_braced hb
    · rw [htext]
      exact lastAt_braced ha
  · have hu := unwrapped?_of_parse he
    have hself := blankBraces_eq_self hu
    refine ⟨hu, hself, ?_⟩
    rw [compile_eq, hself, String.ofList_toList, he, ok_bind]
    cases checkCalls e <;> rfl

/-- An em space and a line break stand before the braces, a no-break space stands after them, and a
string between them holds braces of its own. -/
theorem exists_compile_braced :
    let before := "\u2003\n"
    let inner := "this in ['\x7d\x7d', '\x7b\x7b']"
    let after := "\u00a0"
    let source := before ++ "\x7b\x7b" ++ inner ++ "\x7d\x7d" ++ after
    let plain := before ++ "  " ++ inner ++ "  " ++ after
    (∀ c ∈ before.toList, isBlank c = true) ∧ (∀ c ∈ after.toList, isBlank c = true) ∧
    ∃ e, Expr.parse plain = .ok e ∧ e.span = ⟨6, 26, 2, 3⟩ ∧
      compile source = .ok ⟨"\x7b\x7b" ++ inner ++ "\x7d\x7d", e⟩ ∧
      LastAt ['\x7d', '\x7d'] source.toList 24 ∧
      compile plain = .ok ⟨inner, e⟩ := by
  intro before inner after source plain
  have hb : ∀ c ∈ before.toList, isBlank c = true := List.all_eq_true.mp (by decide +kernel)
  have ha : ∀ c ∈ after.toList, isBlank c = true := List.all_eq_true.mp (by decide +kernel)
  have hp : (Expr.parse plain).toOption.any (fun e =>
      e.span = ⟨6, 26, 2, 3⟩ && (firstCallError? e).isNone) = true := by
    decide +kernel
  obtain ⟨e, he, hspan⟩ := toOption_any_iff.mp hp
  obtain ⟨hspan, hcalls⟩ := Bool.and_eq_true_iff.mp hspan
  have hcheck : checkCalls e = .ok e := by rw [checkCalls, Option.isNone_iff_eq_none.mp hcalls]
  have hplace : before.length + 2 + inner.length = 24 := by decide +kernel
  obtain ⟨hc, -, hlast⟩ := compile_braced.1 before inner after hb ha
  rw [hplace] at hlast
  refine ⟨hb, ha, e, he, by simpa using hspan, ?_, hlast, ?_⟩
  · rw [hc]
    simp only [plain] at he
    rw [he, ok_bind, hcheck]
    rfl
  · have htrim : String.ofList (trim plain.toList) = inner := by decide +kernel
    rw [(compile_braced.2 plain e he).2.2, hcheck, htrim]
    rfl

end Formula

end RecordCheck
