import RecordCheck.Proofs.Text.Quoted
import RecordCheck.Proofs.Validation.Addresses

/-! The texts of paths. Where a step ends can be told from its text, whatever a key in it looks
like, so different paths have different texts. -/

namespace RecordCheck

/-- The name has no points, brackets or quotes. -/
def Path.PlainName (name : String) : Prop :=
  ∀ c ∈ name.toList, c ≠ '.' ∧ c ≠ '[' ∧ c ≠ ']' ∧ c ≠ '"'

/-- The names of the root and of the fields are plain. Keys are any texts. -/
structure Path.Plain (path : Path) : Prop where
  root : PlainName path.root
  fields : ∀ name, .field name ∈ path.steps → PlainName name

namespace Address

variable {xs ys : List Char}

/-- The text is empty or starts with a step. -/
def Opens (cs : List Char) : Prop := ∀ c ∈ cs.head?, c = '.' ∨ c = '['

theorem toList_key (key : String) :
    (Step.key key).text.toList = '[' :: ((Text.quoted key).toList ++ [']']) := by
  simp [Step.text]

theorem opens_chars (steps : List Step) : Opens (chars steps) := by
  cases steps with
  | nil => simp [Opens]
  | cons step steps =>
    cases step with
    | field name => simp [Opens, toList_field]
    | index i => simp [Opens, toList_index]
    | key k => simp [Opens, toList_key]

/-! ### Where names and steps end -/

/-- Two texts are cut alike where the characters with some property end. -/
theorem append_inj_of_head {p : Char → Bool} {cs ds : List Char} (hc : ∀ c ∈ cs, p c = true)
    (hd : ∀ d ∈ ds, p d = true) (hx : ∀ c ∈ xs.head?, p c = false)
    (hy : ∀ c ∈ ys.head?, p c = false) (h : cs ++ xs = ds ++ ys) : cs = ds ∧ xs = ys := by
  have htake := congrArg (List.takeWhile p) h
  rw [Lexer.takeWhile_of_head hc hx, Lexer.takeWhile_of_head hd hy] at htake
  subst htake
  exact ⟨rfl, List.append_cancel_left h⟩

/-- A name ends where the next step starts. -/
theorem name_append_inj {name other : String} (hn : Path.PlainName name)
    (ho : Path.PlainName other) (hx : Opens xs) (hy : Opens ys)
    (h : name.toList ++ xs = other.toList ++ ys) : name = other ∧ xs = ys := by
  let inName (c : Char) : Bool := c != '.' && c != '['
  have hplain {n : String} (h : Path.PlainName n) : ∀ c ∈ n.toList, inName c = true := by
    intro c hc
    obtain ⟨hpoint, hbracket, -⟩ := h c hc
    simp [inName, hpoint, hbracket]
  have hends {cs : List Char} (h : Opens cs) : ∀ c ∈ cs.head?, inName c = false := by
    intro c hc
    rcases h c hc with rfl | rfl <;> rfl
  obtain ⟨hname, hrest⟩ :=
    append_inj_of_head (hplain hn) (hplain ho) (hends hx) (hends hy) h
  exact ⟨String.toList_inj.mp hname, hrest⟩

/-- The digits of an index end at the closing bracket. -/
theorem index_append_inj {i j : Nat}
    (h : (Step.index i).text.toList ++ xs = (Step.index j).text.toList ++ ys) :
    i = j ∧ xs = ys := by
  have hbracket (cs : List Char) : ∀ c ∈ (']' :: cs).head?, c.isDigit = false := by
    simp only [List.head?_cons, Option.mem_some_iff, forall_eq']
    rfl
  simp only [toList_index, List.cons_append, List.append_assoc, List.nil_append, List.cons.injEq,
    true_and] at h
  obtain ⟨hdigits, hrest⟩ := append_inj_of_head (fun _ => isDigit_of_mem_digits)
    (fun _ => isDigit_of_mem_digits) (hbracket xs) (hbracket ys) h
  have hij := congrArg Decimal.ofDigits hdigits
  rw [Lexer.ofDigits_digits, Lexer.ofDigits_digits] at hij
  exact ⟨hij, (List.cons.inj hrest).2⟩

theorem key_append_inj {k l : String}
    (h : (Step.key k).text.toList ++ xs = (Step.key l).text.toList ++ ys) :
    k = l ∧ xs = ys := by
  simp only [toList_key, List.cons_append, List.append_assoc, List.cons.injEq, true_and] at h
  obtain ⟨rfl, hrest⟩ := Text.quoted_append_inj h
  exact ⟨rfl, by simpa using hrest⟩

/-- An index starts with a digit, and a key with a quote. -/
theorem index_append_ne_key {i : Nat} {k : String} :
    (Step.index i).text.toList ++ xs ≠ (Step.key k).text.toList ++ ys := by
  intro h
  obtain ⟨c, cs, hcs⟩ : ∃ c cs, Decimal.digits i = c :: cs :=
    List.exists_cons_of_ne_nil Nat.toDigits_ne_nil
  have hc : c.isDigit = true := isDigit_of_mem_digits (hcs ▸ List.mem_cons_self)
  simp only [toList_index, toList_key, Text.toList_quoted, hcs, List.cons_append, List.cons.injEq,
    true_and] at h
  rw [h.1] at hc
  cases hc

theorem step_append_inj {step other : Step} (hs : ∀ name, step = .field name → Path.PlainName name)
    (ho : ∀ name, other = .field name → Path.PlainName name) (hx : Opens xs) (hy : Opens ys)
    (h : step.text.toList ++ xs = other.text.toList ++ ys) : step = other ∧ xs = ys := by
  cases step with
  | field name =>
    cases other with
    | field name' =>
      simp only [toList_field, List.cons_append, List.cons.injEq, true_and] at h
      obtain ⟨rfl, hrest⟩ := name_append_inj (hs name rfl) (ho name' rfl) hx hy h
      exact ⟨rfl, hrest⟩
    | index j => simp [toList_field, toList_index] at h
    | key l => simp [toList_field, toList_key] at h
  | index i =>
    cases other with
    | field name' => simp [toList_field, toList_index] at h
    | index j =>
      obtain ⟨rfl, hrest⟩ := index_append_inj h
      exact ⟨rfl, hrest⟩
    | key l => exact absurd h index_append_ne_key
  | key k =>
    cases other with
    | field name' => simp [toList_field, toList_key] at h
    | index j => exact absurd h.symm index_append_ne_key
    | key l =>
      obtain ⟨rfl, hrest⟩ := key_append_inj h
      exact ⟨rfl, hrest⟩

/-! ### Steps and paths -/

theorem chars_ne_nil (step : Step) (steps : List Step) : chars (step :: steps) ≠ [] := by
  cases step with
  | field name => simp [toList_field]
  | index i => simp [toList_index]
  | key k => simp [toList_key]

theorem chars_inj {steps others : List Step}
    (hs : ∀ name, .field name ∈ steps → Path.PlainName name)
    (ho : ∀ name, .field name ∈ others → Path.PlainName name)
    (h : chars steps = chars others) : steps = others := by
  induction steps generalizing others with
  | nil =>
    cases others with
    | nil => rfl
    | cons other others => exact absurd h.symm (chars_ne_nil other others)
  | cons step steps ih =>
    cases others with
    | nil => exact absurd h (chars_ne_nil step steps)
    | cons other others =>
      rw [chars_cons, chars_cons] at h
      obtain ⟨rfl, hrest⟩ := step_append_inj (fun name hn => hs name (by simp [hn]))
        (fun name hn => ho name (by simp [hn])) (opens_chars steps) (opens_chars others) h
      rw [ih (fun name hn => hs name (List.mem_cons_of_mem _ hn))
        (fun name hn => ho name (List.mem_cons_of_mem _ hn)) hrest]

end Address

namespace Path

/-- The text of a path with plain names is that of no other such path, whatever the keys are. -/
theorem text_eq_text_iff {p q : Path} (hp : p.Plain) (hq : q.Plain) :
    p.text = q.text ↔ p = q := by
  constructor
  · intro h
    have hchars := congrArg String.toList h
    rw [Address.toList_text, Address.toList_text] at hchars
    obtain ⟨hroot, hsteps⟩ := Address.name_append_inj hp.root hq.root
      (Address.opens_chars p.steps) (Address.opens_chars q.steps) hchars
    obtain ⟨root, steps⟩ := p
    obtain rfl : root = q.root := hroot
    obtain rfl : steps = q.steps := Address.chars_inj hp.fields hq.fields hsteps
    rfl
  · rintro rfl
    rfl

/-- A key that looks like the end of one, an index, a field and another key. -/
theorem exists_text_ne_text :
    let p : Path := ⟨"Order", [.field "lines", .key "a\"][0].b[\"c"]⟩
    let q : Path := ⟨"Order", [.field "lines", .key "a", .index 0, .field "b", .key "c"]⟩
    p.Plain ∧ q.Plain ∧ p.text = "Order.lines[\"a\\\"][0].b[\\\"c\"]" ∧
      q.text = "Order.lines[\"a\"][0].b[\"c\"]" ∧ p.text ≠ q.text := by
  intro p q
  have hp : p.Plain := ⟨by simp [p, PlainName], by simp [p, PlainName]⟩
  have hq : q.Plain := ⟨by simp [q, PlainName], by simp [q, PlainName]⟩
  refine ⟨hp, hq, by decide +kernel, by decide +kernel, ?_⟩
  rw [ne_eq, text_eq_text_iff hp hq]
  decide

end Path

end RecordCheck
