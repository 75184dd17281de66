import Mathlib.Data.List.Basic
import RecordCheck.Proofs.Expr.Spelling
import RecordCheck.Proofs.Validation.Access

/-! Addresses as paths print them. The text of a path below its root, without the point it starts
with, is read back as the steps of the path. -/

namespace RecordCheck

/-! ### Pieces -/

namespace Text

variable {separates : Char → Bool} {part rest : List Char}

theorem split_eq_splitOnP (cs : List Char) : split separates cs = cs.splitOnP separates := by
  induction cs with
  | nil => rfl
  | cons c cs ih => rw [split, ih, List.splitOnP_cons_eq_if_modifyHead]

/-- An empty piece is left out. -/
theorem pieces_of_forall (h : ∀ c ∈ part, separates c = false) :
    pieces separates part = [part].filter fun piece => !piece.isEmpty := by
  rw [pieces, split_eq_splitOnP, List.splitOnP_eq_singleton h]

theorem pieces_append_cons {c : Char} (h : ∀ c ∈ part, separates c = false)
    (hc : separates c = true) :
    pieces separates (part ++ c :: rest) =
      [part].filter (fun piece => !piece.isEmpty) ++ pieces separates rest := by
  rw [pieces, pieces, split_eq_splitOnP, split_eq_splitOnP,
    List.splitOnP_append_cons_of_forall_mem h c hc, ← List.filter_append]
  rfl

theorem pieces_cons {c : Char} (hc : separates c = true) :
    pieces separates (c :: rest) = pieces separates rest :=
  pieces_append_cons (List.forall_mem_nil _) hc

end Text

/-! ### Steps and their text -/

/-- The step has a text that an address can hold: it is an index, or the name of a field that is
not empty and has no points and no brackets. -/
def Step.Plain : Step → Prop
  | .field name => name ≠ "" ∧ ∀ c ∈ name.toList, c ≠ '.' ∧ c ≠ '[' ∧ c ≠ ']'
  | .index _ => True
  | .key _ => False

/-- The text of a path below its root, without a point at the start. -/
def Path.address (path : Path) : String :=
  let below := path.text.toList.drop path.root.toList.length
  String.ofList (if below.head? = some '.' then below.tail else below)

namespace Address

open Text

/-- The characters of some steps, one after another. -/
def chars (steps : List Step) : List Char := steps.flatMap fun step => step.text.toList

@[simp] theorem chars_nil : chars [] = [] := rfl

@[simp] theorem chars_cons (step : Step) (steps : List Step) :
    chars (step :: steps) = step.text.toList ++ chars steps := List.flatMap_cons

@[simp] theorem chars_append (steps more : List Step) :
    chars (steps ++ more) = chars steps ++ chars more := List.flatMap_append

theorem toList_field (name : String) : (Step.field name).text.toList = '.' :: name.toList := by
  simp [Step.text]

theorem toList_index (i : Nat) :
    (Step.index i).text.toList = '[' :: (Decimal.digits i ++ [']']) := by
  simp [Step.text, Decimal.digits, Nat.toString_eq_repr]

/-! ### Reading a part -/

theorem isDigit_of_mem_digits {n : Nat} {c : Char} (h : c ∈ Decimal.digits n) :
    c.isDigit = true := Nat.isDigit_of_mem_toDigits (by decide) (by decide) h

theorem index?_digits (i : Nat) : index? (Decimal.digits i) = some i := by
  have hne : Decimal.digits i ≠ [] := Nat.toDigits_ne_nil
  have hall : ∀ c ∈ Decimal.digits i, c.isDigit = true := fun c => isDigit_of_mem_digits
  have hn := Lexer.ofDigits_digits i
  generalize Decimal.digits i = ds at hne hall hn
  simp only [index?]
  split
  next rest =>
    cases hall '+' List.mem_cons_self
  next => simp [hne, hn, List.all_eq_true.mpr hall]

/-- The digits between brackets are the pieces. -/
theorem pieces_indexes (is : List Nat) :
    pieces isBracket (chars (is.map .index)) = is.map Decimal.digits := by
  induction is with
  | nil => rfl
  | cons i is ih =>
    have hdigits : ∀ c ∈ Decimal.digits i, isBracket c = false := by
      intro c hc
      have hd := isDigit_of_mem_digits hc
      by_contra hb
      rw [Bool.not_eq_false, isBracket, Bool.or_eq_true, beq_iff_eq, beq_iff_eq] at hb
      rcases hb with rfl | rfl <;> cases hd
    have hne : Decimal.digits i ≠ [] := Nat.toDigits_ne_nil
    rw [List.map_cons, chars_cons, toList_index, List.cons_append, List.append_assoc,
      List.singleton_append, pieces_cons rfl, pieces_append_cons hdigits rfl, ih]
    simp [hne]

/-- The name that a part starts with, as a step. -/
def named (name : List Char) : List Step :=
  if name.isEmpty then [] else [.field (String.ofList name)]

theorem mapM_index? (is : List Nat) : (is.map Decimal.digits).mapM index? = some is := by
  induction is with
  | nil => rfl
  | cons i is ih =>
    rw [List.map_cons, List.mapM_cons, index?_digits, ih]
    rfl

theorem partSteps?_append {name : List Char} (hn : ∀ c ∈ name, c ≠ '[') (is : List Nat) :
    partSteps? (name ++ chars (is.map .index)) = some (named name ++ is.map .index) := by
  have hhead : ∀ d ∈ (chars (is.map .index)).head?, (d != '[') = false := by
    cases is with
    | nil => simp
    | cons i is => simp [toList_index]
  have htake : (name ++ chars (is.map .index)).takeWhile (· != '[') = name :=
    Lexer.takeWhile_of_head (by simpa using hn) hhead
  have hdrop : (name ++ chars (is.map .index)).dropWhile (· != '[') = chars (is.map .index) := by
    have h := List.takeWhile_append_dropWhile (p := (· != '['))
      (l := name ++ chars (is.map .index))
    rw [htake] at h
    exact List.append_cancel_left h
  simp only [partSteps?, htake, hdrop, pieces_indexes, mapM_index?]
  rfl

/-! ### Reading an address -/

/-- The steps of an address, by its characters. -/
def read? (cs : List Char) : Option (List Step) :=
  (·.flatten) <$> (pieces (· == '.') cs).mapM partSteps?

variable {part rest : List Char}

/-- Nothing is lost with an empty part, which has no steps. -/
theorem mapM_partSteps? (part : List Char) :
    (·.flatten) <$> ([part].filter fun piece => !piece.isEmpty).mapM partSteps? =
      partSteps? part := by
  cases part with
  | nil => rfl
  | cons c cs =>
    simp only [List.isEmpty_cons, Bool.not_false, List.filter_cons_of_pos, List.filter_nil]
    rw [List.mapM_cons]
    cases partSteps? (c :: cs) <;> simp

theorem read?_part (h : ∀ c ∈ part, (c == '.') = false) : read? part = partSteps? part := by
  rw [read?, pieces_of_forall h, mapM_partSteps?]

theorem read?_append_point (h : ∀ c ∈ part, (c == '.') = false) :
    read? (part ++ '.' :: rest) = do return (← partSteps? part) ++ (← read? rest) := by
  rw [read?, pieces_append_cons h rfl, List.mapM_append, ← mapM_partSteps? part, read?]
  cases ([part].filter fun piece => !piece.isEmpty).mapM partSteps? with
  | none => rfl
  | some xs => cases (pieces (· == '.') rest).mapM partSteps? <;> simp

theorem ne_point_of_mem_indexes {is : List Nat} {c : Char} (h : c ∈ chars (is.map .index)) :
    c ≠ '.' := by
  rintro rfl
  induction is with
  | nil => cases h
  | cons i is ih =>
    simp only [List.map_cons, chars_cons, toList_index, List.mem_append, List.mem_cons] at h
    rcases h with (h | h | h) | h
    · cases h
    · cases isDigit_of_mem_digits h
    · simp at h
    · exact ih h

theorem ne_point_of_mem_part {name : List Char} (hn : ∀ c ∈ name, c ≠ '.' ∧ c ≠ '[')
    (is : List Nat) : ∀ c ∈ name ++ chars (is.map .index), (c == '.') = false := by
  intro c hc
  rw [beq_eq_false_iff_ne]
  rcases List.mem_append.mp hc with hc | hc
  · exact (hn c hc).1
  · exact ne_point_of_mem_indexes hc

/-- The name and the indexes that stand before the steps are those of the part in which the steps
start. -/
theorem read?_chars {steps : List Step} (hs : ∀ step ∈ steps, step.Plain) {name : List Char}
    (hn : ∀ c ∈ name, c ≠ '.' ∧ c ≠ '[') (is : List Nat) :
    read? (name ++ chars (is.map .index) ++ chars steps) =
      some (named name ++ is.map .index ++ steps) := by
  induction steps generalizing name is with
  | nil =>
    rw [chars_nil, List.append_nil, List.append_nil, read?_part (ne_point_of_mem_part hn is),
      partSteps?_append fun c hc => (hn c hc).2]
  | cons step steps ih =>
    obtain ⟨hstep, hrest⟩ := List.forall_mem_cons.mp hs
    cases step with
    | index i => simpa using ih hrest hn (is ++ [i])
    | field n =>
      obtain ⟨hne, hplain⟩ := hstep
      have hname : named n.toList = [.field n] := by simp [named, hne]
      have hread : read? (n.toList ++ chars steps) = some (.field n :: steps) := by
        simpa [hname] using ih hrest (fun c hc => ⟨(hplain c hc).1, (hplain c hc).2.1⟩) []
      rw [chars_cons, toList_field, List.cons_append,
        read?_append_point (ne_point_of_mem_part hn is), hread,
        partSteps?_append fun c hc => (hn c hc).2]
      rfl
    | key k => cases hstep

/-- A point at the start makes no difference. -/
theorem read?_point (cs : List Char) : read? ('.' :: cs) = read? cs := by
  rw [read?, pieces_cons rfl, read?]

theorem toList_text (path : Path) :
    path.text.toList = path.root.toList ++ chars path.steps := by
  simp [Path.text, chars, List.flatMap_map]

theorem steps?_address {path : Path} (h : ∀ step ∈ path.steps, step.Plain) :
    steps? path.address = some path.steps := by
  have hread : read? (chars path.steps) = some path.steps :=
    read?_chars h (List.forall_mem_nil _) []
  change read? path.address.toList = _
  rw [Path.address, toList_text, List.drop_left, String.toList_ofList]
  split
  next hpoint =>
    obtain ⟨cs, hcs⟩ := List.head?_eq_some_iff.mp hpoint
    rw [hcs, List.tail_cons, ← read?_point, ← hcs, hread]
  next => exact hread

end Address

namespace Validated

/-- The address of a path leads where its steps do, one after another, and nowhere if one of them
finds nothing. The empty address is that of the whole. -/
theorem node?_address (t : Validated) :
    (∀ path : Path, (∀ step ∈ path.steps, step.Plain) →
      t.node? path.address = t.at? path.steps ∧
      (t.node? path.address = none ↔ ∃ before step after node,
        path.steps = before ++ step :: after ∧ t.at? before = some node ∧
          node.child? step = none)) ∧
    t.node? "" = some t := by
  refine ⟨fun path h => ?_, rfl⟩
  have hnode : t.node? path.address = t.at? path.steps := by
    rw [node?, Address.steps?_address h, Option.bind_some]
  exact ⟨hnode, by rw [hnode, at?, Results.foldlM_eq_none_iff]; rfl⟩

/-- An address that starts with an index and goes on through checks around a list, and one with an
index beyond the end of that list. -/
theorem exists_node?_address :
    let item : Validated := .object "Item" [("id", .scalar (.int 7))]
    let shop : Validated := .object "Shop"
      [("items", .checked (.list [.scalar .null, item]) [⟨"some", none, true⟩])]
    let tree : Validated := .list [.scalar .null, shop]
    let path : Path := ⟨"root", [.index 1, .field "items", .index 1, .field "id"]⟩
    let beyond : Path := ⟨"root", [.index 1, .field "items", .index 10]⟩
    (∀ step ∈ path.steps, step.Plain) ∧ path.address = "[1].items[1].id" ∧
      tree.node? "[1].items[1].id" = some (.scalar (.int 7)) ∧
      (∀ step ∈ beyond.steps, step.Plain) ∧ beyond.address = "[1].items[10]" ∧
      tree.node? "[1].items[10]" = none := by
  intro item shop tree path beyond
  have hpath : ∀ step ∈ path.steps, step.Plain := by simp [path, Step.Plain]
  have hbeyond : ∀ step ∈ beyond.steps, step.Plain := by simp [beyond, Step.Plain]
  have haddress : path.address = "[1].items[1].id" := by decide +kernel
  have haddress' : beyond.address = "[1].items[10]" := by decide +kernel
  have hnode := (tree.node?_address.1 path hpath).1
  have hnone := (tree.node?_address.1 beyond hbeyond).1
  rw [haddress] at hnode
  rw [haddress'] at hnone
  exact ⟨hpath, haddress, hnode, hbeyond, haddress', hnone⟩

end Validated

end RecordCheck
