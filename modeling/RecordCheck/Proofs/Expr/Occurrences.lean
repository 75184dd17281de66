import Mathlib.Data.List.Lex
import RecordCheck.Proofs.Expr.Places
import RecordCheck.Proofs.Expr.References

/-! Where the roots of an expression occur. A root is read as a whole where no field is taken
directly from it, and the fields that are taken are listed as a walk through the expression meets
them. -/

namespace RecordCheck.Expr

variable {e c : Expr} {r : Root} {i : Nat} {place rest : List Nat} {name : String}

/-! ### Places -/

/-- The expression that lies at a place: each number is that of a part. A place comes before those
inside it and before those inside the parts further to the right. -/
def at? (e : Expr) (place : List Nat) : Option Expr :=
  place.foldlM (fun e i => e.children[i]?) e

theorem at?_cons (e : Expr) (i : Nat) (rest : List Nat) :
    e.at? (i :: rest) = e.children[i]?.bind (·.at? rest) := List.foldlM_cons

theorem at?_cons_eq_some {t : Expr} :
    e.at? (i :: rest) = some t ↔ ∃ c, e.children[i]? = some c ∧ c.at? rest = some t := by
  rw [at?_cons, Option.bind_eq_some_iff]

/-- Inside an expression without parts lies the expression alone. -/
theorem eq_of_at?_leaf {t : Expr} (hc : e.children = []) (h : e.at? place = some t) :
    place = [] ∧ t = e := by
  cases place with
  | nil =>
    cases h
    exact ⟨rfl, rfl⟩
  | cons i rest =>
    obtain ⟨c, hi, -⟩ := at?_cons_eq_some.mp h
    rw [hc] at hi
    cases hi

theorem length_subterms_lt (h : c ∈ e.children) : c.subterms.length < e.subterms.length := by
  obtain ⟨before, after, hc⟩ := List.append_of_mem h
  rw [subterms_eq e, hc]
  simp only [List.flatMap_append, List.flatMap_cons, List.length_cons, List.length_append]
  omega

/-- A property of expressions holds if each has it whose parts all have it. -/
theorem induction_children {P : Expr → Prop} (h : ∀ e, (∀ c ∈ e.children, P c) → P e)
    (e : Expr) : P e := by
  induction hn : e.subterms.length using Nat.strong_induction_on generalizing e with
  | h n ih =>
    subst hn
    exact h e fun c hc => ih _ (length_subterms_lt hc) c rfl

/-! ### Fields taken from a base -/

/-- The expression takes a field directly from its base, by a point or by a string in brackets. -/
inductive TakesField : Expr → Expr → String → Prop where
  | field (base name s) : TakesField (.field base name s) base name
  | index (base name t s) : TakesField (.index base (.literal (.string name) t) s) base name

/-- At the place is the base from which a field is directly taken. -/
def IsBase (e : Expr) (place : List Nat) : Prop :=
  ∃ around t base name, place = around ++ [0] ∧ e.at? around = some t ∧ TakesField t base name

/-- At the place a field is directly taken from the root. -/
def TakenAt (e : Expr) (r : Root) (place : List Nat) (name : String) : Prop :=
  ∃ t s, e.at? place = some t ∧ TakesField t (.root r s) name

theorem access?_eq_some_iff : e.access? r = some name ↔ ∃ s, TakesField e (.root r s) name := by
  constructor
  · intro h
    cases e with
    | field base n s =>
      simp only [access?, Option.ite_none_right_eq_some, isRoot_iff] at h
      obtain ⟨⟨t, rfl⟩, h⟩ := h
      cases h
      exact ⟨t, .field ..⟩
    | index base i s =>
      simp only [access?, Option.ite_none_right_eq_some, isRoot_iff, stringLiteral?_iff] at h
      obtain ⟨⟨t, rfl⟩, u, rfl⟩ := h
      exact ⟨t, .index ..⟩
    | _ => cases h
  · rintro ⟨s, h⟩
    cases h <;> simp [access?, isRoot, stringLiteral?]

theorem not_isBase_nil : ¬ e.IsBase [] := by
  rintro ⟨around, t, base, name, h, -⟩
  simp at h

theorem isBase_cons : e.IsBase (i :: rest) ↔
    (i = 0 ∧ rest = [] ∧ ∃ base name, TakesField e base name) ∨
      ∃ c, e.children[i]? = some c ∧ c.IsBase rest := by
  constructor
  · rintro ⟨around, t, base, name, hp, ha, ht⟩
    cases around with
    | nil =>
      cases hp
      cases ha
      exact .inl ⟨rfl, rfl, base, name, ht⟩
    | cons j around =>
      obtain ⟨rfl, rfl⟩ := List.cons.inj hp
      obtain ⟨c, hc, ha⟩ := at?_cons_eq_some.mp ha
      exact .inr ⟨c, hc, around, t, base, name, rfl, ha, ht⟩
  · rintro (⟨rfl, rfl, base, name, ht⟩ | ⟨c, hc, around, t, base, name, rfl, ha, ht⟩)
    · exact ⟨[], e, base, name, rfl, rfl, ht⟩
    · exact ⟨i :: around, t, base, name, rfl, at?_cons_eq_some.mpr ⟨c, hc, ha⟩, ht⟩

/-! ### Roots read as a whole -/

theorem anyReadsWhole_iff {es : List Expr} :
    anyReadsWhole r es = true ↔ ∃ c ∈ es, c.readsWhole r = true := by
  induction es with
  | nil => simp [anyReadsWhole]
  | cons e rest ih => simp [anyReadsWhole, ih]

theorem anyLinkReadsWhole_iff {links : List (CompareOp × Expr)} :
    anyLinkReadsWhole r links = true ↔ ∃ c ∈ links.map (·.2), c.readsWhole r = true := by
  induction links with
  | nil => simp [anyLinkReadsWhole]
  | cons link rest ih =>
    obtain ⟨op, e⟩ := link
    simp [anyLinkReadsWhole, ih]

/-- A root is read as a whole if it is the expression itself or is so read in some part, unless
the expression takes a field directly from it. -/
theorem readsWhole_iff_children : e.readsWhole r = true ↔
    e.isRoot r = true ∨ e.access? r = none ∧ ∃ c ∈ e.children, c.readsWhole r = true := by
  cases e with
  | field base name s =>
    have hr : isRoot r (.field base name s) = false := rfl
    by_cases hb : base.isRoot r <;> simp [readsWhole, access?, children, hr, hb]
  | index base i s =>
    have hr : isRoot r (.index base i s) = false := rfl
    by_cases hb : base.isRoot r
    · cases hi : i.stringLiteral? <;> simp [readsWhole, access?, children, hr, hb, hi]
    · simp [readsWhole, access?, children, hr, hb]
  | _ =>
    simp [readsWhole, isRoot, access?, children, anyReadsWhole_iff, anyLinkReadsWhole_iff]

/-- No root lies inside the parts of an access but its base. -/
theorem TakesField.eq_of_at? {s t : Span} {q : Root} (h : TakesField e (.root r s) name)
    (ht : e.at? (i :: rest) = some (.root q t)) : i = 0 ∧ rest = [] := by
  obtain ⟨c, hc, ht⟩ := at?_cons_eq_some.mp ht
  cases h with
  | field =>
    match i with
    | 0 =>
      cases hc
      exact ⟨rfl, (eq_of_at?_leaf rfl ht).1⟩
    | _ + 1 => cases hc
  | index =>
    match i with
    | 0 =>
      cases hc
      exact ⟨rfl, (eq_of_at?_leaf rfl ht).1⟩
    | 1 =>
      cases hc
      cases (eq_of_at?_leaf rfl ht).2
    | _ + 2 => cases hc

/-- A root is read as a whole exactly if it stands somewhere without being a base. -/
theorem readsWhole_iff_exists : e.readsWhole r = true ↔
    ∃ place s, e.at? place = some (.root r s) ∧ ¬ e.IsBase place := by
  induction e using induction_children with
  | h e ih =>
    rw [readsWhole_iff_children]
    constructor
    · rintro (hr | ⟨ha, c, hc, hw⟩)
      · obtain ⟨s, rfl⟩ := isRoot_iff.mp hr
        exact ⟨[], s, rfl, not_isBase_nil⟩
      · obtain ⟨place, s, hs, hn⟩ := (ih c hc).mp hw
        obtain ⟨i, hi⟩ := List.mem_iff_getElem?.mp hc
        refine ⟨i :: place, s, at?_cons_eq_some.mpr ⟨c, hi, hs⟩, fun hb => ?_⟩
        rcases isBase_cons.mp hb with ⟨rfl, rfl, base, name, ht⟩ | ⟨c', hc', hb⟩
        · -- The base is the part in which the root stands, so a field is taken from the root.
          have hbase : base = .root r s := by
            cases hs
            cases ht <;> exact Option.some.inj hi
          rw [hbase] at ht
          rw [access?_eq_some_iff.mpr ⟨s, ht⟩] at ha
          cases ha
        · cases hi.symm.trans hc'
          exact hn hb
    · rintro ⟨place, s, hs, hn⟩
      cases place with
      | nil =>
        cases hs
        exact .inl (by simp [isRoot])
      | cons i place =>
        obtain ⟨c, hc, hs'⟩ := at?_cons_eq_some.mp hs
        have hmem : c ∈ e.children := List.mem_of_getElem? hc
        refine .inr ⟨?_, c, hmem, (ih c hmem).mpr ⟨place, s, hs', fun hb => ?_⟩⟩
        · refine Option.eq_none_iff_forall_ne_some.mpr fun name ha => hn ?_
          obtain ⟨t, ht⟩ := access?_eq_some_iff.mp ha
          obtain ⟨rfl, rfl⟩ := ht.eq_of_at? hs
          exact isBase_cons.mpr (.inl ⟨rfl, rfl, _, _, ht⟩)
        · exact hn (isBase_cons.mpr (.inr ⟨c, hc, hb⟩))

/-! ### The walk -/

/-- The expressions are met at their places, in order. -/
structure Walk (e : Expr) (steps : List (List Nat × Expr)) : Prop where
  subterms_eq : steps.map (·.2) = e.subterms
  ordered : steps.Pairwise fun a b => a.1 < b.1
  mem_iff : ∀ place t, (place, t) ∈ steps ↔ e.at? place = some t

/-- The walk through some parts, of which the first has the number `start`. -/
structure WalkAll (start : Nat) (es : List Expr) (steps : List (List Nat × Expr)) : Prop where
  subterms_eq : steps.map (·.2) = es.flatMap subterms
  ordered : steps.Pairwise fun a b => a.1 < b.1
  mem_iff : ∀ place t, (place, t) ∈ steps ↔
    ∃ i rest c, place = (start + i) :: rest ∧ es[i]? = some c ∧ c.at? rest = some t

theorem WalkAll.cons {start : Nat} {es : List Expr} {steps steps' : List (List Nat × Expr)}
    (h : Walk c steps) (h' : WalkAll (start + 1) es steps') :
    WalkAll start (c :: es) (steps.map (fun step => (start :: step.1, step.2)) ++ steps') := by
  refine ⟨?_, ?_, ?_⟩
  · simp only [List.map_append, List.map_map, Function.comp_def, h.subterms_eq, h'.subterms_eq,
      List.flatMap_cons]
  · rw [List.pairwise_append, List.pairwise_map]
    refine ⟨h.ordered.imp fun hlt => List.Lex.cons hlt, h'.ordered, ?_⟩
    rintro _ hm ⟨place, t⟩ hm'
    obtain ⟨step, -, rfl⟩ := List.mem_map.mp hm
    obtain ⟨i, rest, c', rfl, -⟩ := (h'.mem_iff place t).mp hm'
    exact List.Lex.rel (by omega)
  · intro place t
    rw [List.mem_append, h'.mem_iff, List.mem_map]
    constructor
    · rintro (⟨⟨place', t'⟩, hm, heq⟩ | ⟨i, rest, c', rfl, hc, ht⟩)
      · cases heq
        exact ⟨0, place', c, rfl, rfl, (h.mem_iff _ _).mp hm⟩
      · exact ⟨i + 1, rest, c', by rw [Nat.add_assoc, Nat.add_comm 1], hc, ht⟩
    · rintro ⟨i, rest, c', rfl, hc, ht⟩
      cases i with
      | zero =>
        cases hc
        exact .inl ⟨(rest, t), (h.mem_iff rest t).mpr ht, rfl⟩
      | succ i =>
        exact .inr ⟨i, rest, c', by rw [Nat.add_assoc, Nat.add_comm 1], hc, ht⟩

theorem exists_walkAll {es : List Expr} (h : ∀ c ∈ es, ∃ steps, Walk c steps) (start : Nat) :
    ∃ steps, WalkAll start es steps := by
  induction es generalizing start with
  | nil => exact ⟨[], rfl, .nil, by simp⟩
  | cons c es ih =>
    rw [List.forall_mem_cons] at h
    obtain ⟨steps, hw⟩ := h.1
    obtain ⟨steps', hw'⟩ := ih h.2 (start + 1)
    exact ⟨_, .cons hw hw'⟩

/-- The expressions inside one are met in the order of their places. -/
theorem exists_walk (e : Expr) : ∃ steps, Walk e steps := by
  induction e using induction_children with
  | h e ih =>
    obtain ⟨steps, hw⟩ := exists_walkAll ih 0
    refine ⟨([], e) :: steps, ?_, ?_, ?_⟩
    · rw [List.map_cons, hw.subterms_eq, subterms_eq]
    · refine List.pairwise_cons.mpr ⟨?_, hw.ordered⟩
      rintro ⟨place, t⟩ hm
      obtain ⟨i, rest, c, rfl, -⟩ := (hw.mem_iff place t).mp hm
      exact List.Lex.nil
    · intro place t
      rw [List.mem_cons, hw.mem_iff]
      cases place with
      | nil => simp [at?, eq_comm]
      | cons i rest => simp [at?_cons_eq_some]

/-! ### Names in the order of their first occurrence -/

/-- The first entry with one name has a place before all those with the other. -/
def NamedBefore (entries : List (List Nat × String)) (a b : String) : Prop :=
  ∃ place, (place, a) ∈ entries ∧ ∀ later, (later, b) ∈ entries → place < later

/-- The entries with a name other than that of the first. -/
def others (a : String) (entries : List (List Nat × String)) : List (List Nat × String) :=
  entries.filter fun entry => !entry.2 == a

theorem mem_others {entries : List (List Nat × String)} {a b : String} :
    (place, b) ∈ others a entries ↔ (place, b) ∈ entries ∧ b ≠ a := by
  simp [others]

theorem eraseDups_names (place : List Nat) (a : String) (entries : List (List Nat × String)) :
    (((place, a) :: entries).map (·.2)).eraseDups =
      a :: ((others a entries).map (·.2)).eraseDups := by
  rw [List.map_cons, List.eraseDups_cons, others, List.filter_map]
  rfl

theorem NamedBefore.of_others {entries : List (List Nat × String)} {a b c : String}
    (h : NamedBefore (others a entries) b c) (hc : c ≠ a) :
    NamedBefore ((place, a) :: entries) b c := by
  obtain ⟨first, hm, hlt⟩ := h
  refine ⟨first, List.mem_cons_of_mem _ (mem_others.mp hm).1, fun later hl => ?_⟩
  rcases List.mem_cons.mp hl with he | hl
  · exact absurd (congrArg Prod.snd he) hc
  · exact hlt later (mem_others.mpr ⟨hl, hc⟩)

/-- Without repetitions the names stand in the order of their first entries. -/
theorem eraseDups_pairwise {entries : List (List Nat × String)}
    (h : entries.Pairwise fun x y => x.1 < y.1) :
    (entries.map (·.2)).eraseDups.Pairwise (NamedBefore entries) := by
  match entries with
  | [] => exact .nil
  | (place, a) :: rest =>
    obtain ⟨hfirst, hrest⟩ := List.pairwise_cons.mp h
    have hne (b : String) (hb : b ∈ ((others a rest).map (·.2)).eraseDups) : b ≠ a := by
      obtain ⟨⟨later, b⟩, hm, rfl⟩ := List.mem_map.mp (List.mem_eraseDups.mp hb)
      exact (mem_others.mp hm).2
    rw [eraseDups_names]
    refine List.pairwise_cons.mpr ⟨fun b hb => ⟨place, List.mem_cons_self, ?_⟩, ?_⟩
    · intro later hl
      rcases List.mem_cons.mp hl with he | hl
      · exact absurd (congrArg Prod.snd he) (hne b hb)
      · exact hfirst _ hl
    · refine (eraseDups_pairwise (hrest.filter _)).imp_of_mem fun _ hc hbc => ?_
      exact hbc.of_others (hne _ hc)
termination_by entries.length
decreasing_by
  exact Nat.lt_succ_of_le (List.length_filter_le _ _)

/-- The fields that are taken from the root, with their places. -/
theorem exists_entries (e : Expr) (r : Root) : ∃ entries : List (List Nat × String),
    (entries.map (·.2)).eraseDups = e.references r ∧
      entries.Pairwise (fun x y => x.1 < y.1) ∧
      ∀ place name, (place, name) ∈ entries ↔ e.TakenAt r place name := by
  obtain ⟨steps, hw⟩ := exists_walk e
  refine ⟨steps.filterMap fun step => (step.2.access? r).map fun name => (step.1, name), ?_, ?_, ?_⟩
  · rw [references, ← hw.subterms_eq, List.filterMap_map, List.map_filterMap]
    simp [Function.comp_def]
  · refine hw.ordered.filterMap _ ?_
    rintro step step' hlt entry he entry' he'
    obtain ⟨name, -, rfl⟩ := Option.map_eq_some_iff.mp he
    obtain ⟨name', -, rfl⟩ := Option.map_eq_some_iff.mp he'
    exact hlt
  · intro place name
    rw [List.mem_filterMap]
    constructor
    · rintro ⟨⟨place', t⟩, hm, he⟩
      obtain ⟨name', ha, heq⟩ := Option.map_eq_some_iff.mp he
      cases heq
      obtain ⟨s, ht⟩ := access?_eq_some_iff.mp ha
      exact ⟨t, s, (hw.mem_iff _ t).mp hm, ht⟩
    · rintro ⟨t, s, hat, ht⟩
      refine ⟨(place, t), (hw.mem_iff place t).mpr hat, ?_⟩
      simp [access?_eq_some_iff.mpr ⟨s, ht⟩]

/-- A root is read as a whole exactly if it occurs more often than fields are directly taken from
it, that is if it stands somewhere without being the base of such a field. The names of the fields
that are taken are listed once each, in the order in which the expression first takes them. -/
theorem occurrences_spec (e : Expr) (r : Root) :
    (e.readsWhole r = true ↔ accessCount r e.subterms < rootCount r e.subterms) ∧
    (e.readsWhole r = true ↔
      ∃ place s, e.at? place = some (.root r s) ∧ ¬ e.IsBase place) ∧
    (e.references r).Nodup ∧
    (∀ name, name ∈ e.references r ↔ ∃ place, e.TakenAt r place name) ∧
    (e.references r).Pairwise fun a b =>
      ∃ place, e.TakenAt r place a ∧ ∀ later, e.TakenAt r later b → place < later := by
  obtain ⟨entries, hnames, hordered, hmem⟩ := exists_entries e r
  have hpairwise : (e.references r).Pairwise (NamedBefore entries) := by
    rw [← hnames]
    exact eraseDups_pairwise hordered
  refine ⟨readsWhole_iff_accessCount_lt e, readsWhole_iff_exists, ?_, fun name => ?_, ?_⟩
  · refine hpairwise.imp fun {a b} hab => ?_
    rintro rfl
    obtain ⟨place, hm, hlt⟩ := hab
    exact lt_irrefl place (hlt place hm)
  · simp [← hnames, List.mem_eraseDups, hmem]
  · refine hpairwise.imp fun hab => ?_
    simpa only [NamedBefore, hmem] using hab

/-- The block is read as a whole where it is an index, and its fields are listed by first use. -/
example :
    let s : Span := default
    let field (name : String) : Expr := .field (.root .block s) name s
    let e : Expr := .call "max" [.index (field "b") (.index (.root .block s)
      (.literal (.string "a") s) s) s, field "b", .index (field "c") (.root .block s) s] s
    e.references .block = ["b", "a", "c"] ∧ e.readsWhole .block = true := by decide

end RecordCheck.Expr
