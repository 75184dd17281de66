import RecordCheck.Proofs.Expr.Lossless
import RecordCheck.Proofs.Expr.Reading

/-! Where the parts of an expression stand in its text. Between two cursors the parser reads
expressions that stand one after another between their places. -/

namespace RecordCheck

namespace Expr

/-- The parts of an expression, from left to right. -/
def children : Expr → List Expr
  | literal _ _ => []
  | root _ _ => []
  | field base _ _ => [base]
  | index base i _ => [base, i]
  | binary _ left right _ => [left, right]
  | compare first links _ => first :: links.map (·.2)
  | unary _ operand _ => [operand]
  | .matches operand _ _ => [operand]
  | call _ arguments _ => arguments
  | list items _ => items

theorem subtermsOfAll_eq (es : List Expr) : subtermsOfAll es = es.flatMap subterms := by
  induction es with
  | nil => rw [subtermsOfAll, List.flatMap_nil]
  | cons e es ih => rw [subtermsOfAll, ih, List.flatMap_cons]

theorem subtermsOfLinks_eq (ls : List (CompareOp × Expr)) :
    subtermsOfLinks ls = (ls.map (·.2)).flatMap subterms := by
  induction ls with
  | nil => rw [subtermsOfLinks, List.map_nil, List.flatMap_nil]
  | cons l ls ih => rw [subtermsOfLinks, ih, List.map_cons, List.flatMap_cons]

theorem subterms_eq (e : Expr) : e.subterms = e :: e.children.flatMap subterms := by
  cases e <;> simp [subterms, children, subtermsOfAll_eq, subtermsOfLinks_eq]

/-- The expressions stand between two places, one after another. -/
structure Between (start stop : Nat) (es : List Expr) : Prop where
  start_le : ∀ e ∈ es, start ≤ e.span.start
  le_stop : ∀ e ∈ es, e.span.stop ≤ stop
  ordered : es.Pairwise fun e e' => e.span.stop ≤ e'.span.start

/-- The expression has a part of the text as its place, and its own parts stand within it. -/
structure Placed (text : List Char) (e : Expr) : Prop where
  within : e.span.Within text
  nonempty : e.span.start < e.span.stop
  children : Between e.span.start e.span.stop e.children

/-- The expression and all within it have their places. -/
def AllPlaced (text : List Char) (e : Expr) : Prop := ∀ t ∈ e.subterms, t.Placed text

variable {text : List Char} {e : Expr} {es fs : List Expr} {start mid stop : Nat}

theorem AllPlaced.self (h : e.AllPlaced text) : e.Placed text :=
  h e (by rw [subterms_eq]; exact List.mem_cons_self)

theorem AllPlaced.node (h : e.Placed text) (hc : ∀ c ∈ e.children, c.AllPlaced text) :
    e.AllPlaced text := by
  intro t ht
  rw [subterms_eq, List.mem_cons, List.mem_flatMap] at ht
  rcases ht with rfl | ⟨c, hmem, ht⟩
  · exact h
  · exact hc c hmem t ht

theorem Between.nil : Between start stop [] := ⟨by simp, by simp, .nil⟩

theorem Between.append (hs : Between start mid es) (hf : Between mid stop fs) (h : start ≤ mid)
    (h' : mid ≤ stop) : Between start stop (es ++ fs) := by
  refine ⟨?_, ?_, ?_⟩
  · intro e he
    rcases List.mem_append.mp he with he | he
    · exact hs.start_le e he
    · exact h.trans (hf.start_le e he)
  · intro e he
    rcases List.mem_append.mp he with he | he
    · exact (hs.le_stop e he).trans h'
    · exact hf.le_stop e he
  · exact List.pairwise_append.mpr ⟨hs.ordered, hf.ordered, fun e he f hf' =>
      (hs.le_stop e he).trans (hf.start_le f hf')⟩

end Expr

namespace Parser

open RecordCheck.Expr

/-- The tokens to come stand in the text one after another, behind the last one taken. -/
structure Cursor.Along (text : List Char) (c : Cursor) : Prop where
  within : ∀ t ∈ c.rest, t.span.Within text
  nonempty : ∀ t ∈ c.rest, t.span.start < t.span.stop
  ordered : c.rest.Pairwise fun t t' => t.span.stop ≤ t'.span.start
  ahead : ∀ t ∈ c.rest, c.stop ≤ t.span.start
  boundary : Boundary text c.stop

/-- From one cursor to another some expressions are read, which stand between the two. -/
structure Passes (text : List Char) (c : Cursor) (es : List Expr) (d : Cursor) : Prop where
  along : d.Along text
  le : c.stop ≤ d.stop
  placed : ∀ e ∈ es, e.AllPlaced text
  between : Between c.stop d.stop es

/-- Whatever the reader reads stands where it is read. -/
def Places (text : List Char) (R : Reader) : Prop :=
  ∀ c e d, R c e d → c.Along text → Passes text c [e] d

variable {text : List Char} {R : Reader} {c d d₁ : Cursor} {e left : Expr} {es fs : List Expr}
  {k : Token.Kind}

theorem Passes.refl (h : c.Along text) : Passes text c [] c := ⟨h, le_rfl, by simp, .nil⟩

theorem Passes.trans (h : Passes text c es d₁) (h' : Passes text d₁ fs d) :
    Passes text c (es ++ fs) d := by
  refine ⟨h'.along, h.le.trans h'.le, fun e he => ?_, h.between.append h'.between h.le h'.le⟩
  rcases List.mem_append.mp he with he | he
  · exact h.placed e he
  · exact h'.placed e he

theorem Takes.along (h : Takes c k d) (hc : c.Along text) : d.Along text := by
  obtain ⟨token, rest, hr, rfl, rfl⟩ := h
  obtain ⟨hw, hn, ho, -, -⟩ := hc
  rw [hr] at hw hn ho
  obtain ⟨hahead, ho⟩ := List.pairwise_cons.mp ho
  obtain ⟨hw, hws⟩ := List.forall_mem_cons.mp hw
  exact ⟨hws, (List.forall_mem_cons.mp hn).2, ho, hahead, hw.boundary⟩

/-- The span of a token that is taken, between the two cursors. -/
theorem Takes.span (h : Takes c k d) (hc : c.Along text) : c.span.Within text ∧
    c.stop ≤ c.span.start ∧ c.span.start < c.span.stop ∧ c.span.stop = d.stop := by
  obtain ⟨token, rest, hr, rfl, rfl⟩ := h
  have hmem : token ∈ c.rest := hr ▸ List.mem_cons_self
  have hspan : c.span = token.span := by simp [Cursor.span, hr]
  rw [hspan]
  exact ⟨hc.within _ hmem, hc.ahead _ hmem, hc.nonempty _ hmem, rfl⟩

theorem Takes.passes (h : Takes c k d) (hc : c.Along text) : Passes text c [] d := by
  obtain ⟨-, hle, hlt, hstop⟩ := h.span hc
  exact ⟨h.along hc, by omega, by simp, .nil⟩

/-- An expression from a place behind the first cursor up to the second. -/
theorem passes_node {span : Span} (hd : d.Along text) (hw : span.Within text)
    (hle : c.stop ≤ span.start) (hlt : span.start < d.stop) (hs : e.span = span.upTo d.stop)
    (hp : ∀ t ∈ e.children, t.AllPlaced text) (hb : Between span.start d.stop e.children) :
    Passes text c [e] d := by
  have hplaced : e.Placed text := by
    refine ⟨?_, ?_, ?_⟩
    · rw [hs]
      exact hw.upTo hd.boundary hlt.le
    · rw [hs]
      exact hlt
    · rw [hs]
      exact hb
  refine ⟨hd, by omega, by simpa using AllPlaced.node hplaced hp, ?_⟩
  exact ⟨by simpa [hs, Span.upTo] using hle, by simp [hs, Span.upTo], List.pairwise_singleton _ _⟩

/-- An expression that starts with a token of its own, before its parts. -/
theorem Passes.marked (h : Takes c k d₁) (hc : c.Along text) (hp : Passes text d₁ e.children d)
    (hs : e.span = c.span.upTo d.stop) : Passes text c [e] d := by
  obtain ⟨hw, hle, hlt, hstop⟩ := h.span hc
  have hlt' : c.span.start < d.stop := by have := hp.le; omega
  refine passes_node hp.along hw hle hlt' hs hp.placed ?_
  exact ⟨fun t ht => by have := hp.between.start_le t ht; omega, hp.between.le_stop,
    hp.between.ordered⟩

/-- An expression that starts where its first part does. -/
theorem Passes.headed (hl : Passes text c [left] d₁) (hp : Passes text d₁ es d)
    (hc : e.children = left :: es) (hs : e.span = left.span.upTo d.stop) :
    Passes text c [e] d := by
  have hboth := hl.trans hp
  have hleft := (hl.placed left List.mem_cons_self).self
  have hmem : left ∈ [left] ++ es := List.mem_cons_self
  have hle := hboth.between.start_le left hmem
  have hstop := hboth.between.le_stop left hmem
  refine passes_node hp.along hleft.within hle (hleft.nonempty.trans_le hstop) hs
    (by simpa [hc] using hboth.placed) ?_
  rw [hc]
  refine ⟨fun t ht => ?_, hboth.between.le_stop, hboth.between.ordered⟩
  rcases List.mem_cons.mp ht with rfl | ht
  · exact le_rfl
  · exact hleft.nonempty.le.trans ((List.pairwise_cons.mp hboth.between.ordered).1 t ht)

/-! ### Values and what follows them -/

theorem Items.passes (hR : Places text R) {close : Symbol} (h : Items R close c es d)
    (hc : c.Along text) : Passes text c es d := by
  induction h with
  | closed h => exact h.passes hc
  | last _ he _ hclose =>
    have hp := hR _ _ _ he hc
    exact hp.trans (hclose.passes hp.along)
  | more _ he hcomma _ ih =>
    have hp := hR _ _ _ he hc
    have hcomma := hcomma.passes hp.along
    exact hp.trans (hcomma.trans (ih hcomma.along))

theorem places_primary (hR : Places text R) : Places text (Primary R) := by
  intro c e d h hc
  cases h with
  | literal hk h =>
    exact .marked h hc (.refl (h.along hc)) (by rw [← (h.span hc).2.2.2]; rfl)
  | root hr h =>
    exact .marked h hc (.refl (h.along hc)) (by rw [← (h.span hc).2.2.2]; rfl)
  | call hr h ho ha =>
    have hopen := ho.passes (h.along hc)
    exact .marked h hc (hopen.trans (ha.passes hR hopen.along)) rfl
  | list h hl => exact .marked h hc (hl.passes hR (h.along hc)) rfl
  | parens h he hclose =>
    have hp := (h.passes hc).trans (hR _ _ _ he (h.along hc))
    exact hp.trans (hclose.passes hp.along)

/-- What follows an expression extends its place. -/
theorem Suffixes.passes (hR : Places text R) {c₀ : Cursor} {base : Expr}
    (h : Suffixes R base c e d) (hb : Passes text c₀ [base] c) : Passes text c₀ [e] d := by
  induction h with
  | done => exact hb
  | field hd hk h _ ih =>
    have hdot := hd.passes hb.along
    exact ih (hb.headed (hdot.trans (h.passes hdot.along)) rfl rfl)
  | index ho hi hclose _ ih =>
    have hopen := ho.passes hb.along
    have hi := hopen.trans (hR _ _ _ hi hopen.along)
    exact ih (hb.headed (hi.trans (hclose.passes hi.along)) rfl rfl)
  | pipe hp h _ _ ih =>
    have hpipe := hp.passes hb.along
    exact ih (hb.headed (hpipe.trans (h.passes hpipe.along)) rfl rfl)
  | pipeCall hp h ho ha _ ih =>
    have hpipe := hp.passes hb.along
    have hname := hpipe.trans (h.passes hpipe.along)
    have hopen := hname.trans (ho.passes hname.along)
    exact ih (hb.headed (hopen.trans (ha.passes hR hopen.along)) rfl rfl)

theorem places_postfixed (hR : Places text R) : Places text (Postfixed R) := by
  rintro c e d ⟨hb, hs⟩ hc
  exact hs.passes hR (places_primary hR _ _ _ hb hc)

/-! ### Operators -/

theorem places_leading {op? : Token.Kind → Option UnaryOp} (hR : Places text R) :
    Places text (Leading op? R) := by
  intro c e d h
  induction h with
  | operand _ h => exact hR _ _ _ h
  | marked h _ _ ih =>
    intro hc
    exact .marked h hc (ih (h.along hc)) rfl

theorem ChainAfter.passes {op? : Token.Kind → Option BinaryOp} (hR : Places text R) {c₀ : Cursor}
    (h : ChainAfter op? R left c e d) (hl : Passes text c₀ [left] c) : Passes text c₀ [e] d := by
  induction h with
  | done => exact hl
  | more h _ hr _ ih =>
    have hop := h.passes hl.along
    exact ih (hl.headed (hop.trans (hR _ _ _ hr hop.along)) rfl rfl)

theorem places_chain {op? : Token.Kind → Option BinaryOp} (hR : Places text R) :
    Places text (Chain op? R) := by
  rintro c e d ⟨hf, hs⟩ hc
  exact hs.passes hR (hR _ _ _ hf hc)

/-! ### Comparisons -/

theorem Links.passes (hR : Places text R) {ls : List (CompareOp × Expr)} (h : Links R c ls d)
    (hc : c.Along text) : Passes text c (ls.map (·.2)) d := by
  induction h with
  | done => exact .refl hc
  | more h _ hr _ ih =>
    have hop := h.passes hc
    have hright := hop.trans (hR _ _ _ hr hop.along)
    exact hright.trans (ih hright.along)

theorem passes_compared (hR : Places text R) {ls : List (CompareOp × Expr)} {first : Expr}
    (hf : Passes text c [first] d₁) (hl : Links R d₁ ls d) :
    Passes text c [compared first ls d.stop] d := by
  have hlinks := hl.passes hR hf.along
  cases ls with
  | nil => exact hf.trans hlinks
  | cons l ls => exact hf.headed hlinks rfl rfl

theorem Relation.passes (hR : Places text R) {c₀ : Cursor} {start : Span}
    (h : Relation R start left c e d) (hs : ∀ stop, left.span.upTo stop = start.upTo stop)
    (hl : Passes text c₀ [left] c) : Passes text c₀ [e] d := by
  cases h with
  | isIn h hr =>
    have hop := h.passes hl.along
    exact hl.headed (hop.trans (hR _ _ _ hr hop.along)) rfl (hs _).symm
  | notIn h h' hr =>
    have hnot := h.passes hl.along
    have hop := hnot.trans (h'.passes hnot.along)
    exact hl.headed (hop.trans (hR _ _ _ hr hop.along)) rfl (hs _).symm
  | isMatch h hp =>
    have hop := h.passes hl.along
    exact hl.headed (hop.trans (hp.passes hop.along)) rfl (hs _).symm
  | done => exact hl

theorem places_comparison (hR : Places text R) : Places text (Comparison R) := by
  rintro c e d ⟨hf, hl, hr⟩ hc
  refine hr.passes hR (fun stop => ?_) (passes_compared hR (hR _ _ _ hf hc) hl)
  unfold compared
  split <;> rfl

/-! ### Expressions -/

theorem places_disjunction (hR : Places text R) : Places text (Disjunction R) :=
  have sum := places_chain (places_chain (places_leading (places_postfixed hR)))
  places_chain (places_chain (places_leading (places_comparison sum)))

/-- An expression stands where the parser reads it. -/
theorem places_expression : Places text fun c e d => Reads (expression c) e d := by
  intro c
  -- Between brackets fewer tokens are left, so the reader there is the parser on fewer than here.
  induction hn : c.size using Nat.strongRecOn generalizing c with
  | _ n ih =>
    intro e d h
    rw [reads_expression (R := fun c' e d => c'.size < n ∧ Reads (expression c') e d)
      (fun c' e d hc => by simp [← hn, hc])] at h
    exact places_disjunction (fun c' e d h => ih _ h.1 c' rfl e d h.2) c e d h

end Parser

/-- Every part of an expression has a part of the text as its place, the parts of each within it
and one after another. -/
theorem Expr.allPlaced_of_parse {text : String} {e : Expr} (h : Expr.parse text = .ok e) :
    e.AllPlaced text.toList := by
  obtain ⟨tokens, htokens, he⟩ := Results.bind_eq_ok.mp h
  obtain ⟨d, hd, -⟩ := Expr.ofTokens_eq_ok.mp he
  obtain ⟨hw, hn, ho, -⟩ := Tokens.laid_of_ofText htokens
  have hc : (Parser.Cursor.mk tokens.items 0 tokens.finish).Along text.toList :=
    ⟨hw, hn, ho, fun t _ => Nat.zero_le _, ⟨[], List.nil_prefix, rfl⟩⟩
  exact (Parser.places_expression _ e d hd hc).placed e List.mem_cons_self

end RecordCheck
