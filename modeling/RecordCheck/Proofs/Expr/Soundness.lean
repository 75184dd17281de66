import RecordCheck.Proofs.Expr.Reading

/-! Whatever the parser reads is of the grammar: the tokens between two cursors stand for the
expression that was read. -/

namespace RecordCheck.Parser

open RecordCheck.Expr

variable {R : Reader} {s t : Stratum} {c d : Cursor} {e : Expr}

/-- What the reader reads is of the stratum. -/
def Sound (s : Stratum) (R : Reader) : Prop :=
  ∀ c e d, R c e d → ∃ ts, c.kinds = ts ++ d.kinds ∧ Derives (.expr s e.spanless) ts

theorem Sound.tighter (hR : Sound t R) (ht : s.tighter? = some t) : Sound s R := by
  intro c e d h
  obtain ⟨ts, hts, he⟩ := hR c e d h
  exact ⟨ts, hts, .tighter ht he⟩

/-! ### Values and what follows them -/

theorem Items.derives (hR : Sound .disjunction R) {close : Symbol} {es : List Expr}
    (h : Items R close c es d) : ∃ ts, c.kinds = ts ++ .symbol close :: d.kinds ∧
      Derives (.items (spanlessAll es)) ts := by
  induction h with
  | closed h => exact ⟨[], h.kinds, .noItems⟩
  | last hs he hn hclose =>
    obtain ⟨ts, hts, he⟩ := hR _ _ _ he
    exact ⟨ts, by rw [hts, hclose.kinds], .lastItem he⟩
  | more hs he hcomma _ ih =>
    obtain ⟨ts, hts, he⟩ := hR _ _ _ he
    obtain ⟨us, hus, hes⟩ := ih
    exact ⟨_, by rw [hts, hcomma.kinds, hus]; simp, .nextItem he hes⟩

theorem sound_primary (hR : Sound .disjunction R) : Sound .primary (Primary R) := by
  intro c e d h
  cases h with
  | literal hk h => exact ⟨_, h.kinds, .literal hk⟩
  | root hr h => exact ⟨_, h.kinds, .root hr⟩
  | call hr h ho ha =>
    obtain ⟨ts, hts, ha⟩ := ha.derives hR
    exact ⟨_, by rw [h.kinds, ho.kinds, hts]; simp, .call hr ha⟩
  | list h hl =>
    obtain ⟨ts, hts, hl⟩ := hl.derives hR
    exact ⟨_, by rw [h.kinds, hts]; simp, .list hl⟩
  | parens h he hclose =>
    obtain ⟨ts, hts, he⟩ := hR _ _ _ he
    exact ⟨_, by rw [h.kinds, hts, hclose.kinds]; simp, .parens he⟩

/-- What follows an expression adds its tokens behind those of the expression. -/
theorem Suffixes.derives (hR : Sound .disjunction R) {base : Expr} (h : Suffixes R base c e d)
    {ts : List Token.Kind} (hb : Derives (.expr .postfixed base.spanless) ts) :
    ∃ us, c.kinds = us ++ d.kinds ∧ Derives (.expr .postfixed e.spanless) (ts ++ us) := by
  induction h generalizing ts with
  | done => exact ⟨[], rfl, by simpa using hb⟩
  | field hd hk h _ ih =>
    obtain ⟨us, hus, he⟩ := ih (.field hk hb)
    rw [List.append_assoc] at he
    exact ⟨_, by rw [hd.kinds, h.kinds, hus]; rfl, he⟩
  | index ho hi hclose _ ih =>
    obtain ⟨vs, hvs, hi⟩ := hR _ _ _ hi
    obtain ⟨us, hus, he⟩ := ih (.index hb hi)
    simp only [List.append_assoc] at he
    exact ⟨_, by rw [ho.kinds, hvs, hclose.kinds, hus]; simp, he⟩
  | pipe hp h _ _ ih =>
    obtain ⟨us, hus, he⟩ := ih (.pipe hb)
    rw [List.append_assoc] at he
    exact ⟨_, by rw [hp.kinds, h.kinds, hus]; rfl, he⟩
  | pipeCall hp h ho ha _ ih =>
    obtain ⟨vs, hvs, ha⟩ := ha.derives hR
    obtain ⟨us, hus, he⟩ := ih (.pipeCall hb ha)
    simp only [List.append_assoc] at he
    exact ⟨_, by rw [hp.kinds, h.kinds, ho.kinds, hvs, hus]; simp, he⟩

theorem sound_postfixed (hR : Sound .disjunction R) : Sound .postfixed (Postfixed R) := by
  rintro c e d ⟨hb, hs⟩
  obtain ⟨ts, hts, hb⟩ := sound_primary hR _ _ _ hb
  obtain ⟨us, hus, he⟩ := hs.derives hR (.tighter rfl hb)
  exact ⟨_, by rw [hts, hus, List.append_assoc], he⟩

/-! ### Operators -/

theorem sound_leading (ht : s.tighter? = some t) (hR : Sound t R) :
    Sound s (Leading s.unaryOp? R) := by
  intro c e d h
  induction h with
  | operand _ h => exact hR.tighter ht _ _ _ h
  | marked h ho _ ih =>
    obtain ⟨ts, hts, he⟩ := ih
    exact ⟨_, by rw [h.kinds, hts]; rfl, .unary ho he⟩

theorem ChainAfter.derives (ht : s.tighter? = some t) (hR : Sound t R) {left : Expr}
    (h : ChainAfter s.binaryOp? R left c e d) {ts : List Token.Kind}
    (hl : Derives (.expr s left.spanless) ts) :
    ∃ us, c.kinds = us ++ d.kinds ∧ Derives (.expr s e.spanless) (ts ++ us) := by
  induction h generalizing ts with
  | done => exact ⟨[], rfl, by simpa using hl⟩
  | more h ho hr _ ih =>
    obtain ⟨vs, hvs, hr⟩ := hR _ _ _ hr
    obtain ⟨us, hus, he⟩ := ih (.binary ht ho hl hr)
    rw [List.append_assoc] at he
    exact ⟨_, by rw [h.kinds, hvs, hus]; simp, he⟩

theorem sound_chain (ht : s.tighter? = some t) (hR : Sound t R) :
    Sound s (Chain s.binaryOp? R) := by
  rintro c e d ⟨hf, hs⟩
  obtain ⟨ts, hts, hf⟩ := hR.tighter ht _ _ _ hf
  obtain ⟨us, hus, he⟩ := hs.derives ht hR hf
  exact ⟨_, by rw [hts, hus, List.append_assoc], he⟩

/-! ### Comparisons -/

theorem Links.derives (hR : Sound .sum R) {ls : List (CompareOp × Expr)} (h : Links R c ls d) :
    ∃ ts, c.kinds = ts ++ d.kinds ∧ Derives (.links (spanlessLinks ls)) ts := by
  induction h with
  | done => exact ⟨[], rfl, .noLinks⟩
  | more h ho hr _ ih =>
    obtain ⟨ts, hts, hr⟩ := hR _ _ _ hr
    obtain ⟨us, hus, hl⟩ := ih
    exact ⟨_, by rw [h.kinds, hts, hus]; simp, .link ho hr hl⟩

/-- A chain of comparisons, also of no more than one operand. -/
theorem derives_compared {first : Expr} {ls : List (CompareOp × Expr)} {stop : Nat}
    {ts us : List Token.Kind} (hf : Derives (.expr .sum first.spanless) ts)
    (hl : Derives (.links (spanlessLinks ls)) us) :
    Derives (.expr .comparison (compared first ls stop).spanless) (ts ++ us) := by
  cases ls with
  | nil =>
    cases hl
    simpa [compared] using Derives.tighter rfl hf
  | cons l ls => exact .compare (by simp [spanlessLinks]) hf hl

theorem Relation.derives (hR : Sound .sum R) {start : Span} {left : Expr}
    (h : Relation R start left c e d) {ts : List Token.Kind}
    (hl : Derives (.expr .comparison left.spanless) ts) :
    ∃ us, c.kinds = us ++ d.kinds ∧ Derives (.expr .relation e.spanless) (ts ++ us) := by
  cases h with
  | isIn h hr =>
    obtain ⟨us, hus, hr⟩ := hR _ _ _ hr
    exact ⟨_, by rw [h.kinds, hus]; rfl, .isIn hl hr⟩
  | notIn h h' hr =>
    obtain ⟨us, hus, hr⟩ := hR _ _ _ hr
    exact ⟨_, by rw [h.kinds, h'.kinds, hus]; rfl, .notIn hl hr⟩
  | isMatch h hp => exact ⟨_, by rw [h.kinds, hp.kinds]; rfl, .isMatch _ hl⟩
  | done => exact ⟨[], rfl, by simpa using Derives.tighter rfl hl⟩

theorem sound_comparison (hR : Sound .sum R) : Sound .relation (Comparison R) := by
  rintro c e d ⟨hf, hl, hr⟩
  obtain ⟨ts, hts, hf⟩ := hR _ _ _ hf
  obtain ⟨us, hus, hl⟩ := hl.derives hR
  obtain ⟨vs, hvs, he⟩ := hr.derives hR (derives_compared hf hl)
  exact ⟨_, by rw [hts, hus, hvs]; simp, he⟩

/-! ### Expressions -/

theorem sound_disjunction (hR : Sound .disjunction R) : Sound .disjunction (Disjunction R) := by
  have signed := sound_leading (s := .signed) rfl (sound_postfixed hR)
  have product := sound_chain (s := .product) rfl signed
  have sum := sound_chain (s := .sum) rfl product
  have negation := sound_leading (s := .negation) rfl (sound_comparison sum)
  have conjunction := sound_chain (s := .conjunction) rfl negation
  exact sound_chain rfl conjunction

/-- An expression that the parser reads from some tokens is of the grammar. -/
theorem sound_expression : Sound .disjunction fun c e d => Reads (expression c) e d := by
  intro c
  -- Between brackets fewer tokens are left, so the reader there is the parser on fewer than here.
  induction hn : c.size using Nat.strongRecOn generalizing c with
  | _ n ih =>
    intro e d h
    rw [reads_expression (R := fun c' e d => c'.size < n ∧ Reads (expression c') e d)
      (fun c' e d hc => by simp [← hn, hc])] at h
    exact sound_disjunction (fun c' e d h => ih _ h.1 c' rfl e d h.2) c e d h

end RecordCheck.Parser
