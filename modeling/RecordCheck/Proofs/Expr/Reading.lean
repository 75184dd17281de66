import RecordCheck.Proofs.Expr.Readers
import RecordCheck.Proofs.Results

/-! The functions of the parser read what the relations between cursors say. Each level meets its
relation if the parser for the parts between brackets meets the one that it is given. -/

namespace RecordCheck

theorem Pattern.ofSource_eq_ok {source : String} {p : Pattern} :
    Pattern.ofSource source = .ok p ↔ p.source = source := by
  unfold Pattern.ofSource
  constructor
  · intro h
    split at h
    · cases h
      rfl
    · cases h
  · rintro rfl
    split
    · exact congrArg Except.ok (Pattern.ext_source rfl)
    · next h => cases h.symm.trans p.read

namespace Parser

open RecordCheck.Expr (Stratum compareOp?)

variable {α β : Type} {n m : Nat}

/-! ### Outcomes -/

/-- A parser succeeds with the value and goes on from the cursor. -/
def Reads (outcome : Outcome α n) (value : α) (next : Cursor) : Prop :=
  ∃ r, outcome = .ok r ∧ r.value = value ∧ r.next = next

theorem Reads.size_lt {x : Outcome α n} {a : α} {d : Cursor} (h : Reads x a d) : d.size < n := by
  obtain ⟨r, -, -, rfl⟩ := h
  exact r.shorter

@[simp] theorem reads_ok {r : Parsed α n} {a : α} {d : Cursor} :
    Reads (.ok r) a d ↔ a = r.value ∧ d = r.next := by
  simp [Reads, eq_comm]

@[simp] theorem reads_pure {r : Parsed α n} {a : α} {d : Cursor} :
    Reads (pure r) a d ↔ a = r.value ∧ d = r.next := reads_ok

@[simp] theorem reads_error {e : SyntaxError} {a : α} {d : Cursor} :
    Reads (.error e : Outcome α n) a d ↔ False := by
  simp [Reads]

theorem reads_bind {x : Outcome α n} {f : Parsed α n → Outcome β m} {b : β} {d : Cursor} :
    Reads (x >>= f) b d ↔ ∃ a c, ∃ h : c.size < n, Reads x a c ∧ Reads (f ⟨a, c, h⟩) b d := by
  constructor
  · intro h
    cases x with
    | error e => simp [Reads, bind, Except.bind] at h
    | ok r => exact ⟨r.value, r.next, r.shorter, reads_ok.mpr ⟨rfl, rfl⟩, h⟩
  · rintro ⟨_, _, _, ⟨r, rfl, rfl, rfl⟩, h⟩
    exact h

/-- The parser for the parts between brackets reads what the reader does. -/
def InnerMeets (inner : Inner n) (R : Reader) : Prop :=
  ∀ c h e d, Reads (inner c h) e d ↔ R c e d

/-- A level of the parser reads what the reader does. -/
def LevelMeets (level : Level n) (R : Reader) : Prop :=
  ∀ c h e d, Reads (level c h) e d ↔ R c e d

variable {inner : Inner n} {operand : Level n} {R : Reader} {c d : Cursor} {e : Expr}

@[simp] theorem reads_expect {symbol : Symbol} {u : Unit} :
    Reads (expect symbol c) u d ↔ Takes c (.symbol symbol) d := by
  unfold expect
  split
  · next hc => simp [Takes, hc]
  · next token rest hc =>
    rw [takes_iff hc]
    split
    · next hk => simp [hk]
    · next hk => simpa using fun h => absurd h.symm hk

theorem reads_fieldName {name : String} :
    Reads (fieldName c) name d ↔ ∃ k, Expr.fieldName? k = some name ∧ Takes c k d := by
  unfold fieldName Takes
  split
  · next hc => simp [hc]
  · next token rest hc =>
    split
    all_goals simp_all [Expr.fieldName?, eq_comm]

theorem reads_functionName {name : String} :
    Reads (functionName c) name d ↔ Takes c (.ident name) d := by
  unfold functionName Takes
  split
  · next hc => simp [hc]
  · next token rest hc =>
    split
    all_goals simp_all [eq_comm]

theorem reads_pattern {p : Pattern} :
    Reads (pattern c) p d ↔ Takes c (.string p.source) d := by
  unfold pattern
  split
  · next hc => simp [Takes, hc]
  · next token rest hc =>
    rw [takes_iff hc]
    split
    · next source hk =>
      rw [hk, Token.Kind.string.injEq, ← Pattern.ofSource_eq_ok]
      cases Pattern.ofSource source <;> simp [eq_comm]
    · next hk => exact ⟨by simp, fun ⟨h, _⟩ => absurd h.symm (hk _)⟩

/-! ### Values and what follows them -/

theorem items_of_reads (hR : InnerMeets inner R) {close : Symbol} {c d : Cursor} {es : List Expr}
    {hc : c.size < n} (h : Reads (items inner close c hc) es d) : Items R close c es d := by
  rw [items] at h
  split at h
  · simp only [reads_bind, reads_expect, reads_pure] at h
    obtain ⟨_, d, _, hclose, rfl, rfl⟩ := h
    exact .closed hclose
  · next hs =>
    rw [Bool.not_eq_true] at hs
    rw [reads_bind] at h
    obtain ⟨e, d₁, _, he, h⟩ := h
    dsimp only at h
    split at h
    · simp only [reads_bind, reads_expect, reads_pure] at h
      obtain ⟨_, d₂, _, hcomma, es, d, _, hmore, rfl, rfl⟩ := h
      exact .more hs ((hR ..).mp he) hcomma (items_of_reads hR hmore)
    · next hn =>
      simp only [reads_bind, reads_expect, reads_pure] at h
      obtain ⟨_, d, _, hclose, rfl, rfl⟩ := h
      exact .last hs ((hR ..).mp he) (by simpa using hn) hclose
termination_by c.size

theorem reads_items (hR : InnerMeets inner R) {close : Symbol} {es : List Expr} (hc : c.size < n) :
    Reads (items inner close c hc) es d ↔ Items R close c es d := by
  refine ⟨items_of_reads hR, fun h => ?_⟩
  induction h with
  | closed h =>
    rw [items, if_pos (sees_iff.mpr ⟨_, h⟩)]
    simp only [reads_bind, reads_expect, reads_pure]
    exact ⟨(), _, h.size_lt, h, trivial, rfl⟩
  | last hs he hn hclose =>
    have he := (hR _ hc _ _).mpr he
    rw [items, if_neg (by simp [hs]), reads_bind]
    refine ⟨_, _, he.size_lt, he, ?_⟩
    simp only [hn, Bool.false_eq_true, if_false, reads_bind, reads_expect, reads_pure]
    exact ⟨(), _, hclose.size_lt, hclose, trivial, rfl⟩
  | more hs he hcomma _ ih =>
    have he := (hR _ hc _ _).mpr he
    have h₁ := he.size_lt
    have h₂ := hcomma.size_lt
    have hmore := ih (by omega)
    rw [items, if_neg (by simp [hs]), reads_bind]
    refine ⟨_, _, h₁, he, ?_⟩
    simp only [sees_iff.mpr ⟨_, hcomma⟩, if_true, reads_bind, reads_expect, reads_pure]
    exact ⟨(), _, h₂, hcomma, _, _, hmore.size_lt, hmore, rfl, rfl⟩

theorem primary_of_reads (hR : InnerMeets inner R) {hc : c.size ≤ n}
    (h : Reads (primary inner c hc) e d) : Primary R c e d := by
  unfold primary at h
  split at h
  · simp at h
  · next token rest hr =>
    have ht : Takes c token.kind (c.after token rest) := (takes_iff hr).mpr ⟨rfl, rfl⟩
    have hs : c.span = token.span := by simp [Cursor.span, hr]
    dsimp only at h
    rw [← hs] at h
    generalize token.kind = kind at h ht
    cases kind with
    | int | float | string =>
      obtain ⟨rfl, rfl⟩ := reads_ok.mp h
      exact .literal rfl ht
    | keyword keyword =>
      cases keyword with
      | true | false | null =>
        obtain ⟨rfl, rfl⟩ := reads_ok.mp h
        exact .literal rfl ht
      | _ => cases reads_error.mp h
    | symbol symbol =>
      cases symbol with
      | leftParen =>
        simp only [reads_bind, reads_expect, reads_pure] at h
        obtain ⟨e, d₂, _, he, _, d, _, hclose, rfl, rfl⟩ := h
        exact .parens ht ((hR ..).mp he) hclose
      | leftBracket =>
        simp only [reads_bind, reads_pure] at h
        obtain ⟨es, d, _, hl, rfl, rfl⟩ := h
        exact .list ht (items_of_reads hR hl)
      | _ => cases reads_error.mp h
    | ident name =>
      dsimp only at h
      split at h
      · next start hn => obtain ⟨rfl, rfl⟩ := reads_ok.mp h; exact .root hn ht
      · next hn =>
        split at h
        · simp only [reads_bind, reads_expect, reads_pure] at h
          obtain ⟨_, d₂, _, ho, arguments, d, _, ha, rfl, rfl⟩ := h
          exact .call hn ht ho (items_of_reads hR ha)
        · simp at h

theorem meets_primary (hR : InnerMeets inner R) : LevelMeets (primary inner) (Primary R) := by
  intro c hc e d
  refine ⟨primary_of_reads hR, fun h => ?_⟩
  obtain ⟨rest, stop, finish⟩ := c
  cases h with
  | literal hk h =>
    obtain ⟨⟨k, span⟩, rest, rfl, rfl, rfl⟩ := h
    cases k with
    | keyword keyword => cases keyword <;> cases hk <;> simp [primary, Cursor.span]
    | symbol | ident => cases hk
    | _ => cases hk; simp [primary, Cursor.span]
  | root hn h =>
    obtain ⟨⟨_, span⟩, rest, rfl, rfl, rfl⟩ := h
    simp [primary, hn, Cursor.span]
  | call hn h ho ha =>
    have hs := sees_iff.mpr ⟨_, ho⟩
    have h₁ := h.size_lt
    have h₂ := ho.size_lt
    have ha := (reads_items hR (by omega)).mpr ha
    obtain ⟨⟨_, span⟩, rest, rfl, rfl, rfl⟩ := h
    simp only [primary, hn, hs, if_true, reads_bind, reads_expect, reads_pure]
    exact ⟨(), _, h₂, ho, _, _, ha.size_lt, ha, rfl, rfl⟩
  | list h hl =>
    have h₁ := Nat.lt_of_lt_of_le h.size_lt hc
    obtain ⟨⟨_, span⟩, rest, rfl, rfl, rfl⟩ := h
    have hl := (reads_items hR h₁).mpr hl
    simp only [primary, reads_bind, reads_pure]
    exact ⟨_, _, hl.size_lt, hl, rfl, rfl⟩
  | parens h he hclose =>
    have h₁ := Nat.lt_of_lt_of_le h.size_lt hc
    obtain ⟨⟨_, span⟩, rest, rfl, rfl, rfl⟩ := h
    have he := (hR _ h₁ _ _).mpr he
    simp only [primary, reads_bind, reads_expect, reads_pure]
    exact ⟨_, _, he.size_lt, he, (), _, hclose.size_lt, hclose, rfl, rfl⟩

theorem suffixes_of_reads (hR : InnerMeets inner R) {base e : Expr} {c d : Cursor}
    {hc : c.size < n} (h : Reads (suffixes inner base c hc) e d) : Suffixes R base c e d := by
  rw [suffixes] at h
  split at h
  · simp only [reads_bind, reads_expect, reads_fieldName, reads_pure] at h
    obtain ⟨_, d₁, _, hd, name, d₂, _, ⟨k, hk, h⟩, e, d, _, hw, rfl, rfl⟩ := h
    exact .field hd hk h (suffixes_of_reads hR hw)
  · split at h
    · simp only [reads_bind, reads_expect, reads_pure] at h
      obtain ⟨_, d₁, _, ho, i, d₂, _, hi, _, d₃, _, hclose, e, d, _, hw, rfl, rfl⟩ := h
      exact .index ho ((hR ..).mp hi) hclose (suffixes_of_reads hR hw)
    · split at h
      · rw [reads_bind] at h
        obtain ⟨_, d₁, _, hp, h⟩ := h
        rw [reads_bind] at h
        obtain ⟨name, d₂, _, hname, h⟩ := h
        rw [reads_expect] at hp
        rw [reads_functionName] at hname
        have h₁ := hp.size_lt
        have h₂ : d₂.size < d₁.size := hname.size_lt
        dsimp only at h
        split at h
        · simp only [reads_bind, reads_expect, reads_pure] at h
          obtain ⟨_, d₃, _, ho, arguments, d₄, _, ha, e, d, _, hw, rfl, rfl⟩ := h
          exact .pipeCall hp hname ho (items_of_reads hR ha) (suffixes_of_reads hR hw)
        · next hs =>
          simp only [reads_bind, reads_pure] at h
          obtain ⟨e, d, _, hw, rfl, rfl⟩ := h
          exact .pipe hp hname (by simpa using hs) (suffixes_of_reads hR hw)
      · next hd hi hp =>
        obtain ⟨rfl, rfl⟩ := reads_pure.mp h
        exact .done (by simpa using hd) (by simpa using hi) (by simpa using hp)
termination_by c.size

theorem reads_suffixes (hR : InnerMeets inner R) {base : Expr} (hc : c.size < n) :
    Reads (suffixes inner base c hc) e d ↔ Suffixes R base c e d := by
  refine ⟨suffixes_of_reads hR, fun h => ?_⟩
  induction h with
  | done hd hi hp =>
    rw [suffixes]
    simp [hd, hi, hp]
  | field hd hk h hw ih =>
    have h₁ := hd.size_lt
    have h₂ := h.size_lt
    have hw := ih (by omega)
    rw [suffixes, if_pos (sees_iff.mpr ⟨_, hd⟩)]
    simp only [reads_bind, reads_expect, reads_fieldName, reads_pure]
    exact ⟨(), _, h₁, hd, _, _, h₂, ⟨_, hk, h⟩, _, _, hw.size_lt, hw, rfl, rfl⟩
  | index ho hi hclose hw ih =>
    have h₁ := ho.size_lt
    have hi := (hR _ (by omega) _ _).mpr hi
    have h₂ := hi.size_lt
    have h₃ := hclose.size_lt
    have hw := ih (by omega)
    rw [suffixes, if_neg (ho.not_sees (by decide)), if_pos (sees_iff.mpr ⟨_, ho⟩)]
    simp only [reads_bind, reads_expect, reads_pure]
    exact ⟨(), _, h₁, ho, _, _, h₂, hi, (), _, h₃, hclose, _, _, hw.size_lt, hw, rfl, rfl⟩
  | pipe hp h hs hw ih =>
    have h₁ := hp.size_lt
    have h₂ := h.size_lt
    have hw := ih (by omega)
    rw [suffixes, if_neg (hp.not_sees (by decide)), if_neg (hp.not_sees (by decide)),
      if_pos (sees_iff.mpr ⟨_, hp⟩)]
    simp only [reads_bind, reads_expect, reads_functionName]
    refine ⟨(), _, h₁, hp, _, _, h₂, h, ?_⟩
    simp only [hs, Bool.false_eq_true, if_false, reads_bind, reads_pure]
    exact ⟨_, _, hw.size_lt, hw, rfl, rfl⟩
  | pipeCall hp h ho ha hw ih =>
    have h₁ := hp.size_lt
    have h₂ := h.size_lt
    have h₃ := ho.size_lt
    have ha := (reads_items hR (by omega)).mpr ha
    have h₄ := ha.size_lt
    have hw := ih (by omega)
    rw [suffixes, if_neg (hp.not_sees (by decide)), if_neg (hp.not_sees (by decide)),
      if_pos (sees_iff.mpr ⟨_, hp⟩)]
    simp only [reads_bind, reads_expect, reads_functionName]
    refine ⟨(), _, h₁, hp, _, _, h₂, h, ?_⟩
    simp only [sees_iff.mpr ⟨_, ho⟩, if_true, reads_bind, reads_expect, reads_pure]
    exact ⟨(), _, h₃, ho, _, _, h₄, ha, _, _, hw.size_lt, hw, rfl, rfl⟩

theorem meets_postfixed (hR : InnerMeets inner R) :
    LevelMeets (postfixed inner) (Postfixed R) := by
  intro c hc e d
  simp only [postfixed, reads_bind, reads_pure]
  constructor
  · rintro ⟨base, d₁, _, hb, e, d, _, hs, rfl, rfl⟩
    exact ⟨(meets_primary hR ..).mp hb, (reads_suffixes hR _).mp hs⟩
  · rintro ⟨hb, hs⟩
    have hb := (meets_primary hR _ hc _ _).mpr hb
    have h₁ := hb.size_lt
    have hs := (reads_suffixes hR (by omega)).mpr hs
    exact ⟨_, _, h₁, hb, _, _, hs.size_lt, hs, rfl, rfl⟩

/-! ### Operators -/

/-- The one operator that some tokens are. -/
def leadingOp (op : UnaryOp) (marks : Token.Kind → Bool) (k : Token.Kind) : Option UnaryOp :=
  if marks k then some op else none

theorem leading_of_reads (hR : LevelMeets operand R) {op : UnaryOp} {marks : Token.Kind → Bool}
    {c d : Cursor} {e : Expr} {hc : c.size ≤ n} (h : Reads (leading op marks operand c hc) e d) :
    Leading (leadingOp op marks) R c e d := by
  rw [leading] at h
  split at h
  · next hr => exact .operand (by simp [Takes, hr]) ((hR ..).mp h)
  · next token rest hr =>
    have ht : Takes c token.kind (c.after token rest) := (takes_iff hr).mpr ⟨rfl, rfl⟩
    split at h
    · next hm =>
      simp only [reads_bind, reads_pure] at h
      obtain ⟨e, d, _, he, rfl, rfl⟩ := h
      have hs : token.span = c.span := by simp [Cursor.span, hr]
      rw [hs]
      exact .marked ht (if_pos hm) (leading_of_reads hR he)
    · next hm =>
      refine .operand (fun k d₁ h => ?_) ((hR ..).mp h)
      rw [(h.unique ht).1]
      exact if_neg hm
termination_by c.size
decreasing_by exact ht.size_lt

theorem meets_leading (hR : LevelMeets operand R) {op : UnaryOp} {marks : Token.Kind → Bool}
    {op? : Token.Kind → Option UnaryOp} (ho : leadingOp op marks = op?) :
    LevelMeets (leading op marks operand) (Leading op? R) := by
  subst ho
  intro c hc e d
  refine ⟨leading_of_reads hR, fun h => ?_⟩
  induction h with
  | @operand c e d hn h =>
    have h := (hR _ hc _ _).mpr h
    rw [leading]
    split
    · exact h
    · next token rest hr =>
      have hm := hn _ _ ((takes_iff hr).mpr ⟨rfl, rfl⟩)
      rw [leadingOp, ite_eq_right_iff] at hm
      rw [if_neg fun h => Option.some_ne_none op (hm h)]
      exact h
  | @marked c k op' d₁ e d h ho he ih =>
    have h₁ := h.size_lt
    rw [leadingOp, Option.ite_none_right_eq_some] at ho
    obtain ⟨hm, ho⟩ := ho
    cases ho
    obtain ⟨rest, stop, finish⟩ := c
    obtain ⟨⟨_, span⟩, rest, rfl, rfl, rfl⟩ := h
    have he := ih (by omega)
    rw [leading]
    simp only [hm, if_true, reads_bind, reads_pure]
    exact ⟨_, _, he.size_lt, he, rfl, rfl⟩

theorem chainAfter_of_reads (hR : LevelMeets operand R) {op? : Token.Kind → Option BinaryOp}
    {left e : Expr} {c d : Cursor} {hc : c.size ≤ n}
    (h : Reads (chainAfter op? operand left c hc) e d) : ChainAfter op? R left c e d := by
  rw [chainAfter] at h
  split at h
  · next hr =>
    obtain ⟨rfl, rfl⟩ := reads_ok.mp h
    exact .done (by simp [Takes, hr])
  · next token rest hr =>
    have ht : Takes c token.kind (c.after token rest) := (takes_iff hr).mpr ⟨rfl, rfl⟩
    split at h
    · next hn =>
      obtain ⟨rfl, rfl⟩ := reads_ok.mp h
      exact .done fun k d₁ h => by rw [(h.unique ht).1, hn]
    · next op ho =>
      simp only [reads_bind, reads_pure] at h
      obtain ⟨right, d₂, h₂, hr, e, d, _, hw, rfl, rfl⟩ := h
      exact .more ht ho ((hR ..).mp hr) (chainAfter_of_reads hR hw)
termination_by c.size
decreasing_by exact Nat.lt_trans h₂ ht.size_lt

theorem reads_chainAfter (hR : LevelMeets operand R) {op? : Token.Kind → Option BinaryOp}
    {left : Expr} (hc : c.size ≤ n) :
    Reads (chainAfter op? operand left c hc) e d ↔ ChainAfter op? R left c e d := by
  refine ⟨chainAfter_of_reads hR, fun h => ?_⟩
  induction h with
  | @done left c hn =>
    rw [chainAfter]
    split
    · simp
    · next token rest hr =>
      simp [hn _ _ ((takes_iff hr).mpr ⟨rfl, rfl⟩)]
  | @more left c k op d₁ right d₂ e d h ho hr hw ih =>
    have h₁ := h.size_lt
    have hr := (hR _ (by omega) _ _).mpr hr
    have h₂ := hr.size_lt
    have hw := ih (by omega)
    obtain ⟨rest, stop, finish⟩ := c
    obtain ⟨⟨_, span⟩, rest, rfl, rfl, rfl⟩ := h
    rw [chainAfter]
    simp only [ho, reads_bind, reads_pure]
    exact ⟨_, _, h₂, hr, _, _, hw.size_lt, hw, rfl, rfl⟩

theorem meets_chain (hR : LevelMeets operand R) {op? op?' : Token.Kind → Option BinaryOp}
    (ho : op? = op?') : LevelMeets (chain op? operand) (Chain op?' R) := by
  subst ho
  intro c hc e d
  simp only [chain, reads_bind, reads_pure]
  constructor
  · rintro ⟨first, d₁, _, hf, e, d, _, hs, rfl, rfl⟩
    exact ⟨(hR ..).mp hf, (reads_chainAfter hR _).mp hs⟩
  · rintro ⟨hf, hs⟩
    have hf := (hR _ hc _ _).mpr hf
    have h₁ := hf.size_lt
    have hs := (reads_chainAfter hR (by omega)).mpr hs
    exact ⟨_, _, h₁, hf, _, _, hs.size_lt, hs, rfl, rfl⟩

/-! ### Comparisons -/

theorem links_of_reads (hR : LevelMeets operand R) {ls : List (CompareOp × Expr)} {c d : Cursor}
    {hc : c.size ≤ n} (h : Reads (links operand c hc) ls d) : Links R c ls d := by
  rw [links] at h
  split at h
  · next hr =>
    obtain ⟨rfl, rfl⟩ := reads_ok.mp h
    exact .done (by simp [Takes, hr])
  · next token rest hr =>
    have ht : Takes c token.kind (c.after token rest) := (takes_iff hr).mpr ⟨rfl, rfl⟩
    split at h
    · next symbol hk =>
      split at h
      · next hn =>
        obtain ⟨rfl, rfl⟩ := reads_ok.mp h
        exact .done fun k d₁ h => by rw [(h.unique ht).1, hk]; exact hn
      · next op ho =>
        simp only [reads_bind, reads_pure] at h
        obtain ⟨right, d₂, h₂, hr, ls, d, _, hl, rfl, rfl⟩ := h
        exact .more ht (by rw [hk]; exact ho) ((hR ..).mp hr) (links_of_reads hR hl)
    · next hk =>
      obtain ⟨rfl, rfl⟩ := reads_ok.mp h
      refine .done fun k d₁ h => ?_
      rw [(h.unique ht).1]
      unfold compareOp?
      split
      · next symbol hs => exact absurd hs (hk symbol)
      · rfl
termination_by c.size
decreasing_by exact Nat.lt_trans h₂ ht.size_lt

theorem reads_links (hR : LevelMeets operand R) {ls : List (CompareOp × Expr)} (hc : c.size ≤ n) :
    Reads (links operand c hc) ls d ↔ Links R c ls d := by
  refine ⟨links_of_reads hR, fun h => ?_⟩
  induction h with
  | @done c hn =>
    rw [links]
    split
    · simp
    · next token rest hr =>
      have hk := hn _ _ ((takes_iff hr).mpr ⟨rfl, rfl⟩)
      unfold compareOp? at hk
      split
      · next symbol hs =>
        rw [hs] at hk
        simp [hk]
      · simp
  | @more c k op d₁ right d₂ ls d h ho hr hl ih =>
    have h₁ := h.size_lt
    have hr := (hR _ (by omega) _ _).mpr hr
    have h₂ := hr.size_lt
    have hl := ih (by omega)
    obtain ⟨rest, stop, finish⟩ := c
    obtain ⟨⟨kind, span⟩, rest, rfl, rfl, rfl⟩ := h
    rw [links]
    cases kind <;> simp only [compareOp?, reduceCtorEq] at ho
    simp only [ho, reads_bind, reads_pure]
    exact ⟨_, _, h₂, hr, _, _, hl.size_lt, hl, rfl, rfl⟩

theorem relation_of_reads (hR : LevelMeets operand R) {start : Span} {left : Expr}
    {hc : c.size ≤ n} (h : Reads (relation operand start left c hc) e d) :
    Relation R start left c e d := by
  unfold relation at h
  split at h
  · next spelling span rest hr =>
    simp only [membership, reads_bind, reads_pure] at h
    obtain ⟨right, d, _, hright, rfl, rfl⟩ := h
    exact .isIn ((takes_iff hr).mpr ⟨rfl, rfl⟩) ((hR ..).mp hright)
  · next not _ spelling span rest hr =>
    simp only [membership, reads_bind, reads_pure] at h
    obtain ⟨right, d, _, hright, rfl, rfl⟩ := h
    exact .notIn ((takes_iff hr).mpr ⟨rfl, rfl⟩) ((takes_iff rfl).mpr ⟨rfl, rfl⟩)
      ((hR ..).mp hright)
  · next spelling span rest hr =>
    simp only [matching, reads_bind, reads_pattern, reads_pure] at h
    obtain ⟨p, d, _, hp, rfl, rfl⟩ := h
    exact .isMatch ((takes_iff hr).mpr ⟨rfl, rfl⟩) hp
  · next hi hn hm =>
    obtain ⟨rfl, rfl⟩ := reads_ok.mp h
    refine .done ?_ ?_ ?_
    · rintro spelling d₁ ⟨⟨_, span⟩, rest, hr, rfl, -⟩
      exact hi spelling span rest hr
    · rintro not d₁ spelling d₂ ⟨⟨_, span⟩, rest, hr, rfl, rfl⟩ ⟨⟨_, span'⟩, rest', hr', rfl, -⟩
      exact hn not span spelling span' rest' (hr.trans (congrArg _ hr'))
    · rintro spelling d₁ ⟨⟨_, span⟩, rest, hr, rfl, -⟩
      exact hm spelling span rest hr

theorem reads_relation (hR : LevelMeets operand R) {start : Span} {left : Expr}
    (hc : c.size ≤ n) :
    Reads (relation operand start left c hc) e d ↔ Relation R start left c e d := by
  refine ⟨relation_of_reads hR, fun h => ?_⟩
  cases h with
  | isIn h hr =>
    have h₁ := h.size_lt
    obtain ⟨rest, stop, finish⟩ := c
    obtain ⟨⟨_, span⟩, rest, rfl, rfl, rfl⟩ := h
    have hr := (hR _ (by omega) _ _).mpr hr
    simp only [relation, membership, reads_bind, reads_pure]
    exact ⟨_, _, hr.size_lt, hr, rfl, rfl⟩
  | notIn h h' hr =>
    have h₁ := h.size_lt
    have h₂ := h'.size_lt
    obtain ⟨rest, stop, finish⟩ := c
    obtain ⟨⟨_, span⟩, rest, rfl, rfl, rfl⟩ := h
    obtain ⟨⟨_, span'⟩, rest', hrest, rfl, rfl⟩ := h'
    obtain rfl : rest = _ := hrest
    have hr := (hR _ (by omega) _ _).mpr hr
    simp only [relation, membership, reads_bind, reads_pure]
    exact ⟨_, _, hr.size_lt, hr, rfl, rfl⟩
  | isMatch h hp =>
    obtain ⟨rest, stop, finish⟩ := c
    obtain ⟨⟨_, span⟩, rest, rfl, rfl, rfl⟩ := h
    simp only [relation, matching, reads_bind, reads_pattern, reads_pure]
    exact ⟨_, _, hp.size_lt, hp, rfl, rfl⟩
  | done hi hn hm =>
    unfold relation
    split
    · next spelling span rest hr => exact (hi _ _ ((takes_iff hr).mpr ⟨rfl, rfl⟩)).elim
    · next not _ spelling span rest hr =>
      exact (hn _ _ _ _ ((takes_iff hr).mpr ⟨rfl, rfl⟩) ((takes_iff rfl).mpr ⟨rfl, rfl⟩)).elim
    · next spelling span rest hr => exact (hm _ _ ((takes_iff hr).mpr ⟨rfl, rfl⟩)).elim
    · simp

theorem meets_comparison (hR : LevelMeets operand R) :
    LevelMeets (comparison operand) (Comparison R) := by
  intro c hc e d
  simp only [comparison, reads_bind, reads_pure]
  constructor
  · rintro ⟨first, d₁, _, hf, ls, d₂, _, hl, e, d, _, hr, rfl, rfl⟩
    exact ⟨(hR ..).mp hf, (reads_links hR _).mp hl, (reads_relation hR _).mp hr⟩
  · rintro ⟨hf, hl, hr⟩
    have hf := (hR _ hc _ _).mpr hf
    have h₁ := hf.size_lt
    have hl := (reads_links hR (by omega)).mpr hl
    have h₂ := hl.size_lt
    have hr := (reads_relation hR (by omega)).mpr hr
    exact ⟨_, _, h₁, hf, _, _, h₂, hl, _, _, hr.size_lt, hr, rfl, rfl⟩

/-! ### Expressions -/

theorem leadingOp_isMinus : leadingOp .neg isMinus = Stratum.signed.unaryOp? := by
  funext k
  cases k with
  | symbol symbol => cases symbol <;> rfl
  | _ => rfl

theorem leadingOp_isNot : leadingOp .not isNot = Stratum.negation.unaryOp? := by
  funext k
  cases k with
  | keyword keyword => cases keyword <;> rfl
  | _ => rfl

theorem symbolOp_multiplicative : symbolOp Symbol.multiplicative? = Stratum.product.binaryOp? := by
  funext k
  cases k with
  | symbol symbol => cases symbol <;> rfl
  | _ => rfl

theorem symbolOp_additive : symbolOp Symbol.additive? = Stratum.sum.binaryOp? := by
  funext k
  cases k with
  | symbol symbol => cases symbol <;> rfl
  | _ => rfl

theorem keywordOp_and : keywordOp .and .and = Stratum.conjunction.binaryOp? := by
  funext k
  cases k with
  | keyword keyword => cases keyword <;> rfl
  | _ => rfl

theorem keywordOp_or : keywordOp .or .or = Stratum.disjunction.binaryOp? := by
  funext k
  cases k with
  | keyword keyword => cases keyword <;> rfl
  | _ => rfl

theorem meets_disjunction (hR : InnerMeets inner R) :
    LevelMeets (disjunction inner) (Disjunction R) := by
  have hsigned : LevelMeets (signed inner) (Signed R) :=
    meets_leading (meets_postfixed hR) leadingOp_isMinus
  have hproduct : LevelMeets (product inner) (Product R) :=
    meets_chain hsigned symbolOp_multiplicative
  have hsum : LevelMeets (sum inner) (Sum R) := meets_chain hproduct symbolOp_additive
  have hnegation : LevelMeets (negation inner) (Negation R) :=
    meets_leading (meets_comparison hsum) leadingOp_isNot
  have hconjunction : LevelMeets (conjunction inner) (Conjunction R) :=
    meets_chain hnegation keywordOp_and
  exact meets_chain hconjunction keywordOp_or

/-- An expression is a disjunction whose parts between brackets are expressions. -/
theorem reads_expression
    (hR : ∀ c' e d, c'.size < c.size → (Reads (expression c') e d ↔ R c' e d)) :
    Reads (expression c) e d ↔ Disjunction R c e d := by
  rw [expression]
  exact meets_disjunction (fun c' hc e d => hR c' e d hc) c (Nat.le_refl _) e d

end Parser

/-- All tokens of a text are read as one expression. -/
theorem Expr.ofTokens_eq_ok {tokens : Tokens} {e : Expr} :
    Expr.ofTokens tokens = .ok e ↔
      ∃ d, Parser.Reads (Parser.expression ⟨tokens.items, 0, tokens.finish⟩) e d ∧
        d.kinds = [] := by
  unfold Expr.ofTokens
  cases Parser.expression ⟨tokens.items, 0, tokens.finish⟩ with
  | error e => simp [Parser.Reads, bind, Except.bind]
  | ok r =>
    simp only [Results.ok_bind, Parser.reads_ok, Parser.Cursor.kinds, List.map_eq_nil_iff]
    split
    · next h =>
      rw [List.isEmpty_iff] at h
      rw [Results.pure_eq_ok]
      constructor
      · intro he
        exact ⟨r.next, ⟨he.symm, rfl⟩, h⟩
      · rintro ⟨_, ⟨he, -⟩, -⟩
        exact he.symm
    · next h =>
      rw [List.isEmpty_iff] at h
      simp only [Results.throw_ne_ok, false_iff]
      rintro ⟨_, ⟨-, rfl⟩, hd⟩
      exact h hd

end RecordCheck
