import RecordCheck.Proofs.Expr.Marks
import RecordCheck.Proofs.Expr.Munch

/-! Reading tokens loses nothing of a text but the blanks between them. -/

namespace RecordCheck

open Text Lexer Results

/-- Some blanks and the characters of the token behind them. -/
structure Piece where
  gap : List Char
  part : List Char
  deriving DecidableEq, Repr

namespace Piece

/-- The text of some pieces. -/
def join (pieces : List Piece) : List Char := pieces.flatMap fun p => p.gap ++ p.part

@[simp] theorem join_nil : join [] = [] := rfl

@[simp] theorem join_cons (p : Piece) (pieces : List Piece) :
    join (p :: pieces) = p.gap ++ p.part ++ join pieces := rfl

/-- A piece with the same token behind other blanks, at least one. -/
def Respaced (p p' : Piece) : Prop :=
  p'.part = p.part ∧ (∀ b ∈ p'.gap, isBlank b = true) ∧ p'.gap ≠ []

/-- Where other blanks stand before each token, it is parted from what stands before it. -/
theorem parted_respaced {pieces others : List Piece} {last : List Char}
    (h : List.Forall₂ Respaced pieces others) (hl : ∀ b ∈ last, isBlank b = true) :
    Parted (join others ++ last) := by
  cases h with
  | nil =>
    intro d hd
    exact hl d (List.mem_of_mem_head? hd)
  | cons hp _ =>
    obtain ⟨-, hblank, hne⟩ := hp
    simpa using parted_of_blank hblank hne _

end Piece

namespace Tokens

/-- The run of the lexer over some pieces and the blanks at the end, behind some text. -/
inductive Cut : List Char → List Piece → List Char → Tokens → Prop
  | finish {before last} (hl : ∀ b ∈ last, isBlank b = true) :
      Cut before [] last ⟨[], Mark.behind (before ++ last)⟩
  | token {before gap c more pieces last k tokens} (hg : ∀ b ∈ gap, isBlank b = true)
      (hc : isBlank c = false)
      (hk : ∀ after, Parted after → token c (more ++ after) = .ok (k, more.length))
      (h : Cut (before ++ gap ++ c :: more) pieces last tokens) :
      Cut before (⟨gap, c :: more⟩ :: pieces) last
        (tokens.cons ⟨k, Span.ofPart (before ++ gap) (c :: more)⟩)

theorem exists_cut (before : List Char) {cs : List Char} {tokens : Tokens}
    (h : ofChars (Mark.behind before) cs = .ok tokens) :
    ∃ pieces last, cs = Piece.join pieces ++ last ∧ Cut before pieces last tokens := by
  generalize hm : Mark.behind before = mark at h
  fun_induction ofChars mark cs generalizing before tokens with
  | case1 mark cs start =>
    rename_i hd
    subst hm
    cases h
    have hblank : ∀ b ∈ cs, isBlank b = true := List.dropWhile_eq_nil_iff.mp hd
    have hstart : start = Mark.behind (before ++ cs) := by
      rw [← Mark.past_behind, ← List.takeWhile_eq_self_iff.mpr hblank]
    exact ⟨[], cs, rfl, hstart ▸ .finish hblank⟩
  | case2 => cases h
  | case3 mark cs start c rest hd shorter k n hk =>
    rename_i stop ih
    subst hm
    obtain ⟨tokens, htokens, rfl⟩ := map_eq_ok.mp h
    obtain ⟨more, after, rfl, rfl, hmore⟩ := repeats_token c rest k n hk
    have hcs : cs = cs.takeWhile isBlank ++ c :: (more ++ after) := by
      rw [← hd, List.takeWhile_append_dropWhile]
    have hstart : start = Mark.behind (before ++ cs.takeWhile isBlank) := Mark.past_behind _ _
    have hstop : stop = Mark.behind (before ++ cs.takeWhile isBlank ++ c :: more) := by
      rw [← Mark.past_behind, ← hstart]
      simp only [stop, List.take_left]
    simp only [List.drop_left] at htokens ih
    obtain ⟨pieces, last, rfl, hcut⟩ := ih _ hstop.symm htokens
    refine ⟨⟨cs.takeWhile isBlank, c :: more⟩ :: pieces, last, ?_, ?_⟩
    · conv_lhs => rw [hcs]
      simp
    · rw [hstart, hstop]
      have hc : isBlank c = false := by simpa [hd] using List.head?_dropWhile_not isBlank cs
      exact .token (fun b hb => List.mem_takeWhile_imp hb) hc hmore hcut

theorem ofChars_blank {cs : List Char} (h : ∀ b ∈ cs, isBlank b = true) (mark : Mark) :
    ofChars mark cs = .ok ⟨[], mark.past cs⟩ := by
  rw [ofChars, List.takeWhile_eq_self_iff.mpr h]
  split
  · rfl
  · next hd => simp [List.dropWhile_eq_nil_iff.mpr h] at hd

/-- The tokens stand in the text one after another. -/
structure Laid (text : List Char) (tokens : Tokens) : Prop where
  within : ∀ t ∈ tokens.items, t.span.Within text
  nonempty : ∀ t ∈ tokens.items, t.span.start < t.span.stop
  ordered : tokens.items.Pairwise fun t t' => t.span.stop ≤ t'.span.start
  finish : tokens.finish = Mark.behind text

namespace Cut

variable {before last : List Char} {pieces : List Piece} {tokens : Tokens}

theorem start_le (h : Cut before pieces last tokens) :
    ∀ t ∈ tokens.items, bytes before ≤ t.span.start := by
  induction h with
  | finish => simp
  | @token before gap c more pieces last k tokens hg hc hk h ih =>
    refine List.forall_mem_cons.mpr ⟨by simp [Span.start_ofPart], fun t ht => ?_⟩
    have := ih t ht
    simp only [bytes_append] at this
    omega

theorem laid (h : Cut before pieces last tokens) :
    Laid (before ++ (Piece.join pieces ++ last)) tokens := by
  induction h with
  | finish => exact ⟨by simp, by simp, .nil, by simp⟩
  | @token before gap c more pieces last k tokens hg hc hk h ih =>
    have htext : before ++ (Piece.join (⟨gap, c :: more⟩ :: pieces) ++ last) =
        before ++ gap ++ c :: more ++ (Piece.join pieces ++ last) := by simp
    rw [htext]
    refine ⟨List.forall_mem_cons.mpr ⟨⟨_, _, _, rfl, rfl⟩, ih.within⟩,
      List.forall_mem_cons.mpr ⟨Span.start_lt_stop_ofPart (by simp), ih.nonempty⟩,
      List.pairwise_cons.mpr ⟨fun t ht => h.start_le t ht, ih.ordered⟩, ih.finish⟩

theorem gaps_blank (h : Cut before pieces last tokens) :
    ∀ p ∈ pieces, ∀ b ∈ p.gap, isBlank b = true := by
  induction h with
  | finish => simp
  | token hg _ _ _ ih => exact List.forall_mem_cons.mpr ⟨hg, ih⟩

theorem last_blank (h : Cut before pieces last tokens) : ∀ b ∈ last, isBlank b = true := by
  induction h with
  | finish hl => exact hl
  | token _ _ _ _ ih => exact ih

theorem length_eq (h : Cut before pieces last tokens) : tokens.items.length = pieces.length := by
  induction h with
  | finish => rfl
  | token _ _ _ _ ih => exact congrArg (· + 1) ih

/-- A token is read back from its own characters, which stand behind the pieces before it. -/
theorem nth (h : Cut before pieces last tokens) {first rest : List Piece} {p : Piece}
    (hp : pieces = first ++ p :: rest) : ∃ t, tokens.items[first.length]? = some t ∧
      t.span = Span.ofPart (before ++ Piece.join first ++ p.gap) p.part ∧
      ∃ alone, ofText (String.ofList p.part) = .ok alone ∧ alone.kinds = [t.kind] := by
  induction h generalizing first with
  | finish => simp at hp
  | @token before gap c more pieces last k tokens hg hc hk h ih =>
    cases first with
    | nil =>
      cases hp
      have hblank : ∀ b ∈ ([] : List Char), isBlank b = true := by simp
      obtain ⟨stop, span, hread⟩ := ofChars_token hblank hc (hk [] parted_nil) Mark.start
      rw [List.append_nil, List.drop_length, ofChars_blank hblank] at hread
      exact ⟨_, rfl, by simp, _, by simpa [ofText, Except.map] using hread, rfl⟩
    | cons q first =>
      cases hp
      obtain ⟨t, ht, hspan, halone⟩ := ih rfl
      exact ⟨t, ht, by simpa using hspan, halone⟩

/-- Between the same characters of tokens there may be other blanks. -/
theorem respaced (h : Cut before pieces last tokens) {others : List Piece} {last' : List Char}
    (hs : List.Forall₂ Piece.Respaced pieces others) (hl : ∀ b ∈ last', isBlank b = true)
    (mark : Mark) : ∃ again, ofChars mark (Piece.join others ++ last') = .ok again ∧
      again.kinds = tokens.kinds := by
  induction h generalizing others mark with
  | finish =>
    cases hs
    exact ⟨_, ofChars_blank hl mark, rfl⟩
  | @token before gap c more pieces last k tokens hg hc hk h ih =>
    cases hs with
    | @cons _ p _ others hp hs =>
      obtain ⟨gap', part'⟩ := p
      obtain ⟨rfl, hg', -⟩ := hp
      have hparted := Piece.parted_respaced hs hl
      obtain ⟨stop, span, hread⟩ := ofChars_token hg' hc (hk _ hparted) mark
      obtain ⟨again, hagain, hkinds⟩ := ih hs stop
      rw [List.drop_left, hagain] at hread
      exact ⟨again.cons ⟨k, span⟩, by simpa [Except.map] using hread, congrArg (k :: ·) hkinds⟩

end Cut

theorem laid_of_ofText {text : String} {tokens : Tokens} (h : ofText text = .ok tokens) :
    Laid text.toList tokens := by
  obtain ⟨pieces, last, htext, hcut⟩ := exists_cut [] h
  simpa [htext] using hcut.laid

/-- Reading tokens loses nothing of a text but its blanks. The text is made of pieces, blanks and
the characters of a token each, and of blanks at the end. Each token has the span of its characters
and is read back from them alone, and from all of them with any other blanks between. -/
theorem ofText_lossless {text : String} {tokens : Tokens} (h : ofText text = .ok tokens) :
    Laid text.toList tokens ∧ ∃ pieces last,
      text.toList = Piece.join pieces ++ last ∧
      (∀ p ∈ pieces, ∀ b ∈ p.gap, isBlank b = true) ∧ (∀ b ∈ last, isBlank b = true) ∧
      tokens.items.length = pieces.length ∧
      (∀ first p rest, pieces = first ++ p :: rest → ∃ t, tokens.items[first.length]? = some t ∧
        t.span = Span.ofPart (Piece.join first ++ p.gap) p.part ∧
        ∃ alone, ofText (String.ofList p.part) = .ok alone ∧ alone.kinds = [t.kind]) ∧
      ∀ others last', List.Forall₂ Piece.Respaced pieces others →
        (∀ b ∈ last', isBlank b = true) → ∃ again,
          ofText (String.ofList (Piece.join others ++ last')) = .ok again ∧
            again.kinds = tokens.kinds := by
  refine ⟨laid_of_ofText h, ?_⟩
  obtain ⟨pieces, last, htext, hcut⟩ := exists_cut [] h
  refine ⟨pieces, last, htext, hcut.gaps_blank, hcut.last_blank, hcut.length_eq, ?_, ?_⟩
  · intro first p rest hp
    simpa using hcut.nth hp
  · intro others last' hs hl
    rw [ofText, String.toList_ofList]
    exact hcut.respaced hs hl Mark.start

/-- Tokens with and without blanks between them, one of them over two lines. -/
theorem exists_lossless :
    ∃ tokens, ofText " this\n<= 'é\n'|len" = .ok tokens ∧
      tokens.items.map (·.span) =
        [⟨1, 5, 1, 2⟩, ⟨6, 8, 2, 1⟩, ⟨9, 14, 2, 4⟩, ⟨14, 15, 3, 2⟩, ⟨15, 18, 3, 3⟩] ∧
      Laid " this\n<= 'é\n'|len".toList tokens := by
  have h : (ofText " this\n<= 'é\n'|len").toOption.any (fun tokens =>
      tokens.items.map (·.span) =
        [⟨1, 5, 1, 2⟩, ⟨6, 8, 2, 1⟩, ⟨9, 14, 2, 4⟩, ⟨14, 15, 3, 2⟩, ⟨15, 18, 3, 3⟩]) = true := by
    decide +kernel
  obtain ⟨tokens, htokens, hspans⟩ := toOption_any_iff.mp h
  exact ⟨tokens, htokens, by simpa using hspans, (ofText_lossless htokens).1⟩

end Tokens

end RecordCheck
