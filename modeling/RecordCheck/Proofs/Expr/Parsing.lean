import RecordCheck.Proofs.Expr.Completeness
import RecordCheck.Proofs.Expr.Soundness

/-! The parser and the grammar agree: on the trees of each sequence of tokens, and on the sequences
that have none. -/

namespace RecordCheck.Expr

variable {tokens : Tokens} {e e' : Expr}

theorem derives_of_ofTokens (h : Expr.ofTokens tokens = .ok e) :
    Derives (.expr .disjunction e.spanless) tokens.kinds := by
  obtain ⟨d, hread, hd⟩ := ofTokens_eq_ok.mp h
  obtain ⟨ts, hts, he⟩ := Parser.sound_expression _ _ _ hread
  rw [hd, List.append_nil] at hts
  obtain rfl : tokens.kinds = ts := hts
  exact he

theorem exists_ofTokens_of_derives (h : Derives (.expr .disjunction e) tokens.kinds) :
    ∃ e', Expr.ofTokens tokens = .ok e' ∧ e'.spanless = e := by
  let R : Parser.Reader := fun c e d => Parser.Reads (Parser.expression c) e d
  have hR (c : Parser.Cursor) (e : Expr) (d : Parser.Cursor) :
      R c e d ↔ Parser.Disjunction R c e d := Parser.reads_expression fun _ _ _ _ => Iff.rfl
  have hc := Parser.complete_of_derives (fun c e d => (hR c e d).mpr) h
  obtain ⟨e', d, he, hd, hread⟩ := hc.read (c := ⟨tokens.items, 0, tokens.finish⟩)
    (List.append_nil _).symm Stratum.stops_nil (by decide)
  exact ⟨e', ofTokens_eq_ok.mpr ⟨d, (hR ..).mpr hread, hd⟩, he⟩

/-- Tokens stand for at most one tree. -/
theorem Derives.unique (h : Derives (.expr .disjunction e) tokens.kinds)
    (h' : Derives (.expr .disjunction e') tokens.kinds) : e = e' := by
  obtain ⟨p, hp, rfl⟩ := exists_ofTokens_of_derives h
  obtain ⟨p', hp', rfl⟩ := exists_ofTokens_of_derives h'
  cases hp.symm.trans hp'
  rfl

/-- The parser accepts exactly the grammar. It gives a tree, up to places in the text, if the
grammar derives the tree from all the tokens; no tokens have two trees; and tokens without a tree
are an error. -/
theorem ofTokens_iff_derives (tokens : Tokens) :
    (∀ e : Expr, (∃ e', Expr.ofTokens tokens = .ok e' ∧ e'.spanless = e.spanless) ↔
      Derives (.expr .disjunction e.spanless) tokens.kinds) ∧
    (∀ e e' : Expr, Derives (.expr .disjunction e) tokens.kinds →
      Derives (.expr .disjunction e') tokens.kinds → e = e') ∧
    ((∀ e : Expr, ¬ Derives (.expr .disjunction e) tokens.kinds) →
      ∃ error, Expr.ofTokens tokens = .error error) := by
  refine ⟨fun e => ⟨?_, exists_ofTokens_of_derives⟩, fun e e' => Derives.unique, ?_⟩
  · rintro ⟨e', hparse, he⟩
    rw [← he]
    exact derives_of_ofTokens hparse
  · intro hnone
    cases hparse : Expr.ofTokens tokens with
    | ok e => exact absurd (derives_of_ofTokens hparse) (hnone _)
    | error error => exact ⟨error, rfl⟩

end RecordCheck.Expr
