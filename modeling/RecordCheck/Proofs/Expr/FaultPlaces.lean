import RecordCheck.Proofs.Expr.Formulas
import RecordCheck.Proofs.Expr.Places

/-! Where the faults of a text are reported: always at a part of the text. -/

namespace RecordCheck

open Text Results

/-! ### Faults within tokens -/

namespace Lexer

/-- The outcome is no failure whose place ends before it starts. -/
def Forward {β : Type} (x : Except Failure β) : Prop := ∀ e, x = .error e → e.skipped ≤ e.covered

theorem forward_ok {β : Type} (b : β) : Forward (.ok b) := nofun

theorem forward_error {β : Type} {e : Failure} (h : e.skipped ≤ e.covered) :
    Forward (.error e : Except Failure β) := by
  rintro _ ⟨⟩
  exact h

theorem forward_string (quote : Char) (rest : List Char) : Forward (string quote rest) := by
  unfold string
  split
  · exact forward_ok _
  · exact forward_error le_rfl
  · exact forward_error (Nat.zero_le _)

theorem forward_number (c : Char) (rest : List Char) : Forward (number c rest) := by
  unfold number
  dsimp only
  split
  · exact forward_error (Nat.zero_le _)
  split
  · split
    · exact forward_ok _
    · exact forward_error (Nat.zero_le _)
  · exact forward_ok _

theorem forward_token (c : Char) (rest : List Char) : Forward (token c rest) := by
  unfold token
  dsimp only
  split
  · exact forward_ok _
  split
  · exact forward_ok _
  split
  · exact forward_ok _
  split
  · split
    · exact forward_ok _
    · exact forward_error (Nat.zero_le _)
  split
  · exact forward_string c rest
  split
  · exact forward_ok _
  split
  · exact forward_number c rest
  split
  · exact forward_ok _
  · exact forward_error (Nat.zero_le _)

end Lexer

/-! ### Faults between tokens -/

namespace Parser

variable {α β : Type} {n m : Nat} {text : List Char}

/-- The tokens to come and the end of the text have their places in it. -/
structure Cursor.Inside (text : List Char) (c : Cursor) : Prop where
  tokens : ∀ t ∈ c.rest, t.span.Within text
  finish : (c.finish.spanTo c.finish).Within text

/-- A fault of the parser has its place in the text, and so has all that is left if there is
none. -/
def Reports (text : List Char) : Outcome α n → Prop
  | .ok r => r.next.Inside text
  | .error e => e.span.Within text

theorem Reports.bind {x : Outcome α n} {f : Parsed α n → Outcome β m} (hx : Reports text x)
    (hf : ∀ r, r.next.Inside text → Reports text (f r)) : Reports text (x >>= f) := by
  cases x with
  | error e => exact hx
  | ok r => exact hf r hx

variable {c : Cursor}

theorem Cursor.Inside.span (hc : c.Inside text) : c.span.Within text := by
  unfold Cursor.span
  split
  · exact hc.finish
  · next token rest h => exact hc.tokens token (h ▸ List.mem_cons_self)

theorem Cursor.Inside.after (hc : c.Inside text) {token : Token} {rest : List Token}
    (h : c.rest = token :: rest) : (c.after token rest).Inside text :=
  ⟨fun t ht => hc.tokens t (h ▸ List.mem_cons_of_mem token ht), hc.finish⟩

theorem reports_unexpected (hc : c.Inside text) (expected : String) :
    Reports text (.error (c.unexpected expected) : Outcome α n) := hc.span

theorem reports_expect (hc : c.Inside text) (symbol : Symbol) : Reports text (expect symbol c) := by
  unfold expect
  split
  · exact reports_unexpected hc _
  · next h =>
    split
    · exact hc.after h
    · exact reports_unexpected hc _

/-- A part between brackets reports its faults in the text. -/
def InnerReports (text : List Char) (inner : Inner n) : Prop :=
  ∀ c h, c.Inside text → Reports text (inner c h)

def LevelReports (text : List Char) (level : Level n) : Prop :=
  ∀ c h, c.Inside text → Reports text (level c h)

variable {inner : Inner n} {operand : Level n}

/-! ### Values and what follows them -/

theorem reports_items (hi : InnerReports text inner) (close : Symbol) (h : c.size < n)
    (hc : c.Inside text) : Reports text (items inner close c h) := by
  fun_induction items inner close c h with
  | case1 c h hs => exact (reports_expect hc _).bind fun closed hclosed => hclosed
  | case2 c h hs ih =>
    refine (hi c h hc).bind fun item hitem => ?_
    dsimp only
    split
    · exact (reports_expect hitem _).bind fun comma hcomma =>
        (ih item comma hcomma).bind fun more hmore => hmore
    · exact (reports_expect hitem _).bind fun closed hclosed => hclosed

theorem reports_primary (hi : InnerReports text inner) : LevelReports text (primary inner) := by
  intro c h hc
  unfold primary
  split
  · exact reports_unexpected hc _
  · next token rest hr =>
    have hafter := hc.after hr
    have hspan := hc.tokens token (hr ▸ List.mem_cons_self)
    dsimp only
    generalize token.kind = kind
    cases kind with
    | int | float | string => exact hafter
    | keyword keyword =>
      cases keyword with
      | true | false | null => exact hafter
      | _ => exact reports_unexpected hc _
    | symbol symbol =>
      cases symbol with
      | leftParen =>
        exact (hi _ _ hafter).bind fun body hbody =>
          (reports_expect hbody _).bind fun closed hclosed => hclosed
      | leftBracket => exact (reports_items hi _ _ hafter).bind fun list hlist => hlist
      | _ => exact reports_unexpected hc _
    | ident name =>
      dsimp only
      split
      · exact hafter
      · split
        · exact (reports_expect hafter _).bind fun opened hopened =>
            (reports_items hi _ _ hopened).bind fun arguments harguments => harguments
        · exact hspan

theorem reports_fieldName (hc : c.Inside text) : Reports text (fieldName c) := by
  unfold fieldName
  split
  · exact reports_unexpected hc _
  · next hr =>
    split
    · exact hc.after hr
    · exact hc.after hr
    · exact reports_unexpected hc _

theorem reports_functionName (hc : c.Inside text) : Reports text (functionName c) := by
  unfold functionName
  split
  · exact reports_unexpected hc _
  · next hr =>
    split
    · exact hc.after hr
    · exact reports_unexpected hc _

theorem reports_suffixes (hi : InnerReports text inner) (base : Expr) (h : c.size < n)
    (hc : c.Inside text) : Reports text (suffixes inner base c h) := by
  fun_induction suffixes inner base c h with
  | case1 base c h hd ih =>
    exact (reports_expect hc _).bind fun dot hdot =>
      (reports_fieldName hdot).bind fun name hname =>
        (ih dot name hname).bind fun whole hwhole => hwhole
  | case2 base c h hd hb ih =>
    exact (reports_expect hc _).bind fun opened hopened =>
      (hi _ _ hopened).bind fun i hi' => (reports_expect hi' _).bind fun closed hclosed =>
        (ih opened i closed hclosed).bind fun whole hwhole => hwhole
  | case3 base c h hd hb hp ih ih' =>
    refine (reports_expect hc _).bind fun pipe hpipe =>
      (reports_functionName hpipe).bind fun name hname => ?_
    dsimp only
    split
    · exact (reports_expect hname _).bind fun opened hopened =>
        (reports_items hi _ _ hopened).bind fun arguments harguments =>
          (ih pipe name opened arguments harguments).bind fun whole hwhole => hwhole
    · exact (ih' pipe name hname).bind fun whole hwhole => hwhole
  | case4 => exact hc

theorem reports_postfixed (hi : InnerReports text inner) :
    LevelReports text (postfixed inner) := fun c h hc =>
  (reports_primary hi c h hc).bind fun _ hbase =>
    (reports_suffixes hi _ _ hbase).bind fun _ hwhole => hwhole

/-! ### Operators -/

theorem reports_leading (ho : LevelReports text operand) (op : UnaryOp)
    (marks : Token.Kind → Bool) : LevelReports text (leading op marks operand) := by
  intro c h hc
  fun_induction leading op marks operand c h with
  | case1 => exact ho _ _ hc
  | case2 c h token rest hr hm shorter ih =>
    exact (ih (hc.after hr)).bind fun inner hinner => hinner
  | case3 => exact ho _ _ hc

theorem reports_chainAfter (ho : LevelReports text operand)
    (op? : Token.Kind → Option BinaryOp) (left : Expr) (h : c.size ≤ n) (hc : c.Inside text) :
    Reports text (chainAfter op? operand left c h) := by
  fun_induction chainAfter op? operand left c h with
  | case1 => exact hc
  | case2 => exact hc
  | case3 left c h token rest hr op hop shorter ih =>
    exact (ho _ _ (hc.after hr)).bind fun right hright =>
      (ih right hright).bind fun whole hwhole => hwhole

theorem reports_chain (ho : LevelReports text operand) (op? : Token.Kind → Option BinaryOp) :
    LevelReports text (chain op? operand) := fun c h hc =>
  (ho c h hc).bind fun _ hfirst =>
    (reports_chainAfter ho op? _ _ hfirst).bind fun _ hwhole => hwhole

/-! ### Comparisons -/

theorem reports_links (ho : LevelReports text operand) (h : c.size ≤ n) (hc : c.Inside text) :
    Reports text (links operand c h) := by
  fun_induction links operand c h with
  | case1 => exact hc
  | case2 => exact hc
  | case3 c h token rest hr symbol hk op hop shorter ih =>
    exact (ho _ _ (hc.after hr)).bind fun right hright =>
      (ih right hright).bind fun more hmore => hmore
  | case4 => exact hc

theorem reports_pattern (hc : c.Inside text) : Reports text (pattern c) := by
  unfold pattern
  split
  · exact reports_unexpected hc _
  · next token rest hr =>
    split
    · split
      · exact hc.after hr
      · exact hc.tokens token (hr ▸ List.mem_cons_self)
    · exact reports_unexpected hc _

theorem reports_relation (ho : LevelReports text operand) (start : Span) (left : Expr)
    (h : c.size ≤ n) (hc : c.Inside text) : Reports text (relation operand start left c h) := by
  unfold relation
  split
  · next hr => exact (ho _ _ (hc.after hr)).bind fun right hright => hright
  · next hr =>
    have hin := (hc.after hr).after rfl
    exact (ho _ _ hin).bind fun right hright => hright
  · next hr => exact (reports_pattern (hc.after hr)).bind fun p hp => hp
  · exact hc

theorem reports_comparison (ho : LevelReports text operand) :
    LevelReports text (comparison operand) := fun c h hc =>
  (ho c h hc).bind fun _ hfirst => (reports_links ho _ hfirst).bind fun _ hmore =>
    (reports_relation ho _ _ _ hmore).bind fun _ hwhole => hwhole

/-! ### Expressions -/

theorem reports_disjunction (hi : InnerReports text inner) :
    LevelReports text (disjunction inner) :=
  have sum := reports_chain (reports_chain (reports_leading (reports_postfixed hi) _ _) _) _
  reports_chain (reports_chain (reports_leading (reports_comparison sum) _ _) _) _

theorem reports_expression (c : Cursor) (hc : c.Inside text) : Reports text (expression c) := by
  induction c using expression.induct with
  | case1 c ih =>
    rw [expression]
    exact reports_disjunction (fun d hd hin => ih d hd hin) c le_rfl hc

end Parser

/-! ### Faults of a text -/

theorem Tokens.within_of_ofChars (before : List Char) {cs : List Char} {e : SyntaxError}
    (h : ofChars (Mark.behind before) cs = .error e) : e.span.Within (before ++ cs) := by
  generalize hm : Mark.behind before = mark at h
  fun_induction ofChars mark cs generalizing before e with
  | case1 => cases h
  | case2 mark cs start c rest hd shorter e ht =>
    rename_i span
    subst hm
    cases h
    have hstart : start = Mark.behind (before ++ cs.takeWhile isBlank) := Mark.past_behind _ _
    have hcs : cs = cs.takeWhile isBlank ++ c :: rest := by
      rw [← hd, List.takeWhile_append_dropWhile]
    simp only [span, hstart, Mark.past_behind]
    apply Span.within_of_fronts
    · exact (List.prefix_append_right_inj _).mpr
        (List.take_prefix_take_left (Lexer.forward_token c rest e ht))
    · conv_rhs => rw [hcs, ← List.append_assoc]
      exact (List.prefix_append_right_inj _).mpr (List.take_prefix _ _)
  | case3 mark cs start c rest hd shorter k n hk =>
    rename_i stop ih
    subst hm
    have hstop : stop = Mark.behind (before ++ cs.takeWhile isBlank ++ c :: rest.take n) := by
      rw [← Mark.past_behind, ← Mark.past_behind]
    have hcs : cs = cs.takeWhile isBlank ++ c :: (rest.take n ++ rest.drop n) := by
      rw [List.take_append_drop, ← hd, List.takeWhile_append_dropWhile]
    have hrest := ih _ hstop.symm (map_eq_error.mp h)
    rw [hcs]
    simpa using hrest

theorem Expr.within_of_ofTokens {text : List Char} {tokens : Tokens} (ht : tokens.Laid text)
    {e : SyntaxError} (h : Expr.ofTokens tokens = .error e) : e.span.Within text := by
  have hend : (tokens.finish.spanTo tokens.finish).Within text := by
    rw [ht.finish]
    exact Span.within_of_fronts List.prefix_rfl List.prefix_rfl
  have hreports := Parser.reports_expression ⟨tokens.items, 0, tokens.finish⟩ ⟨ht.within, hend⟩
  rcases bind_eq_error.mp h with h | ⟨whole, hwhole, h⟩
  · rwa [h] at hreports
  · rw [hwhole] at hreports
    split at h
    · cases h
    · cases h
      exact hreports.span

theorem Expr.within_of_parse {text : String} {e : SyntaxError} (h : Expr.parse text = .error e) :
    e.span.Within text.toList := by
  rcases bind_eq_error.mp h with h | ⟨tokens, htokens, h⟩
  · exact Tokens.within_of_ofChars [] h
  · exact Expr.within_of_ofTokens (Tokens.laid_of_ofText htokens) h

/-! ### Double braces -/

namespace Mark

/-- The characters take as much place as each other. -/
def Alike (c d : Char) : Prop := c.utf8Size = d.utf8Size ∧ (c = '\n' ↔ d = '\n')

instance : Std.Refl Alike := ⟨fun _ => ⟨rfl, Iff.rfl⟩⟩

theorem past_alike {cs ds : List Char} (h : List.Forall₂ Alike cs ds) (mark : Mark) :
    mark.past cs = mark.past ds := by
  induction h generalizing mark with
  | nil => rfl
  | @cons c d cs ds hcd _ ih =>
    have hstep : mark.step c = mark.step d := by simp only [step, hcd.1, hcd.2]
    rw [past, past, List.foldl_cons, List.foldl_cons, hstep]
    exact ih _

theorem behind_alike {cs ds : List Char} (h : List.Forall₂ Alike cs ds) :
    behind cs = behind ds := by
  simpa [past_behind] using past_alike h (behind [])

end Mark

/-- Places in a text are places in another whose characters take as much place. -/
theorem Span.Within.of_alike {cs ds : List Char} {span : Span} (hw : span.Within ds)
    (h : List.Forall₂ Mark.Alike cs ds) : span.Within cs := by
  obtain ⟨before, part, after, rfl, rfl⟩ := hw
  have hback := Mark.behind_alike (List.forall₂_take_append cs (before ++ part) after h)
  rw [List.append_assoc] at h
  have hfront := Mark.behind_alike (List.forall₂_take_append cs before (part ++ after) h)
  rw [ofPart, ← hfront, ← hback]
  exact within_of_fronts (List.take_prefix_take_left (by simp)) (List.take_prefix _ _)

namespace Formula

theorem eq_of_unwrapped {cs inner : List Char} (h : unwrapped? cs = some inner) :
    cs = ['\x7b', '\x7b'] ++ inner ++ ['\x7d', '\x7d'] := by
  unfold unwrapped? at h
  split at h
  · split at h
    · next rest hs =>
      cases h
      obtain ⟨inner, rfl⟩ := List.isSuffixOf_iff_suffix.mp hs
      simp
    · cases h
  · cases h

/-- A text is what trimming leaves of it, between what it takes away. -/
theorem exists_trim (text : List Char) :
    ∃ after, text = text.takeWhile isBlank ++ (trim text ++ after) := by
  obtain ⟨after, hafter⟩ := (trimLeft text).reverse.dropWhile_suffix isBlank
  refine ⟨after.reverse, ?_⟩
  rw [trim, trimRight, ← List.reverse_append, hafter, List.reverse_reverse, trimLeft,
    List.takeWhile_append_dropWhile]

/-- Blanks stand in the place of braces, which take as much. -/
theorem blankBraces_alike (text : List Char) : List.Forall₂ Mark.Alike text (blankBraces text) := by
  obtain ⟨after, htext⟩ := exists_trim text
  cases hu : unwrapped? (trim text) with
  | none =>
    rw [blankBraces_eq_self hu]
    exact List.forall₂_refl text
  | some inner =>
    simp only [blankBraces, hu]
    rw [eq_of_unwrapped hu] at htext ⊢
    generalize text.takeWhile isBlank = before at htext ⊢
    subst htext
    have hopen : List.Forall₂ Mark.Alike ['\x7b', '\x7b'] [' ', ' '] := by
      simp [Mark.Alike, Char.utf8Size]
    have hclose : List.Forall₂ Mark.Alike ['\x7d', '\x7d'] [' ', ' '] := by
      simp [Mark.Alike, Char.utf8Size]
    have hinner := List.rel_append (List.rel_append hopen (List.forall₂_refl inner)) hclose
    simpa using List.rel_append (List.forall₂_refl before)
      (List.rel_append hinner (List.forall₂_refl after))

/-- A source that does not compile is at fault at one of its parts, also between braces. -/
theorem within_of_compile {source : String} {e : SyntaxError} (h : compile source = .error e) :
    e.span.Within source.toList := by
  refine Span.Within.of_alike ?_ (blankBraces_alike source.toList)
  rcases bind_eq_error.mp h with h | ⟨expr, hexpr, h⟩
  · simpa using Expr.within_of_parse h
  · have hplaced := Expr.allPlaced_of_parse hexpr
    split at h
    · next hcall =>
      cases h
      obtain ⟨before, t, after, hsub, -, ht⟩ := firstCallError?_eq_some_iff.mp hcall
      have hw := (hplaced t (by simp [hsub])).within
      cases ht with
      | unknown | arity => simpa [Expr.span] using hw
    · cases h

end Formula

/-- Places of expressions and of faults. Every node of the tree of a text has a part of the text as
its place, and its own parts stand within it, one after another. A text that cannot be parsed, and a
source that does not compile, are at fault at one of their parts. -/
theorem Expr.parse_places (text : String) :
    (∀ e, Expr.parse text = .ok e → ∀ t ∈ e.subterms,
      t.span.Within text.toList ∧ t.span.start < t.span.stop ∧
      (∀ u ∈ t.children, t.span.start ≤ u.span.start ∧ u.span.stop ≤ t.span.stop) ∧
      t.children.Pairwise fun u v => u.span.stop ≤ v.span.start) ∧
    (∀ err, Expr.parse text = .error err → err.span.Within text.toList) ∧
    ∀ err, Formula.compile text = .error err → err.span.Within text.toList := by
  refine ⟨fun e he t ht => ?_, fun err => within_of_parse, fun err => Formula.within_of_compile⟩
  have hplaced := Expr.allPlaced_of_parse he t ht
  exact ⟨hplaced.within, hplaced.nonempty, fun u hu =>
    ⟨hplaced.children.start_le u hu, hplaced.children.le_stop u hu⟩, hplaced.children.ordered⟩

/-- A sum whose first operand stands between parentheses, and a wrong call in the third line of a
source between braces. -/
theorem Expr.exists_parse_places :
    (∃ e, Expr.parse "(this) + 'é'" = .ok e ∧
      e.subterms.map span = [⟨1, 13, 1, 2⟩, ⟨1, 5, 1, 2⟩, ⟨9, 13, 1, 10⟩] ∧
      ∀ t ∈ e.subterms, t.span.Within "(this) + 'é'".toList) ∧
    ∃ err, Formula.compile "\n\x7b\x7b 'é' +\n frob(1) \x7d\x7d" = .error err ∧
      err.span = ⟨12, 19, 3, 2⟩ ∧
      err.span.Within "\n\x7b\x7b 'é' +\n frob(1) \x7d\x7d".toList := by
  have hok : (Expr.parse "(this) + 'é'").toOption.any (fun e =>
      e.subterms.map span = [⟨1, 13, 1, 2⟩, ⟨1, 5, 1, 2⟩, ⟨9, 13, 1, 10⟩]) = true := by
    decide +kernel
  have herror : failsWith (fun err => err.span = ⟨12, 19, 3, 2⟩)
      (Formula.compile "\n\x7b\x7b 'é' +\n frob(1) \x7d\x7d") = true := by
    decide +kernel
  obtain ⟨e, he, hspans⟩ := toOption_any_iff.mp hok
  obtain ⟨err, herr, hspan⟩ := failsWith_iff.mp herror
  exact ⟨⟨e, he, by simpa using hspans, fun t ht => ((parse_places _).1 e he t ht).1⟩,
    err, herr, by simpa using hspan, (parse_places _).2.2 err herr⟩

end RecordCheck
