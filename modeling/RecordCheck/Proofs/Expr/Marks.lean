import Mathlib.Data.List.Infix
import RecordCheck.Expr.Lexer

/-! Places in a text. A place is known by the text before it, a span by its part of the text. -/

namespace RecordCheck

/-- The bytes of some text. -/
def bytes : List Char → Nat
  | [] => 0
  | c :: cs => c.utf8Size + bytes cs

section

variable {cs ds text : List Char}

@[simp] theorem bytes_nil : bytes [] = 0 := rfl

@[simp] theorem bytes_append : bytes (cs ++ ds) = bytes cs + bytes ds := by
  induction cs with
  | nil => rw [List.nil_append, bytes_nil, Nat.zero_add]
  | cons c cs ih => rw [List.cons_append, bytes, bytes, ih, Nat.add_assoc]

theorem bytes_pos (h : cs ≠ []) : 0 < bytes cs := by
  obtain ⟨c, cs, rfl⟩ := List.exists_cons_of_ne_nil h
  exact Nat.add_pos_left c.utf8Size_pos _

theorem eq_nil_of_bytes (h : bytes cs = 0) : cs = [] :=
  by_contra fun hne => (bytes_pos hne).ne' h

/-- Of two fronts of a text the one with fewer bytes is a front of the other. -/
theorem prefix_of_bytes_le (hc : cs <+: text) (hd : ds <+: text) (h : bytes cs ≤ bytes ds) :
    cs <+: ds := by
  rcases List.prefix_or_prefix_of_prefix hc hd with hp | ⟨rest, rfl⟩
  · exact hp
  · rw [bytes_append] at h
    have hrest : rest = [] := eq_nil_of_bytes (by omega)
    rw [hrest, List.append_nil]

/-- The number of bytes is that of a front of the text: it does not end within a character. -/
def Boundary (text : List Char) (offset : Nat) : Prop :=
  ∃ front, front <+: text ∧ bytes front = offset

end

namespace Mark

/-- The place behind some text. -/
def behind (before : List Char) : Mark :=
  ⟨bytes before, 1 + before.count '\n', 1 + (before.reverse.takeWhile (· ≠ '\n')).length⟩

theorem step_behind (before : List Char) (c : Char) :
    (behind before).step c = behind (before ++ [c]) := by
  unfold step behind
  split
  · next h =>
    subst h
    simp [bytes, Nat.add_assoc]
  · next h => simp [bytes, h, Nat.add_assoc]

/-- Some text behind a place leads to the place behind that text. -/
theorem past_behind (before cs : List Char) : (behind before).past cs = behind (before ++ cs) := by
  induction cs generalizing before with
  | nil =>
    rw [List.append_nil]
    rfl
  | cons c cs ih =>
    rw [List.append_cons, ← ih, ← step_behind]
    rfl

end Mark

namespace Span

/-- The span of a part of a text, with what stands before it. -/
def ofPart (before part : List Char) : Span :=
  (Mark.behind before).spanTo (Mark.behind (before ++ part))

/-- The span is that of a part of the text: its ends are places between characters, and its line
and its column are those of its start. -/
def Within (span : Span) (text : List Char) : Prop :=
  ∃ before part after, text = before ++ part ++ after ∧ span = ofPart before part

variable {span : Span} {before part text : List Char}

theorem start_ofPart : (ofPart before part).start = bytes before := rfl

theorem stop_ofPart : (ofPart before part).stop = bytes before + bytes part := bytes_append

/-- The span of some text is not empty. -/
theorem start_lt_stop_ofPart (h : part ≠ []) :
    (ofPart before part).start < (ofPart before part).stop := by
  rw [start_ofPart, stop_ofPart]
  have := bytes_pos h
  omega

theorem within_of_fronts {front back : List Char} (h : front <+: back) (h' : back <+: text) :
    ((Mark.behind front).spanTo (Mark.behind back)).Within text := by
  obtain ⟨part, rfl⟩ := h
  obtain ⟨after, rfl⟩ := h'
  exact ⟨front, part, after, rfl, rfl⟩

theorem Within.boundary (h : span.Within text) : Boundary text span.stop := by
  obtain ⟨before, part, after, rfl, rfl⟩ := h
  exact ⟨before ++ part, List.prefix_append _ _, rfl⟩

/-- From the start of a part to any later place in the text there is a part. -/
theorem Within.upTo (h : span.Within text) {stop : Nat} (hb : Boundary text stop)
    (hle : span.start ≤ stop) : (span.upTo stop).Within text := by
  obtain ⟨before, part, after, rfl, rfl⟩ := h
  obtain ⟨front, hfront, rfl⟩ := hb
  have hbefore : before <+: before ++ part ++ after := by simp [List.append_assoc]
  obtain ⟨part, rfl⟩ := prefix_of_bytes_le hbefore hfront hle
  obtain ⟨after, h⟩ := hfront
  exact ⟨before, part, after, h.symm, rfl⟩

end Span

end RecordCheck
