import RecordCheck.Regex.Match
import RecordCheck.Regex.Parser

/-!
Patterns: regular expressions together with the text they were read from.
-/

namespace RecordCheck

/-- A text and the regular expression that it stands for. -/
structure Pattern where
  source : String
  regex : Regex
  read : Regex.parse source = .ok regex

namespace Pattern

/-- The pattern of a text, or the reason why it has none. -/
def ofSource (source : String) : Except Regex.Reason Pattern :=
  match h : Regex.parse source with
  | .ok regex => .ok ⟨source, regex, h⟩
  | .error reason => .error reason

/-- Whether the pattern occurs in a text. -/
def occursIn (pattern : Pattern) (text : String) : Bool := pattern.regex.isMatch text

/-- A pattern is determined by its text. -/
theorem ext_source {p q : Pattern} (h : p.source = q.source) : p = q := by
  obtain ⟨source, regex, read⟩ := p
  obtain ⟨source', regex', read'⟩ := q
  subst h
  rw [read] at read'
  cases read'
  rfl

instance : DecidableEq Pattern := fun p q =>
  if h : p.source = q.source then .isTrue (ext_source h)
  else .isFalse fun e => h (e ▸ rfl)

end Pattern

end RecordCheck
