/-!
The reasons why a text is no regular expression.
-/

namespace RecordCheck.Regex

inductive Reason where
  | tooMuchNesting
  | tooLarge
  | duplicateName
  | groupUnclosed
  | questionUnclosed
  | groupUnopened
  | lookAround
  | flagsEmpty
  | nameMissing
  | nameInvalid
  | nameUnclosed
  | nameEmpty
  | flagUnknown
  | flagNegationRepeated
  | flagDuplicate
  | flagNegationDangling
  | flagsUnclosed
  | decimalMissing
  | decimalInvalid
  | hexMissing
  | fixedHexUnclosed
  | fixedHexDigit
  | fixedHexInvalid
  | bracedHexDigit
  | bracedHexUnclosed
  | bracedHexEmpty
  | bracedHexInvalid
  | escapeUnclosed
  | backreference
  | unicodeClass
  | escapeUnknown
  | nothingToRepeat
  | nothingToCount
  | countUnclosed
  | countLeastUnclosed
  | countCommaUnclosed
  | countMostUnclosed
  | countInvalid
  | countReversed
  | classUnclosed
  | classNegationUnclosed
  | classDashUnclosed
  | classBracketUnclosed
  | classItemUnclosed
  | classRangeItem
  | classItemInvalid
  | classRangeReversed
  | classNested
  | classIntersection
  | classDifference
  | classSymmetricDifference
  | boundaryUnclosed
  | boundaryUnknown
  | boundaryMissing
  deriving DecidableEq, Repr, Inhabited

namespace Reason

def message : Reason → String
  | tooMuchNesting => "pattern has too much nesting"
  | tooLarge => "compiled regex exceeded size limit"
  | duplicateName => "duplicate capture group name"
  | groupUnclosed => "found open group without closing ')'"
  | questionUnclosed => "expected closing ')', but got end of pattern"
  | groupUnopened => "found closing ')' without matching '('"
  | lookAround => "look-around is not supported"
  | flagsEmpty => "empty flag directive '(?)' is not allowed"
  | nameMissing => "expected capture group name, but got end of pattern"
  | nameInvalid => "invalid group name"
  | nameUnclosed => "expected end of capture group name, but got end of pattern"
  | nameEmpty => "empty capture group names are not allowed"
  | flagUnknown => "unrecognized inline flag"
  | flagNegationRepeated => "inline flag negation cannot be repeated"
  | flagDuplicate => "duplicate inline flag is not allowed"
  | flagNegationDangling => "inline flags cannot end with negation directive"
  | flagsUnclosed => "expected ':' or ')' to end inline flags, but got end of pattern"
  | decimalMissing => "expected decimal number, but found no digits"
  | decimalInvalid => "got invalid decimal number"
  | hexMissing => "expected hexadecimal number, but saw end of pattern first"
  | fixedHexUnclosed =>
    "expected fixed length hexadecimal number, but saw end of pattern first"
  | fixedHexDigit => "expected fixed length hexadecimal number, but got non-hex digit"
  | fixedHexInvalid => "got invalid fixed length hexadecimal number"
  | bracedHexDigit => "expected hexadecimal number in braces, but got non-hex digit"
  | bracedHexUnclosed =>
    "expected hexadecimal number, but saw end of pattern before closing brace"
  | bracedHexEmpty => "expected hexadecimal number in braces, but got no digits"
  | bracedHexInvalid => "got invalid hexadecimal number in braces"
  | escapeUnclosed =>
    "saw start of escape sequence, but saw end of pattern before it finished"
  | backreference => "backreferences are not supported"
  | unicodeClass => "Unicode character classes are not supported"
  | escapeUnknown => "unrecognized escape sequence"
  | nothingToRepeat =>
    "uncounted repetition operator must be applied to a sub-expression"
  | nothingToCount => "counted repetition operator must be applied to a sub-expression"
  | countUnclosed => "found unclosed counted repetition operator"
  | countLeastUnclosed => "found incomplete and unclosed counted repetition operator"
  | countCommaUnclosed =>
    "found counted repetition operator with a comma that is unclosed"
  | countMostUnclosed => "found counted repetition with min and max that is unclosed"
  | countInvalid =>
    "expected closing brace for counted repetition, but got something else"
  | countReversed => "found counted repetition with a min bigger than its max"
  | classUnclosed => "found unclosed character class"
  | classNegationUnclosed => "negated character class has no closing bracket"
  | classDashUnclosed => "non-empty character class has no closing bracket after dash"
  | classBracketUnclosed =>
    "character class begins with literal ']' but has no closing bracket"
  | classItemUnclosed => "non-empty character class has no closing bracket"
  | classRangeItem =>
    "character class ranges must start and end with a single character"
  | classItemInvalid => "invalid escape sequence in character class"
  | classRangeReversed => "invalid range in character class"
  | classNested => "nested character classes are not supported"
  | classIntersection => "character class intersection is not supported"
  | classDifference => "character class difference is not supported"
  | classSymmetricDifference => "character class symmetric difference is not supported"
  | boundaryUnclosed =>
    "special word boundary assertion is unclosed or has an invalid character"
  | boundaryUnknown => "special word boundary assertion is unrecognized"
  | boundaryMissing =>
    "found start of special word boundary or repetition without an end"

end Reason

end RecordCheck.Regex
