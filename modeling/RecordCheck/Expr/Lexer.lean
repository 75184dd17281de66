import RecordCheck.Double.Decimal
import RecordCheck.Expr.Fault
import RecordCheck.Expr.Token
import RecordCheck.Text.Blank
import RecordCheck.Text.Letter

/-!
The tokens of a text. The kind of a token and its length depend on the characters alone; places
are added when the text is cut into tokens and the blanks between them.
-/

namespace RecordCheck

/-- A place in a text: the bytes before it, its line, and its column in characters. -/
structure Mark where
  offset : Nat
  line : Nat
  column : Nat
  deriving DecidableEq, Repr, Inhabited

namespace Mark

def start : Mark := ⟨0, 1, 1⟩

/-- The place after a character. -/
def step (mark : Mark) (c : Char) : Mark :=
  if c = '\n' then ⟨mark.offset + c.utf8Size, mark.line + 1, 1⟩
  else ⟨mark.offset + c.utf8Size, mark.line, mark.column + 1⟩

/-- The place after some text. -/
def past (mark : Mark) (cs : List Char) : Mark := cs.foldl step mark

def spanTo (mark stop : Mark) : Span := ⟨mark.offset, stop.offset, mark.line, mark.column⟩

end Mark

namespace Lexer

/-- A fault within a token: the characters before its place and those up to its end, both counted
from the start of the token. -/
structure Failure where
  fault : Fault
  skipped : Nat
  covered : Nat

/-- What a backslash and a character stand for in a string. Most escapes stay as written, so that
those of regular expressions need no second backslash. -/
def escape (c : Char) : List Char :=
  match c with
  | 'n' => ['\n']
  | 't' => ['\t']
  | 'r' => ['\r']
  | '\\' => ['\\']
  | '"' => ['"']
  | '\'' => ['\'']
  | c => ['\\', c]

/-- The content of a string after its opening quote, and the number of characters up to and with
the closing one. -/
def stringBody (quote : Char) : List Char → Except Fault (List Char × Nat)
  | [] => .error .unterminatedString
  | c :: rest =>
    if c = quote then .ok ([], 1)
    else if c = '\\' then
      match rest with
      | [] => .error .unterminatedEscape
      | d :: rest =>
        (stringBody quote rest).map fun (content, n) => (escape d ++ content, n + 2)
    else (stringBody quote rest).map fun (content, n) => (c :: content, n + 1)

def string (quote : Char) (rest : List Char) : Except Failure (Token.Kind × Nat) :=
  match stringBody quote rest with
  | .ok (content, n) => .ok (.string (String.ofList content), n)
  | .error .unterminatedEscape =>
    .error ⟨.unterminatedEscape, rest.length + 1, rest.length + 1⟩
  | .error fault => .error ⟨fault, 0, rest.length + 1⟩

def isWordStart (c : Char) : Bool := c.isAlpha || c == '_'

def isWordChar (c : Char) : Bool := Text.isAlphanumeric c || c == '_'

def word (c : Char) (rest : List Char) : Token.Kind × Nat :=
  let more := rest.takeWhile isWordChar
  let spelling := String.ofList (c :: more)
  match Keyword.ofWord? (c :: more) with
  | some keyword => (.keyword keyword spelling, more.length)
  | none => (.ident spelling, more.length)

/-- A point and digits at the front of a text. A point without a digit belongs to no number. -/
def fraction : List Char → List Char
  | '.' :: rest =>
    let digits := rest.takeWhile Char.isDigit
    if digits.isEmpty then [] else '.' :: digits
  | _ => []

def exponentSign : List Char → List Char
  | '+' :: _ => ['+']
  | '-' :: _ => ['-']
  | _ => []

/-- An exponent at the front of a text, and whether it has digits. -/
def exponent : List Char → List Char × Bool
  | [] => ([], true)
  | c :: rest =>
    if c = 'e' ∨ c = 'E' then
      let sign := exponentSign rest
      let digits := (rest.drop sign.length).takeWhile Char.isDigit
      (c :: sign ++ digits, !digits.isEmpty)
    else ([], true)

/-- The largest integer that can be written. -/
def largestInt : Nat := 1 <<< 63 - 1

def number (c : Char) (rest : List Char) : Except Failure (Token.Kind × Nat) :=
  let whole := rest.takeWhile Char.isDigit
  let rest := rest.drop whole.length
  let parts := fraction rest
  let (power, complete) := exponent (rest.drop parts.length)
  let text := c :: whole ++ parts ++ power
  if !complete then .error ⟨.invalidExponent (String.ofList text), 0, text.length⟩
  else if parts.isEmpty && power.isEmpty then
    let n := Decimal.ofDigits text
    if n ≤ largestInt then .ok (.int (Int64.ofNat n), text.length - 1)
    else .error ⟨.invalidInteger (String.ofList text), 0, text.length⟩
  else .ok (.float ((Decimal.ofText? text).getD ⟨0, 0⟩ |>.toDouble false), text.length - 1)

/-- A symbol that an equals sign after it makes another. -/
def withEquals (rest : List Char) (longer : Symbol) : Option (Token.Kind × Nat) :=
  if rest.head? = some '=' then some (.symbol longer, 1) else none

/-- The token that starts with the character `c`, and how many more characters it has. -/
def token (c : Char) (rest : List Char) : Except Failure (Token.Kind × Nat) :=
  let unexpected : Failure := ⟨.unexpectedChar c, 0, 1⟩
  if c = '=' then .ok ((withEquals rest .eq).getD (.symbol .eq, 0))
  else if c = '<' then .ok ((withEquals rest .le).getD (.symbol .lt, 0))
  else if c = '>' then .ok ((withEquals rest .ge).getD (.symbol .gt, 0))
  else if c = '!' then
    match withEquals rest .ne with
    | some found => .ok found
    | none => .error unexpected
  else if c = '"' ∨ c = '\'' then string c rest
  else if isWordStart c then .ok (word c rest)
  else if c.isDigit then number c rest
  else
    match Symbol.ofChar? c with
    | some symbol => .ok (.symbol symbol, 0)
    | none => .error unexpected

end Lexer

/-- The tokens of a text and the place where it ends. -/
structure Tokens where
  items : List Token
  finish : Mark
  deriving Repr, Inhabited

namespace Tokens

def cons (token : Token) (tokens : Tokens) : Tokens :=
  { tokens with items := token :: tokens.items }

/-- The tokens of a text that starts at a place. -/
def ofChars (mark : Mark) (cs : List Char) : Except SyntaxError Tokens :=
  let mark := mark.past (cs.takeWhile Text.isBlank)
  match h : cs.dropWhile Text.isBlank with
  | [] => .ok ⟨[], mark⟩
  | c :: rest =>
    have shorter : rest.length < cs.length := by
      have le := (List.dropWhile_suffix (l := cs) Text.isBlank).length_le
      rw [h] at le
      exact le
    match Lexer.token c rest with
    | .error e =>
      let span := (mark.past ((c :: rest).take e.skipped)).spanTo
        (mark.past ((c :: rest).take e.covered))
      .error ⟨e.fault, span⟩
    | .ok (kind, more) =>
      let stop := mark.past (c :: rest.take more)
      (ofChars stop (rest.drop more)).map (cons ⟨kind, mark.spanTo stop⟩)
termination_by cs.length
decreasing_by exact Nat.lt_of_le_of_lt (by simp) shorter

/-- The tokens of a text. -/
def ofText (text : String) : Except SyntaxError Tokens := Tokens.ofChars Mark.start text.toList

end Tokens

end RecordCheck
