import RecordCheck.Text.Scan
import RecordCheck.Toml.Scalar
import RecordCheck.Toml.Table

/-!
The reading of TOML. A document is a sequence of lines, each with a key and its value, the header of
a table, or neither.
-/

namespace RecordCheck.Toml

open Text (Scan)

/-- A reader of TOML. -/
abbrev Reader (α : Type) : Type := Scan Fault α

def malformed {α : Type} : Reader α := Scan.fail .malformed

/-- The deepest nesting of arrays and inline tables, and the most names of a key. -/
def nestingLimit : Nat := 79

/-! ### Space -/

def isSpace (c : Char) : Bool := c == ' ' || c == '\t'

/-- Characters that may stand in comments and strings: tabs, and all that are no ASCII control. -/
def isPlain (c : Char) : Bool := c == '\t' || (decide (0x20 ≤ c.toNat) && c.toNat != 0x7f)

def space : Reader Unit := do
  let _ ← Scan.takeWhile isSpace

/-- Takes a line break, if it comes next. -/
def newline : Reader Bool := do
  if ← Scan.word "\n" then return true else Scan.word "\r\n"

/-- Takes a comment, if it comes next. -/
def comment : Reader Unit := do
  if ← Scan.word "#" then
    let _ ← Scan.takeWhile isPlain

/-- The rest of a line: space, a comment, and a line break unless the text ends. -/
def lineEnd : Reader Unit := do
  space
  comment
  unless ← newline do
    if (← Scan.peek).isSome then malformed

/-- One piece of space, line breaks and comments with theirs. -/
def fillPiece : Reader (Option Unit) := do
  match ← Scan.peek with
  | some '#' =>
    comment
    if ← newline then return some () else malformed
  | some c =>
    if isSpace c then
      space
      return some ()
    else if c == '\n' || c == '\r' then
      if ← newline then return some () else malformed
    else return none
  | none => return none

/-- Space, line breaks and comments. -/
def fill : Reader Unit := do
  let _ ← Scan.many .malformed fillPiece

/-! ### Strings -/

/-- A character by so many hexadecimal digits. -/
def hexChar (count : Nat) : Reader Char := do
  let digits := (← Scan.ahead).take count
  Scan.skip count
  let n := ofDigits 16 digits
  if digits.length != count || !digits.all (isDigitOf 16) then malformed
  else if n.isValidChar then return Char.ofNat n
  else Scan.fail .outOfRange

/-- An escaped character, after its backslash. -/
def escaped : Reader Char := do
  match ← Scan.next with
  | some 'b' => return '\x08'
  | some 't' => return '\t'
  | some 'n' => return '\n'
  | some 'f' => return '\x0c'
  | some 'r' => return '\r'
  | some '"' => return '"'
  | some '\\' => return '\\'
  | some 'u' => hexChar 4
  | some 'U' => hexChar 8
  | _ => malformed

/-- One character of a string in double quotes, none at the closing quote. -/
def basicPiece : Reader (Option Char) := do
  match ← Scan.next with
  | some '"' => return none
  | some '\\' => some <$> escaped
  | some c => if isPlain c then return some c else malformed
  | none => malformed

/-- A string after its opening double quote. -/
def basicString : Reader String := do
  return String.ofList (← Scan.many .malformed basicPiece)

/-- A string after its opening single quote, in which nothing is escaped. -/
def literalString : Reader String := do
  let content ← Scan.takeWhile fun c => isPlain c && c != '\''
  if ← Scan.word "'" then return String.ofList content else malformed

/-- Quotes within a string of several lines. Three of them end it, after up to two more that belong
to it. -/
def quoteRun (quote : Char) : Reader (List Char × Bool) := do
  let count := (← Scan.takeWhile (· == quote)).length
  if count < 3 then return (List.replicate count quote, false)
  else if count ≤ 5 then return (List.replicate (count - 3) quote, true)
  else malformed

/-- A backslash before a line break removes it and all blanks after it. -/
def continuation : Reader Bool := do
  let afterSpace := (← Scan.ahead).dropWhile isSpace
  if ['\n'].isPrefixOf afterSpace || ['\r', '\n'].isPrefixOf afterSpace then
    let _ ← Scan.many .malformed do
      match ← Scan.peek with
      | some c =>
        if isSpace c then
          space
          return some ()
        else return (if ← newline then some () else none)
      | none => return none
    return true
  else return false

/-- Some characters of a string of several lines, and whether it ends with them. -/
def multiLinePiece (quote : Char) (escapes : Bool) : Reader (List Char × Bool) := do
  match ← Scan.peek with
  | none => malformed
  | some c =>
    if c == quote then quoteRun quote
    else if escapes && c == '\\' then
      Scan.skip 1
      if ← continuation then return ([], false) else return ([← escaped], false)
    else if ← newline then return (['\n'], false)
    else if isPlain c then
      Scan.skip 1
      return ([c], false)
    else malformed

/-- A string of several lines, after its opening quotes. A line break right after them does not
count. -/
def multiLineString (quote : Char) (escapes : Bool) : Reader String := do
  let _ ← newline
  collect []
where
  /-- The pieces after those in `taken`, the latest first. -/
  collect (taken : List Char) : Reader String := fun cs =>
    match multiLinePiece quote escapes cs with
    | .error fault => .error fault
    | .ok ((piece, true), left) =>
      .ok (String.ofList (taken.reverse ++ piece), left)
    | .ok ((piece, false), left) =>
      if _h : left.1.length < cs.length then
        match collect (piece.reverse ++ taken) left.1 with
        | .error fault => .error fault
        | .ok (s, last) => .ok (s, ⟨last.1, Nat.le_trans last.2 left.2⟩)
      else .error .malformed
  termination_by cs => cs.length

/-! ### Keys -/

def isBareChar (c : Char) : Bool := c.isAlphanum || c == '-' || c == '_'

/-- One name of a key, quoted or bare, and the space around it. -/
def name : Reader String := do
  space
  let name ← do
    if ← Scan.word "\"" then basicString
    else if ← Scan.word "'" then literalString
    else
      let bare ← Scan.takeWhile isBareChar
      if bare.isEmpty then malformed else pure (String.ofList bare)
  space
  return name

/-- The names of a key, with points between them: those before the last, and the last. -/
def key : Reader (List String × String) := do
  let first ← name
  let more ← Scan.many .malformed do
    if ← Scan.word "." then some <$> name else return none
  let names := first :: more
  if nestingLimit < names.length then Scan.fail .tooDeep
  else return (names.dropLast, names.getLastD first)

/-! ### Values -/

def isWordChar (c : Char) : Bool :=
  c.isAlphanum || c == '+' || c == '-' || c == '_' || c == '.' || c == ':'

/-- A boolean, number or date. A date and a time may have a blank between them. -/
def scalar : Reader Value := do
  let word ← Scan.takeWhile isWordChar
  let time ← do
    match ← Scan.ahead with
    | ' ' :: c :: _ =>
      if afterDate? word == some [] && isWordChar c then
        Scan.skip 1
        pure (' ' :: (← Scan.takeWhile isWordChar))
      else pure []
    | _ => pure []
  match Value.ofWord (word ++ time) with
  | .ok v => return v
  | .error fault => Scan.fail fault

def string : Reader String := do
  if ← Scan.word "\"\"\"" then multiLineString '"' true
  else if ← Scan.word "'''" then multiLineString '\'' false
  else if ← Scan.word "\"" then basicString
  else if ← Scan.word "'" then literalString
  else malformed

/-- The items of an array after its opening bracket, with commas between them and perhaps after the
last. -/
def arrayItems (value : Reader Value) : Reader (List Value) := do
  fill
  if ← Scan.word "]" then return []
  else
    let first ← value
    let more ← Scan.many .malformed do
      fill
      match ← Scan.next with
      | some ']' => return none
      | some ',' =>
        fill
        if ← Scan.word "]" then return none else some <$> value
      | _ => malformed
    return first :: more

/-- A key and its value. -/
def pair (value : Reader Value) : Reader ((List String × String) × Value) := do
  let names ← key
  if ← Scan.word "=" then
    space
    return (names, ← value)
  else malformed

/-- The entries of an inline table after its opening brace, with commas between them. -/
def inlineEntries (value : Reader Value) : Reader Entries := do
  space
  if ← Scan.word "\x7d" then return []
  else
    let first ← pair value
    let more ← Scan.many .malformed do
      space
      match ← Scan.next with
      | some '\x7d' => return none
      | some ',' => some <$> pair value
      | _ => malformed
    let add (entries : Entries) (p : (List String × String) × Value) : Result Entries :=
      Entries.addDotted p.1.2 p.2 p.1.1 entries
    match (first :: more).foldlM add [] with
    | .ok entries => return entries
    | .error fault => Scan.fail fault

/-- A value, given the reader of values inside it unless these would lie too deep. -/
def valueOf (inner : Option (Reader Value)) : Reader Value := do
  match ← Scan.peek, inner with
  | some '"', _ => .string <$> string
  | some '\'', _ => .string <$> string
  | some '[', none => Scan.fail .tooDeep
  | some '\x7b', none => Scan.fail .tooDeep
  | some '[', some value =>
    Scan.skip 1
    .array <$> arrayItems value
  | some '\x7b', some value =>
    Scan.skip 1
    .table .inline <$> inlineEntries value
  | _, _ => scalar

/-- A value with at most so many arrays and inline tables around its parts. -/
def value : Nat → Reader Value
  | 0 => valueOf none
  | depth + 1 => valueOf (some (value depth))

/-! ### Documents -/

/-- What a line says. -/
inductive Line where
  | blank
  | pair (names : List String) (last : String) (value : Value)
  /-- The header of a table. -/
  | table (names : List String) (last : String)
  /-- The header of a table in an array of tables. -/
  | tables (names : List String) (last : String)
  deriving Repr, Inhabited

/-- A header after its opening brackets, which are closed by the given ones. -/
def header (closing : String) : Reader (List String × String) := do
  let names ← key
  if ← Scan.word closing then
    lineEnd
    return names
  else malformed

/-- The next line, none at the end of the text. -/
def line : Reader (Option Line) := do
  space
  match ← Scan.peek with
  | none => return none
  | some c =>
    if c == '#' || c == '\n' || c == '\r' then
      lineEnd
      return some .blank
    else if ← Scan.word "[[" then
      let (names, last) ← header "]]"
      return some (.tables names last)
    else if ← Scan.word "[" then
      let (names, last) ← header "]"
      return some (.table names last)
    else
      let ((names, last), v) ← pair (value nestingLimit)
      lineEnd
      return some (.pair names last v)

/-- A document in the making, and the names that lead to the table of the latest header. -/
structure Draft where
  root : Entries := []
  current : List String := []

def Draft.add (draft : Draft) : Line → Result Draft
  | .blank => .ok draft
  | .pair names last v => do
    return { draft with
      root := ← draft.root.update (Entries.addDotted last v names) draft.current }
  | .table names last => do
    return ⟨← draft.root.update (Entries.openTable last) names, names ++ [last]⟩
  | .tables names last => do
    return ⟨← draft.root.update (Entries.pushTable last) names, names ++ [last]⟩

/-- The entries of a document. A mark of the byte order may stand before it. -/
def parse (text : String) : Result Entries :=
  let cs := match text.toList with
    | '\ufeff' :: rest => rest
    | cs => cs
  match Scan.many .malformed line cs with
  | .error fault => .error fault
  | .ok (lines, _) => do return (← lines.foldlM Draft.add {}).root

end RecordCheck.Toml
