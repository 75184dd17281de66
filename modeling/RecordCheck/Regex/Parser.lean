import RecordCheck.Regex.Size
import RecordCheck.Regex.Reason
import RecordCheck.Text.Blank
import RecordCheck.Text.Letter
import RecordCheck.Text.Scan

/-!
The reading of regular expressions. The text is taken item by item; groups that are still open
wait on a stack, each with the flags to return to.
-/

namespace RecordCheck.Regex

open Text (Left Scan)

/-- The flags in force. Greediness has no flag here, for it does not change what matches. -/
structure Flags where
  ignoreCase : Bool := false
  multiLine : Bool := false
  dotAll : Bool := false
  crlf : Bool := false
  /-- Blanks and comments between items do not count. -/
  spaced : Bool := false
  deriving DecidableEq, Repr, Inhabited

/-- The deepest nesting of groups, and of nodes. -/
def nestingLimit : Nat := 50

/-! ### Space between items -/

/-- The text after its leading blanks and comments, first after the end of a comment if inside
one. A comment runs from a number sign to the end of the line. -/
def afterSpace (inComment : Bool) : List Char → List Char
  | [] => []
  | c :: rest =>
    if inComment then afterSpace (c != '\n') rest
    else if Text.isBlank c then afterSpace false rest
    else if c = '#' then afterSpace true rest
    else c :: rest

theorem length_afterSpace (inComment : Bool) (cs : List Char) :
    (afterSpace inComment cs).length ≤ cs.length := by
  induction cs generalizing inComment with
  | nil => simp [afterSpace]
  | cons c rest ih =>
    simp only [afterSpace]
    split
    · exact Nat.le_succ_of_le (ih _)
    · split
      · exact Nat.le_succ_of_le (ih _)
      · split
        · exact Nat.le_succ_of_le (ih _)
        · exact Nat.le_refl _

namespace Flags

/-- The text after what does not count under these flags. -/
def skipSpace (flags : Flags) (cs : List Char) : Left cs :=
  if flags.spaced then ⟨afterSpace false cs, length_afterSpace false cs⟩
  else .all cs

def space (flags : Flags) : Scan Reason Unit := fun cs => .ok ((), flags.skipSpace cs)

/-- Takes the next character and the space after it. -/
def step (flags : Flags) : Scan Reason Unit := do
  Scan.skip 1
  flags.space

end Flags

/-- The characters with a property at the front of a text, past space between them and after
them, and the text after that. -/
def spacedRun (spaced : Bool) (p : Char → Bool) (inComment : Bool) :
    List Char → List Char × Nat
  | [] => ([], 0)
  | c :: rest =>
    if inComment then
      let (run, n) := spacedRun spaced p (c != '\n') rest
      (run, n + 1)
    else if spaced && Text.isBlank c then
      let (run, n) := spacedRun spaced p false rest
      (run, n + 1)
    else if spaced && c == '#' then
      let (run, n) := spacedRun spaced p true rest
      (run, n + 1)
    else if p c then
      let (run, n) := spacedRun spaced p false rest
      (c :: run, n + 1)
    else ([], 0)

namespace Flags

/-- Takes the characters with a property, and space among them. -/
def takeWhile (flags : Flags) (p : Char → Bool) : Scan Reason (List Char) := do
  let (run, count) := spacedRun flags.spaced p false (← Scan.ahead)
  Scan.skip count
  return run

/-- A character that stands for itself. -/
def literal (flags : Flags) (c : Char) : Regex :=
  let range := Range.ofChars c c
  match range.otherCase? with
  | some other => if flags.ignoreCase then .class (Class.ofRanges [range, other]) else .char c
  | none => .char c

def dot (flags : Flags) : Regex :=
  .class <|
    if flags.dotAll then [⟨0, lastPoint⟩]
    else if flags.crlf then
      Class.complement (Class.ofPairs [('\n', '\n'), ('\r', '\r')])
    else Class.complement (Class.ofPairs [('\n', '\n')])

def caret (flags : Flags) : Regex :=
  .anchor (if flags.multiLine then if flags.crlf then .crlfStart else .lineStart else .textStart)

def dollar (flags : Flags) : Regex :=
  .anchor (if flags.multiLine then if flags.crlf then .crlfEnd else .lineEnd else .textEnd)

end Flags

/-! ### Numbers and escapes -/

def isHexDigit (c : Char) : Bool :=
  c.isDigit || ('a' ≤ c && c ≤ 'f') || ('A' ≤ c && c ≤ 'F')

def hexDigit (c : Char) : Nat :=
  if c.isDigit then c.toNat - '0'.toNat
  else if 'a' ≤ c then c.toNat - 'a'.toNat + 10
  else c.toNat - 'A'.toNat + 10

/-- The character of a hexadecimal number, if it is one. -/
def charOfHex? (digits : List Char) : Option Char :=
  let n := digits.foldl (fun n c => 16 * n + hexDigit c) 0
  if n.isValidChar then some (Char.ofNat n) else none

def fixedHexDigits (flags : Flags) : Nat → Scan Reason (List Char)
  | 0 => return []
  | count + 1 => do
    match ← Scan.peek with
    | none => Scan.fail .fixedHexUnclosed
    | some c =>
      if isHexDigit c then
        flags.step
        return c :: (← fixedHexDigits flags count)
      else Scan.fail .fixedHexDigit

def bracedHexDigits (flags : Flags) : Scan Reason (List Char) := do
  flags.step
  let digits ← flags.takeWhile isHexDigit
  match ← Scan.peek with
  | none => Scan.fail .bracedHexUnclosed
  | some '\x7d' =>
    flags.step
    if digits.isEmpty then Scan.fail .bracedHexEmpty else return digits
  | some _ => Scan.fail .bracedHexDigit

/-- A character by its number, of so many digits or between braces. -/
def hexEscape (flags : Flags) (count : Nat) : Scan Reason Regex := do
  flags.space
  match ← Scan.peek with
  | none => Scan.fail .hexMissing
  | some '\x7b' =>
    match charOfHex? (← bracedHexDigits flags) with
    | some c => return flags.literal c
    | none => Scan.fail .bracedHexInvalid
  | some _ =>
    match charOfHex? (← fixedHexDigits flags count) with
    | some c => return flags.literal c
    | none => Scan.fail .fixedHexInvalid

def isBoundaryLetter (c : Char) : Bool := c.isAlpha || c == '-'

/-- The anchor after `\b`: a special boundary between braces, if braces with a letter follow. Other
braces are left to count the repetitions of the boundary. -/
def boundaryEscape (flags : Flags) : Scan Reason Anchor := do
  match ← Scan.ahead with
  | '\x7b' :: rest =>
    match (flags.skipSpace rest).1 with
    | [] => Scan.fail .boundaryMissing
    | c :: _ =>
      if isBoundaryLetter c then
        flags.step
        let name ← flags.takeWhile isBoundaryLetter
        match ← Scan.next with
        | some '\x7d' =>
          match String.ofList name with
          | "start" => return .wordStart
          | "end" => return .wordEnd
          | "start-half" => return .wordStartHalf
          | "end-half" => return .wordEndHalf
          | _ => Scan.fail .boundaryUnknown
        | _ => Scan.fail .boundaryUnclosed
      else return .boundary
  | _ => return .boundary

/-- ASCII characters other than letters, digits and angle brackets stand for themselves after a
backslash. -/
def isEscapable (c : Char) : Bool :=
  decide (c.toNat < 128) && !c.isAlphanum && c != '<' && c != '>'

/-- An escape, after its backslash. -/
def escape (flags : Flags) : Scan Reason Regex := do
  match ← Scan.next with
  | none => Scan.fail .escapeUnclosed
  | some c =>
    if c.isDigit then Scan.fail .backreference
    else if isEscapable c then return flags.literal c
    else
      match c with
      | 'p' => Scan.fail .unicodeClass
      | 'P' => Scan.fail .unicodeClass
      | 'x' => hexEscape flags 2
      | 'u' => hexEscape flags 4
      | 'U' => hexEscape flags 8
      | 'd' => return .class Class.digit
      | 's' => return .class Class.space
      | 'w' => return .class Class.word
      | 'D' => return .class (Class.complement Class.digit)
      | 'S' => return .class (Class.complement Class.space)
      | 'W' => return .class (Class.complement Class.word)
      | 'a' => return flags.literal '\x07'
      | 'f' => return flags.literal '\x0c'
      | 't' => return flags.literal '\t'
      | 'n' => return flags.literal '\n'
      | 'r' => return flags.literal '\r'
      | 'v' => return flags.literal '\x0b'
      | 'A' => return .anchor .textStart
      | 'z' => return .anchor .textEnd
      | 'b' => return .anchor (← boundaryEscape flags)
      | 'B' => return .anchor .noBoundary
      | '<' => return .anchor .wordStart
      | '>' => return .anchor .wordEnd
      | _ => Scan.fail .escapeUnknown

/-! ### Classes -/

/-- The ranges of an item between brackets. -/
def itemRanges : Regex → Scan Reason (List Range)
  | .char c => return [.ofChars c c]
  | .class set => return set
  | _ => Scan.fail .classItemInvalid

/-- The character of an item that ends a range. -/
def itemChar : Regex → Scan Reason Char
  | .char c => return c
  | _ => Scan.fail .classRangeItem

/-- An item of a class that starts with the character `c`, which is taken already. -/
def classItem (flags : Flags) (c : Char) : Scan Reason Regex :=
  if c = '\\' then escape flags else return .char c

/-- The first visible character. After a number sign blanks alone are passed over. -/
def visible? (inComment : Bool) : List Char → Option Char
  | [] => none
  | c :: rest =>
    if Text.isBlank c then visible? inComment rest
    else if !inComment && c == '#' then visible? true rest
    else some c

/-- A dash is followed by what makes it stand for itself. -/
def isLiteralDash (flags : Flags) (rest : List Char) : Bool :=
  let c := if flags.spaced then visible? false rest else rest.head?
  c == some ']' || c == some '-'

/-- One item of a class, or a range from one item to another. -/
def classRange (flags : Flags) (c : Char) : Scan Reason (List Range) := do
  let first ← classItem flags c
  flags.space
  match ← Scan.ahead with
  | [] => Scan.fail .classItemUnclosed
  | d :: rest =>
    if d != '-' || isLiteralDash flags rest then itemRanges first
    else
      flags.step
      match ← Scan.next with
      | none => Scan.fail .classDashUnclosed
      | some c =>
        let last ← classItem flags c
        let a ← itemChar first
        let b ← itemChar last
        if b < a then Scan.fail .classRangeReversed else return [.ofChars a b]

/-- A class with a name, after its opening bracket. -/
def namedClass : Scan Reason Class := do
  if ← Scan.word ":" then
    let negated ← Scan.word "^"
    let name ← Scan.takeWhile (· != ':')
    match Class.named? (String.ofList name) with
    | some set =>
      if ← Scan.word ":]" then return (if negated then set.complement else set)
      else Scan.fail .classNested
    | none => Scan.fail .classNested
  else Scan.fail .classNested

/-- The items of a class up to its closing bracket, after those in `ranges`. -/
def classItems (flags : Flags) (ranges : List Range) (cs : List Char) :
    Except Reason (List Range × Left cs) :=
  match flags.skipSpace cs with
  | ⟨[], _⟩ => .error .classUnclosed
  | ⟨c :: rest, h⟩ =>
    if c = ']' then .ok (ranges, ⟨rest, Nat.le_of_succ_le h⟩)
    else if c = '&' ∧ rest.head? = some '&' then .error .classIntersection
    else if c = '-' ∧ rest.head? = some '-' then .error .classDifference
    else if c = '~' ∧ rest.head? = some '~' then .error .classSymmetricDifference
    else
      match (if c = '[' then namedClass else classRange flags c) rest with
      | .error reason => .error reason
      | .ok (more, left) =>
        have shorter : left.1.length < cs.length :=
          Nat.lt_of_le_of_lt left.2 (Nat.lt_of_lt_of_le (Nat.lt_succ_self _) h)
        match classItems flags (ranges ++ more) left.1 with
        | .error reason => .error reason
        | .ok (all, last) =>
          .ok (all, ⟨last.1, Nat.le_trans last.2 (Nat.le_of_lt shorter)⟩)
termination_by cs.length

/-- Takes the dashes at the start of a class, which stand for themselves. -/
def leadingDashes (flags : Flags) : Scan Reason (List Range) := do
  let dashes ← flags.takeWhile (· == '-')
  if !dashes.isEmpty && (← Scan.peek).isNone then Scan.fail .classDashUnclosed
  else return dashes.map fun c => .ofChars c c

/-- A class, after its opening bracket. -/
def bracketClass (flags : Flags) : Scan Reason Regex := do
  flags.space
  match ← Scan.peek with
  | none => Scan.fail .classUnclosed
  | some c =>
    let negated := c == '^'
    if negated then flags.step
    if negated && (← Scan.peek).isNone then Scan.fail .classNegationUnclosed
    else
      let dashes ← leadingDashes flags
      let first ← do
        if dashes.isEmpty && (← Scan.peek) == some ']' then
          flags.step
          if (← Scan.peek).isNone then Scan.fail .classBracketUnclosed
          else pure [Range.ofChars ']' ']']
        else pure dashes
      let set := Class.ofRanges (← classItems flags first)
      let folded := if flags.ignoreCase then set.foldCase else set
      return .class (if negated then folded.complement else folded)

/-! ### Repetitions -/

/-- A decimal number of 32 bits, between blanks. -/
def decimal (flags : Flags) : Scan Reason Nat := do
  let _ ← Scan.takeWhile Text.isBlank
  let digits ← flags.takeWhile Char.isDigit
  let _ ← Scan.takeWhile Text.isBlank
  let n := digits.foldl (fun n c => 10 * n + (c.toNat - '0'.toNat)) 0
  if digits.isEmpty then Scan.fail .decimalMissing
  else if 1 <<< 32 ≤ n then Scan.fail .decimalInvalid
  else return n

/-- The mark that turns the preference of a repetition round. -/
def lazyMark : Scan Reason Unit := do
  if (← Scan.peek) == some '?' then Scan.skip 1

/-- The bounds of a repetition without a count. A lazy mark has to follow at once, for after space
a question mark repeats what is repeated already. -/
def uncountedBounds (least : Nat) (most : Option Nat) : Scan Reason (Nat × Option Nat) := do
  lazyMark
  return (least, most)

/-- The bounds of a counted repetition, after its opening brace. Space may stand before its lazy
mark. -/
def countBounds (flags : Flags) : Scan Reason (Nat × Option Nat) := do
  flags.space
  if (← Scan.peek).isNone then Scan.fail .countUnclosed
  else
    let least ← decimal flags
    let most ← do
      match ← Scan.peek with
      | none => Scan.fail .countLeastUnclosed
      | some ',' =>
        flags.step
        match ← Scan.peek with
        | none => Scan.fail .countCommaUnclosed
        | some '\x7d' => pure none
        | some _ =>
          let n ← decimal flags
          if (← Scan.peek).isNone then Scan.fail .countMostUnclosed else pure (some n)
      | some _ => pure (some least)
    if (← Scan.next) != some '\x7d' then Scan.fail .countInvalid
    else
      flags.space
      lazyMark
      if most.any (decide <| · < least) then Scan.fail .countReversed
      else return (least, most)

/-! ### Groups -/

def isNameChar (atStart : Bool) (c : Char) : Bool :=
  if atStart then c == '_' || Text.isAlphabetic c
  else c == '_' || c == '.' || c == '[' || c == ']' || Text.isAlphanumeric c

def isName : List Char → Bool
  | [] => true
  | c :: rest => isNameChar true c && rest.all (isNameChar false)

/-- The name of a group, up to its closing angle bracket. -/
def groupName (names : List String) : Scan Reason String := do
  if (← Scan.peek).isNone then Scan.fail .nameMissing
  else
    let name ← Scan.takeWhile (· != '>')
    if !isName name then Scan.fail .nameInvalid
    else if (← Scan.next).isNone then Scan.fail .nameUnclosed
    else if name.isEmpty then Scan.fail .nameEmpty
    else if names.contains (String.ofList name) then Scan.fail .duplicateName
    else return String.ofList name

/-- Sets one flag; two more are known and change nothing. -/
def setFlag? (flags : Flags) (on : Bool) : Char → Option Flags
  | 'i' => some { flags with ignoreCase := on }
  | 'm' => some { flags with multiLine := on }
  | 's' => some { flags with dotAll := on }
  | 'R' => some { flags with crlf := on }
  | 'x' => some { flags with spaced := on }
  | 'U' => some flags
  | 'u' => some flags
  | _ => none

/-- The flags of a directive up to a colon or a closing parenthesis, which stays. Flags in `seen`
came before; after a dash flags are cleared. -/
def directive (flags : Flags) (seen : List Char) (negated dangling : Bool) :
    (cs : List Char) → Except Reason (Flags × Left cs)
  | [] => .error .flagsUnclosed
  | c :: rest =>
    if c = ':' ∨ c = ')' then
      if dangling then .error .flagNegationDangling
      else .ok (flags, ⟨c :: rest, Nat.le_refl _⟩)
    else if c = '-' then
      if negated then .error .flagNegationRepeated
      else
        (directive flags seen true true rest).map fun (flags, left) =>
          (flags, ⟨left.1, Nat.le_succ_of_le left.2⟩)
    else
      match setFlag? flags (!negated) c with
      | none => .error .flagUnknown
      | some flags =>
        if seen.contains c then .error .flagDuplicate
        else
          (directive flags (c :: seen) negated false rest).map fun (flags, left) =>
            (flags, ⟨left.1, Nat.le_succ_of_le left.2⟩)

/-- What an opening parenthesis starts. -/
inductive Opening where
  /-- Flags for the rest of the enclosing group. -/
  | flags (flags : Flags)
  /-- A group without a number, with the flags inside it. -/
  | group (flags : Flags)
  /-- A group with a number, and perhaps a name. -/
  | capture (name : Option String)

def startsLookAround (cs : List Char) : Bool :=
  ["?=", "?!", "?<=", "?<!"].any fun (mark : String) => mark.toList.isPrefixOf cs

/-- Reads what follows an opening parenthesis. -/
def opening (flags : Flags) (names : List String) : Scan Reason Opening := do
  flags.space
  if startsLookAround (← Scan.ahead) then Scan.fail .lookAround
  else if ← Scan.word "?P<" then return .capture (some (← groupName names))
  else if ← Scan.word "?<" then return .capture (some (← groupName names))
  else if ← Scan.word "?" then
    match ← Scan.peek with
    | none => Scan.fail .questionUnclosed
    | some ')' => Scan.fail .flagsEmpty
    | some _ =>
      let inner ← directive flags [] false false
      if (← Scan.next) == some ')' then return .flags inner
      else return .group inner
  else return .capture none

/-! ### Patterns -/

/-- The branches and parts read so far at one level, the latest first. -/
structure Level where
  branches : List Regex := []
  parts : List Regex := []

namespace Level

def add (level : Level) (part : Regex) : Level := { level with parts := part :: level.parts }

def branch (level : Level) : Level := ⟨ofParts level.parts.reverse :: level.branches, []⟩

def finish (level : Level) : Regex := ofBranches level.branch.branches.reverse

end Level

/-- A level around an open group, and what returns when the group closes. -/
structure Frame where
  outer : Level
  flags : Flags
  /-- The number and the name of the group, if it has a number. -/
  capture : Option Capture

structure State where
  flags : Flags := {}
  /-- The groups with a number that were opened so far. -/
  captures : Nat := 0
  names : List String := []
  frames : List Frame := []
  level : Level := {}

namespace State

def add (state : State) (part : Regex) : State := { state with level := state.level.add part }

/-- Repeats the last part. -/
def repeatLast (state : State) (missing : Reason) (bounds : Scan Reason (Nat × Option Nat)) :
    Scan Reason State :=
  match state.level.parts with
  | [] => Scan.fail missing
  | part :: parts => do
    let (least, most) ← bounds
    return { state with level.parts := repetition least most part :: parts }

/-- Starts a group with the given flags inside it. -/
def enter (state : State) (flags : Flags) (capture : Option Capture) : Scan Reason State :=
  if nestingLimit < state.frames.length + 1 then Scan.fail .tooMuchNesting
  else
    return { state with
      flags := flags
      frames := ⟨state.level, state.flags, capture⟩ :: state.frames
      level := {} }

def openGroup (state : State) : Scan Reason State := do
  match ← opening state.flags state.names with
  | .flags flags => return { state with flags := flags }
  | .group flags => state.enter flags none
  | .capture name =>
    let number := state.captures + 1
    let state := { state with captures := number, names := name.toList ++ state.names }
    state.enter state.flags (some ⟨number, name⟩)

def closeGroup (state : State) : Scan Reason State :=
  match state.frames with
  | [] => Scan.fail .groupUnopened
  | frame :: frames =>
    let body := state.level.finish
    let part := match frame.capture with
      | some capture => .group capture body
      | none => body
    return { state with
      flags := frame.flags
      frames := frames
      level := frame.outer.add part }

/-- Reads one item that starts with the character `c`, which is taken already. -/
def item (state : State) (c : Char) : Scan Reason State :=
  match c with
  | '(' => state.openGroup
  | ')' => state.closeGroup
  | '|' => return { state with level := state.level.branch }
  | '[' => return state.add (← bracketClass state.flags)
  | '?' => state.repeatLast .nothingToRepeat (uncountedBounds 0 (some 1))
  | '*' => state.repeatLast .nothingToRepeat (uncountedBounds 0 none)
  | '+' => state.repeatLast .nothingToRepeat (uncountedBounds 1 none)
  | '\x7b' => state.repeatLast .nothingToCount (countBounds state.flags)
  | '\\' => return state.add (← escape state.flags)
  | '.' => return state.add state.flags.dot
  | '^' => return state.add state.flags.caret
  | '$' => return state.add state.flags.dollar
  | c => return state.add (state.flags.literal c)

def finish (state : State) : Except Reason Regex :=
  if state.frames.isEmpty then
    let regex := state.level.finish
    if nestingLimit < regex.depth then .error .tooMuchNesting
    else if sizeLimit < regex.programSize then .error .tooLarge
    else .ok regex
  else .error .groupUnclosed

/-- Reads items to the end of the text. -/
def run (state : State) (cs : List Char) : Except Reason Regex :=
  match state.flags.skipSpace cs with
  | ⟨[], _⟩ => state.finish
  | ⟨c :: rest, h⟩ =>
    match state.item c rest with
    | .error reason => .error reason
    | .ok (state, left) =>
      have : left.1.length < cs.length :=
        Nat.lt_of_le_of_lt left.2 (Nat.lt_of_lt_of_le (Nat.lt_succ_self _) h)
      state.run left.1
termination_by cs.length

end State

/-- The regular expression that a text stands for. -/
def parse (source : String) : Except Reason Regex := State.run {} source.toList

end RecordCheck.Regex
