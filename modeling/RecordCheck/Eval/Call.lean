import RecordCheck.Eval.Operators
import RecordCheck.Expr.Intrinsic
import RecordCheck.Text.Blank

/-!
Calls of functions. A piped value is the first argument, and the name of a function appears in
messages as it was written.
-/

namespace RecordCheck.Eval

/-- The items of an argument that has to be a list. -/
def listArgument (name : String) : Value → Result (List Value)
  | .list items => .ok items
  | v => typeError (.argument name "a list" v.typeName)

/-- A function on texts. -/
def mapText (name : String) (f : String → String) (v : Value) : Result Value :=
  match v with
  | .null => .ok .null
  | v =>
    match v.text? with
    | some s => .ok (.string (f s))
    | none => typeError (.argument name "a string" v.typeName)

/-- A question about two texts. -/
def testTexts (name : String) (f : String → String → Bool) (v w : Value) : Result Value :=
  match v with
  | .null => .ok .null
  | v =>
    match v.text?, w.text? with
    | some s, some t => .ok (.bool (f s t))
    | _, _ => typeError (.argumentPair name "strings" v.typeName w.typeName)

def length (v : Value) : Result Value :=
  match v with
  | .null => .ok .null
  | v =>
    match v.length? with
    | some n => .ok (.int (Int64.ofNat n))
    | none => typeError (.length v.typeName)

/-- Whether the pattern `w` occurs in the text `v`. -/
def regexMatch (v w : Value) : Result Value :=
  match w.text? with
  | none => typeError (.missing "regex_match" "a string pattern")
  | some source =>
    match Pattern.ofSource source with
    | .error reason => .error (.invalidRegex source reason)
    | .ok pattern =>
      match v with
      | .null => .ok .null
      | v =>
        match v.text? with
        | some s => .ok (.bool (pattern.occursIn s))
        | none => typeError (.argument "regex_match" "a string" v.typeName)

/-- Keeps each item that equals none kept before it. -/
def uniqueAfter (kept : List Value) : List Value → List Value
  | [] => kept.reverse
  | v :: rest =>
    if kept.reverse.any fun k => equal k v then uniqueAfter kept rest
    else uniqueAfter (v :: kept) rest

def unique (items : List Value) : List Value := uniqueAfter [] items

def pluck (name : String) (v w : Value) : Result Value := do
  let items ← listArgument name v
  match w.text? with
  | none => typeError (.missing name "a field name")
  | some field => return .list (← items.mapM fun item => fieldOf item field)

/-- Adds an item to a total. -/
def sumStep (total item : Value) : Result Value :=
  match total, item with
  | .int a, .int b => fit (a.toInt + b.toInt)
  | total, item =>
    match total.float?, item.float? with
    | some x, some y => .ok (.float (x.add y))
    | _, _ => typeError (.argument "sum" "numbers" item.typeName)

def sum (items : List Value) : Result Value := items.foldlM sumStep (.int 0)

/-- The better of the best item so far and another: one that stands to it in the order `keep`. -/
def better (name : String) (keep : Ordering) (best item : Value) : Result Value :=
  match order? item best with
  | some o => .ok (if o = keep then item else best)
  | none => typeError (.unordered name item.typeName best.typeName)

/-- The first of the least or greatest items, null if there is none. -/
def extreme (name : String) (keep : Ordering) : List Value → Result Value
  | [] => .ok .null
  | v :: rest => rest.foldlM (better name keep) v

def abs : Value → Result Value
  | .null => .ok .null
  | .int i => fit i.toInt.natAbs
  | .float x => .ok (.float x.abs)
  | v => typeError (.argument "abs" "a number" v.typeName)

/-- Powers of ten beyond these are taken for them. -/
def mostDigits : Int := 308

/-- A number with so many places kept. The number is scaled, rounded and scaled back, as a double
at every step. -/
def roundTo (x : Double) (digits : Int) : Double :=
  let scale := (Double.ofInt 10).powInt (max (-mostDigits) (min digits mostDigits))
  ((x.mul scale).roundAway).div scale

def round (v : Value) : Result Value :=
  match v with
  | .null => .ok .null
  | .int i => .ok (.int i)
  | .float x => .ok (.float x.roundAway)
  | v => typeError (.argument "round" "a number" v.typeName)

def roundPlaces (v digits : Value) : Result Value :=
  match digits with
  | .int d =>
    match v with
    | .null => .ok .null
    | v =>
      match v.float? with
      | some x => .ok (.float (roundTo x d.toInt))
      | none => typeError (.argument "round" "a number" v.typeName)
  | digits => typeError (.argument "round" "integer digits" digits.typeName)

def keys : Value → Result Value
  | .map entries => .ok (.list ((Fields.names entries).map .string))
  | .object _ fields => .ok (.list ((Fields.names fields).map .string))
  | v => typeError (.argument "keys" "a map or object" v.typeName)

def values : Value → Result Value
  | .map entries => .ok (.list (Fields.values entries))
  | .object _ fields => .ok (.list (Fields.values fields))
  | v => typeError (.argument "values" "a map or object" v.typeName)

/-- An item or character at one end, null if there is none. -/
def endOf (name : String) (pick : {α : Type} → List α → Option α) : Value → Result Value
  | .null => .ok .null
  | .list items => .ok ((pick items).getD .null)
  | .string s => .ok (((pick s.toList).map fun c => .string c.toString).getD .null)
  | v => typeError (.argument name "a list or string" v.typeName)

/-- Applies a function to arguments. `name` is the name that it was called by. -/
def apply (name : String) : Intrinsic → List Value → Result Value
  | .length, [v] => length v
  | .lower, [v] => mapText name Text.lower v
  | .upper, [v] => mapText name Text.upper v
  | .trim, [v] => mapText name (fun s => String.ofList (Text.trim s.toList)) v
  | .unique, [v] => (listArgument name v).map fun items => .list (unique items)
  | .sum, [v] => (listArgument name v).bind sum
  | .abs, [v] => abs v
  | .keys, [v] => keys v
  | .values, [v] => values v
  | .first, [v] => endOf name List.head? v
  | .last, [v] => endOf name List.getLast? v
  | .isNull, [v] => .ok (.bool v.isNull)
  | .contains, [v, w] => membership w v
  | .startsWith, [v, w] => testTexts name Text.startsWith v w
  | .endsWith, [v, w] => testTexts name Text.endsWith v w
  | .regexMatch, [v, w] => regexMatch v w
  | .pluck, [v, w] => pluck name v w
  | .round, [v] => round v
  | .round, [v, w] => roundPlaces v w
  | .min, [v] => (listArgument name v).bind (extreme name .lt)
  | .min, v :: w :: rest => extreme name .lt (v :: w :: rest)
  | .max, [v] => (listArgument name v).bind (extreme name .gt)
  | .max, v :: w :: rest => extreme name .gt (v :: w :: rest)
  | f, arguments => .error (.arity name f.arity.text arguments.length)

/-- Calls the function with a name. -/
def call (name : String) (arguments : List Value) : Result Value :=
  match Intrinsic.ofName? name with
  | some f => apply name f arguments
  | none => .error (.unknownFunction name)

end RecordCheck.Eval
