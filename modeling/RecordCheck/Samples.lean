import RecordCheck.Schema.Builder
import RecordCheck.Value.Basic

/-!
Small schemas, and values for them.
-/

namespace RecordCheck.Samples

def assert (message source : String) : ConstraintDecl := ⟨.assert, message, source, none⟩

def check (message source : String) : ConstraintDecl := ⟨.check, message, source, none⟩

/-- One number between bounds. -/
def foo : List Declaration :=
  [.class ⟨"Foo", [⟨"bar", .int, [assert "bar_range" "0 < this < 10"]⟩], []⟩]

def fooValue (bar : Int64) : Value := .object "Foo" [("bar", .int bar)]

/-- A quote and its source. An empty quote is recorded; a malformed link is refused. -/
def citation : List Declaration :=
  [.class ⟨"Citation",
    [⟨"quote", .string, [check "exact_citation_not_found" "this|length > 0"]⟩,
     ⟨"website_link", .string, [assert "invalid_link" "this matches '^https?://'"]⟩], []⟩]

def citationValue (quote link : String) : Value :=
  .object "Citation" [("quote", .string quote), ("website_link", .string link)]

/-- Items whose numbers differ. -/
def catalog : List Declaration :=
  [.class ⟨"Item",
    [⟨"id", .int, [assert "positive_id" "this > 0"]⟩,
     ⟨"name", .string, [assert "has_name" "this|length > 0"]⟩], []⟩,
   .class ⟨"Catalog", [⟨"items", .list (.class "Item"), []⟩],
    [assert "unique_ids" "this.items|pluck('id')|unique|length == this.items|length"]⟩]

def itemValue (id : Int64) (name : String) : Value :=
  .object "Item" [("id", .int id), ("name", .string name)]

def catalogValue (items : List Value) : Value := .object "Catalog" [("items", .list items)]

/-- The first field is divided by the second, which is therefore checked before it. -/
def ratio : List Declaration :=
  [.class ⟨"Ratio",
    [⟨"ratio", .int, [assert "ratio_bounded" "this / block.divisor < 100"]⟩,
     ⟨"divisor", .int, [assert "non_zero" "this != 0"]⟩], []⟩]

def ratioValue (ratio divisor : Int64) : Value :=
  .object "Ratio" [("ratio", .int ratio), ("divisor", .int divisor)]

/-- Two assertions on one field, of which the second needs the first, and three checks on
another. -/
def chain : List Declaration :=
  [.class ⟨"Chain",
    [⟨"a", .int, [assert "first" "this != 0", assert "second" "10 / this > 1"]⟩,
     ⟨"b", .int,
      [check "positive" "this > 0", check "even" "this % 2 == 0", check "small" "this < 100"]⟩],
    []⟩]

def chainValue (a b : Int64) : Value := .object "Chain" [("a", .int a), ("b", .int b)]

/-- A size that is a number or a label, a fit, perhaps a note, and a check across fields. -/
def shirt : List Declaration :=
  [.enum ⟨"Fit", ["SLIM", "REGULAR"]⟩,
   .class ⟨"Shirt",
    [⟨"size", .union [.int, .string],
      [⟨.assert, "size_range", "30 <= this <= 60", some .int⟩,
       ⟨.check, "even_size", "this % 2 == 0", some .int⟩,
       ⟨.check, "known_label", "this in ['S', 'M', 'L']", some .string⟩]⟩,
     ⟨"fit", .enum "Fit", []⟩,
     ⟨"note", .optional .string,
      [check "short_note" "this == null or this|length <= 20"]⟩],
    [check "slim_small" "this.fit != 'SLIM' or this.size in ['S', 'M']"]⟩]

def shirtValue (size : Value) (fit : String) (note : Option String) : Value :=
  .object "Shirt"
    [("size", size), ("fit", .member "Fit" fit), ("note", (note.map Value.string).getD .null)]

/-- The declarations of the schema with a name. -/
def declarations? : String → Option (List Declaration)
  | "foo" => some foo
  | "citation" => some citation
  | "catalog" => some catalog
  | "ratio" => some ratio
  | "chain" => some chain
  | "shirt" => some shirt
  | _ => none

end RecordCheck.Samples
