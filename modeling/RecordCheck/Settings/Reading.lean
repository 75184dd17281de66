import RecordCheck.Settings.Basic
import RecordCheck.Toml.Parser

/-!
Settings from documents. A setting that is not given has its usual value, and other keys are
passed over.
-/

namespace RecordCheck

inductive SettingsError where
  /-- The document cannot be read. -/
  | unreadable
  | malformed (fault : Toml.Fault)
  /-- A setting with a value that it cannot have. -/
  | wrongType (key : String)
  /-- A depth of zero. -/
  | noDepth
  deriving DecidableEq, Repr, Inhabited

namespace SettingsError

def message : SettingsError → String
  | unreadable => "Unreadable configuration"
  | malformed _ => "Malformed configuration"
  | wrongType key => "Wrong type: " ++ key
  | noDepth => "Invalid configuration: max_depth must be at least 1"

end SettingsError

namespace Settings

def nat? : Toml.Value → Option Nat
  | .integer i => if 0 ≤ i.toInt then some i.toInt.toNat else none
  | _ => none

def bool? : Toml.Value → Option Bool
  | .boolean b => some b
  | _ => none

/-- A setting of a document, or its usual value where there is none. -/
def setting {α : Type} (entries : Toml.Entries) (key : String) (read : Toml.Value → Option α)
    (usual : α) : Except SettingsError α :=
  match Fields.find? key entries with
  | none => .ok usual
  | some v =>
    match read v with
    | some a => .ok a
    | none => .error (.wrongType key)

def ofEntries (entries : Toml.Entries) : Except SettingsError Settings := do
  let usual : Settings := {}
  let maxDepth ← setting entries "max_depth" nat? usual.maxDepth
  let parallelBatches ← setting entries "parallel_batches" bool? usual.parallelBatches
  let includeExpressions ← setting entries "include_expressions" bool? usual.includeExpressions
  if maxDepth = 0 then throw .noDepth
  return ⟨maxDepth, parallelBatches, includeExpressions⟩

/-- The settings in the text of a document. -/
def ofToml (text : String) : Except SettingsError Settings :=
  match Toml.parse text with
  | .ok entries => ofEntries entries
  | .error fault => .error (.malformed fault)

/-- The settings of a file, given its contents if it can be read. -/
def ofFile : Option String → Except SettingsError Settings
  | some text => ofToml text
  | none => .error .unreadable

end Settings

end RecordCheck
