import ManifestSync.Files.Path
import ManifestSync.Reconcile.Attempt
import ManifestSync.Span
import ManifestSync.Text.Blank
import ManifestSync.Text.Quoted

namespace ManifestSync

structure Settings where
  directory : String
  nameStart? : Option String
  update : Bool
  verbose : Bool
  timeoutSecs : Nat
  retryIntervalMs : Nat
  deriving DecidableEq, Repr

/-- Why settings are not valid. Values are shown trimmed. -/
inductive SettingsError where
  | noDirectory
  | notBoolean (key : String) (value : String)
  | notNumber (key : String) (value : String)
  deriving DecidableEq, Repr

def SettingsError.message : SettingsError → String
  | .noDirectory => "Invalid configuration: MANIFEST_DIR environment variable is required"
  | .notBoolean key value =>
    s!"Invalid configuration: {key} must be a boolean, got {Text.quoted value}"
  | .notNumber key value =>
    s!"Invalid configuration: {key} must be a non-negative integer, got {Text.quoted value}"

abbrev Lookup := String → Option String

namespace Settings

def boolean? (cs : List Char) : Option Bool :=
  if cs.map Char.toLower = ['t', 'r', 'u', 'e'] ∨ cs = ['1'] then some true
  else if cs.map Char.toLower = ['f', 'a', 'l', 's', 'e'] ∨ cs = ['0'] then some false
  else none

def digitsFrom? : Nat → List Char → Option Nat
  | n, [] => some n
  | n, c :: r => if c.isDigit then digitsFrom? (10 * n + (c.toNat - '0'.toNat)) r else none

def numberBound : Nat := 0x10000000000000000

def number? (cs : List Char) : Option Nat :=
  let digits := match cs with
    | '+' :: r => r
    | _ => cs
  if digits.isEmpty then none else (digitsFrom? 0 digits).filter (· < numberBound)

/-- The value of a variable: the default if it is unset or blank, else what its trimmed text
means. -/
def value {α : Type} (meaning? : List Char → Option α) (fault : String → SettingsError)
    (default : α) (text? : Option String) : Except SettingsError α :=
  match text?.map (Text.trimBlank ·.toList) with
  | none | some [] => .ok default
  | some cs =>
    match meaning? cs with
    | some a => .ok a
    | none => .error (fault (String.ofList cs))

def boolean (lookup : Lookup) (key : String) (default : Bool) : Except SettingsError Bool :=
  value boolean? (.notBoolean key) default (lookup key)

def number (lookup : Lookup) (key : String) (default : Nat) : Except SettingsError Nat :=
  value number? (.notNumber key) default (lookup key)

/-- The directory, which must not be blank and is not trimmed. -/
def directoryOf (lookup : Lookup) : Except SettingsError String :=
  match (lookup "MANIFEST_DIR").filter (!·.toList.all Text.isBlank) with
  | some directory => .ok directory
  | none => .error .noDirectory

def read (lookup : Lookup) : Except SettingsError Settings := do
  let directory ← directoryOf lookup
  let update ← boolean lookup "APPLY_UPDATE" false
  let verbose ← boolean lookup "APPLY_VERBOSE" true
  let timeoutSecs ← number lookup "APPLY_TIMEOUT_SECS" 300
  let retryIntervalMs ← number lookup "APPLY_RETRY_INTERVAL_MS" 200
  pure {
    directory, update, verbose, timeoutSecs, retryIntervalMs
    nameStart? := (lookup "MANIFEST_PREFIX").filter (· ≠ "") }

def keys : List String :=
  ["MANIFEST_DIR", "MANIFEST_PREFIX", "APPLY_UPDATE", "APPLY_VERBOSE", "APPLY_TIMEOUT_SECS",
    "APPLY_RETRY_INTERVAL_MS"]

def announcement (s : Settings) : List String :=
  ["Configuration:",
    s!"  Manifest dir: {s.directory}",
    "  Prefix filter: " ++ s.nameStart?.getD "none",
    s!"  Update existing: {s.update}",
    s!"  Timeout: {Span.text (1000 * s.timeoutSecs)}"]

def options (s : Settings) : Options where
  update := s.update
  verbose := s.verbose
  filters := s.nameStart?.toList.map Files.nameBeginsWith
  retryInterval := s.retryIntervalMs

end Settings

end ManifestSync
