import ManifestSync.Files.Walk
import ManifestSync.Manifest.Basic

namespace ManifestSync

inductive LoadError where
  | directory (path : Files.PathText) (fault : Files.Fault)
  | unreadable (path : Files.PathText) (fault : Files.Fault)
  | notText (path : Files.PathText)
  | undecodable (path : Files.PathText)
  | incomplete (path : String) (field : RequiredField)
  deriving DecidableEq, Repr

def RequiredField.missingMessage (path : String) (field : RequiredField) : String :=
  s!"{path} is missing required field {field.display}"

def LoadError.message : LoadError → String
  | .directory path fault =>
    let shown := Files.shown path
    s!"failed to read {shown}: IO error for operation on {shown}: {fault.message}"
  | .unreadable path fault => s!"failed to read {Files.shown path}: {fault.message}"
  | .notText path => s!"failed to read {Files.shown path}: stream did not contain valid UTF-8"
  | .undecodable path => s!"failed to decode {Files.shown path}"
  | .incomplete path field => field.missingMessage path

/-- Turns the text of a file into the tree that it describes. -/
abbrev Decoder := String → Option Tree

def Manifest.ofContent (decode : Decoder) (directory : Files.PathText) (names : List Files.Name)
    (content : List UInt8) : Except LoadError Manifest :=
  match Text.Utf8.decode content with
  | .error _ => .error (.notText (Files.extend directory names))
  | .ok text =>
    match decode text with
    | none => .error (.undecodable (Files.extend directory names))
    | some object =>
      let relative := Files.shown (Files.joined names)
      (Manifest.ofTree relative object).mapError (.incomplete relative)

def Manifest.ofFile (decode : Decoder) (disk : Files.Disk) (directory : Files.PathText)
    (names : List Files.Name) : Except LoadError Manifest :=
  match disk.read (Files.extend directory names) with
  | .error fault => .error (.unreadable (Files.extend directory names) fault)
  | .ok content => Manifest.ofContent decode directory names content

/-- The manifests below a directory of a disk, in the order of their paths. Files that some filter
does not accept are left out; the first of the others that is no manifest ends the loading. -/
def loadFrom (decode : Decoder) (filters : List (Files.PathText → Bool)) (disk : Files.Disk)
    (directory : Files.PathText) : Except LoadError (List Manifest) := do
  let files ← (disk.filesBelow directory).mapError fun (path, fault) => .directory path fault
  let accepted := files.filter fun names => filters.all (· (Files.extend directory names))
  accepted.mapM (Manifest.ofFile decode disk directory)

def load (decode : Decoder) (filters : List (Files.PathText → Bool)) (root : Files.Node)
    (directory : Files.PathText) : Except LoadError (List Manifest) :=
  loadFrom decode filters (.ofHome root) directory

end ManifestSync
