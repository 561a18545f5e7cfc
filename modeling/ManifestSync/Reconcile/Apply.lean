import ManifestSync.Manifest.Basic
import ManifestSync.Manifest.Update
import ManifestSync.Reconcile.Dialogue
import ManifestSync.Resolver

namespace ManifestSync

inductive Outcome where
  | created
  | unchanged
  | patched
  deriving DecidableEq, Repr

inductive ApplyError where
  | typeNotResolved (path : String) (cause : NoMatch)
  | requestFailed (verb : Verb) (target : String) (cause : StoreError)
  | deadlineExceeded (path : String)
  deriving DecidableEq, Repr

def Verb.word : Verb → String
  | .get => "get"
  | .create => "create"
  | .patch => "patch"

namespace ApplyError

def message : ApplyError → String
  | .typeNotResolved path cause =>
    s!"unable to get REST mapping for {Text.quoted path}: {cause.message}"
  | .requestFailed verb target cause => s!"failed to {verb.word} {target}: {cause.message}"
  | .deadlineExceeded path => s!"deadline exceeded while applying {Text.quoted path}"

def isTypeNotResolved : ApplyError → Bool
  | .typeNotResolved .. => true
  | _ => false

def isDeadlineExceeded : ApplyError → Bool
  | .deadlineExceeded _ => true
  | _ => false

end ApplyError

/-- Ensures that the manifest's object is in the collection. It is created if it is missing, and
patched if updates are on and it differs, so that at most one request writes. -/
def Manifest.apply (update : Bool) (m : Manifest) (e : Endpoint) :
    Dialogue (Except ApplyError Outcome) :=
  .ask (.get e m.inNamespace? m.name) fun
    | .ok live =>
      match if update then updatePatch m.object live else none with
      | none => .done (.ok .unchanged)
      | some patch =>
        .ask (.patch e m.inNamespace? m.name patch) fun
          | .ok _ => .done (.ok .patched)
          | .error cause => .done (.error (.requestFailed .patch (m.target e) cause))
    | .error (.notFound _) =>
      .ask (.create e m.inNamespace? m.object) fun
        | .ok _ => .done (.ok .created)
        | .error cause => .done (.error (.requestFailed .create (m.target e) cause))
    | .error cause => .done (.error (.requestFailed .get (m.target e) cause))

end ManifestSync
