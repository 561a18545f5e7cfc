import ManifestSync.Manifest.Load
import ManifestSync.Reconcile.Run

namespace ManifestSync

variable {σ : Type}

/-- Loads the manifests of a directory and runs on them for at most the given time, with a mapping
of its own. Nothing is asked of any service if loading fails. -/
def ensure (services : Services σ) (options : Options) (decode : Decoder) (root : Files.Node)
    (directory : Files.PathText) (timeout : Nat) (stage : Stage σ) :
    Except LoadError (RunRecord σ) := do
  let manifests ← load decode options.filters root directory
  let told := stage.sink.write options.verbose (.loaded manifests.length (Files.shown directory))
  let deadline := stage.moment.now + timeout
  pure (run services options deadline manifests .unloaded { stage with sink := told })

end ManifestSync
