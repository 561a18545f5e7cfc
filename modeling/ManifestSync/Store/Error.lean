import ManifestSync.Http.Failure

namespace ManifestSync

inductive StoreError where
  | notFound (what : String)
  | alreadyExists (what : String)
  | rejected (code : Nat) (reason : String)
  | client (failure : Http.ClientFailure)
  | serialization (reason : String)
  | discovery (reason : String)
  deriving DecidableEq, Repr

namespace StoreError

def message : StoreError → String
  | .notFound what => "Not found: " ++ what
  | .alreadyExists what => "Already exists: " ++ what
  | .rejected code reason => s!"API error ({code}): {reason}"
  | .client failure => "Kubernetes client error: " ++ failure.message
  | .serialization reason => "Serialization error: " ++ reason
  | .discovery reason => "Discovery failed: " ++ reason

def isNotFound : StoreError → Bool
  | .notFound _ => true
  | _ => false

end StoreError

end ManifestSync
