import ManifestSync.Files.Path
import ManifestSync.Reconcile.Report

namespace ManifestSync

structure Options where
  update : Bool
  verbose : Bool
  filters : List (Files.PathText → Bool)
  retryInterval : Nat

structure Stage (σ : Type) where
  moment : Moment σ
  sink : Sink

/-- What success means: where the object is and what was done to have it there. -/
structure Applied where
  endpoint : Endpoint
  outcome : Outcome
  deriving DecidableEq, Repr

structure Attempt where
  manifest : Manifest
  exchanges : List Exchange
  result : Except ApplyError Applied

def Attempt.report (a : Attempt) : Report :=
  match a.result with
  | .ok done => .applied done.outcome a.manifest.path (a.manifest.target done.endpoint)
  | .error e => .failed e

variable {σ : Type}

def Manifest.attempt (services : Services σ) (update : Bool) (resolver : Resolver) (deadline : Nat)
    (m : Manifest) (moment : Moment σ) : Attempt × Moment σ :=
  match resolver.resolve m.kind with
  | .error cause => (⟨m, [], .error (.typeNotResolved m.path cause)⟩, moment)
  | .ok e =>
    let held := (m.apply update e).hold services deadline moment
    let result := match held.result? with
      | some (.ok outcome) => .ok ⟨e, outcome⟩
      | some (.error error) => .error error
      | none => .error (.deadlineExceeded m.path)
    (⟨m, held.exchanges, result⟩, held.moment)

def Stage.attempt (services : Services σ) (options : Options) (resolver : Resolver) (deadline : Nat)
    (m : Manifest) (s : Stage σ) : Attempt × Stage σ :=
  let (a, moment) := m.attempt services options.update resolver deadline s.moment
  (a, ⟨moment, s.sink.write options.verbose a.report⟩)

end ManifestSync
