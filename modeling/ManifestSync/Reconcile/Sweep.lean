import ManifestSync.Reconcile.Attempt

namespace ManifestSync

structure SweepReport where
  created : Nat
  patched : Nat
  unchanged : Nat
  failed : Nat
  needsReload : Bool
  /-- The deadline passed before every manifest was attempted and answered. -/
  interrupted : Bool
  lastError? : Option ApplyError
  deriving DecidableEq, Repr

namespace SweepReport

def blank (interrupted : Bool) : SweepReport := ⟨0, 0, 0, 0, false, interrupted, none⟩

/-- The report with a success before all that it tells of. -/
def afterSuccess (r : SweepReport) : Outcome → SweepReport
  | .created => { r with created := r.created + 1 }
  | .patched => { r with patched := r.patched + 1 }
  | .unchanged => { r with unchanged := r.unchanged + 1 }

/-- The report with a failure before all that it tells of. -/
def afterFailure (r : SweepReport) (e : ApplyError) : SweepReport :=
  { r with
    failed := r.failed + 1
    needsReload := e.isTypeNotResolved || r.needsReload
    lastError? := r.lastError?.or (some e) }

end SweepReport

structure Sweep (σ : Type) where
  report : SweepReport
  remaining : List Manifest
  attempts : List Attempt
  stage : Stage σ

variable {σ : Type}

/-- Sweeps the manifests. Those that fail or are not attempted remain, in order. -/
def sweep (services : Services σ) (options : Options) (resolver : Resolver) (deadline : Nat) :
    List Manifest → Stage σ → Sweep σ
  | [], s => ⟨.blank false, [], [], s⟩
  | m :: rest, s =>
    if deadline ≤ s.moment.now then ⟨.blank true, m :: rest, [], s⟩
    else
      let (a, s') := s.attempt services options resolver deadline m
      match a.result with
      | .ok done =>
        let later := sweep services options resolver deadline rest s'
        { later with
          report := later.report.afterSuccess done.outcome
          attempts := a :: later.attempts }
      | .error e =>
        if e.isDeadlineExceeded then ⟨(SweepReport.blank true).afterFailure e, m :: rest, [a], s'⟩
        else
          let later := sweep services options resolver deadline rest s'
          { later with
            report := later.report.afterFailure e
            remaining := m :: later.remaining
            attempts := a :: later.attempts }

end ManifestSync
