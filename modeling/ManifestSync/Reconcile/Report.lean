import ManifestSync.Reconcile.Apply

namespace ManifestSync

inductive Report where
  | loaded (count : Nat) (directory : String)
  | applied (outcome : Outcome) (path target : String)
  | failed (error : ApplyError)
  | refreshFailed (error : StoreError)
  deriving DecidableEq, Repr

def Report.line : Report → String
  | .loaded count directory => s!"Loaded {count} manifest(s) from {directory}"
  | .applied .created path target => s!"Created {Text.quoted path} {target}"
  | .applied .patched path target => s!"Patched {Text.quoted path} {target}"
  | .applied .unchanged path target => s!"Skipped {Text.quoted path} {target} as it already exists"
  | .failed error => error.message
  | .refreshFailed error => s!"unable to refresh discovery information: {error.message}"

/-- Where reports go. One that accepts nothing loses them without a word. -/
structure Sink where
  accepts : Bool
  /-- The reports so far, the last one first. -/
  log : List Report

namespace Sink

def reports (s : Sink) : List Report := s.log.reverse

def write (verbose : Bool) (r : Report) (s : Sink) : Sink :=
  if verbose && s.accepts then { s with log := r :: s.log } else s

theorem reports_write (verbose : Bool) (r : Report) (s : Sink) :
    (s.write verbose r).reports = s.reports ++ if verbose && s.accepts then [r] else [] := by
  unfold write
  split <;> simp_all [reports]

def text (s : Sink) : String := String.join (s.reports.map (·.line ++ "\n"))

end Sink

end ManifestSync
