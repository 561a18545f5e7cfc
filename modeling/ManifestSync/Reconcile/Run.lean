import ManifestSync.Reconcile.Sweep

namespace ManifestSync

inductive Refresh where
  | loaded (kinds : Nat)
  | failed (error : StoreError)
  | cutOff
  deriving DecidableEq, Repr

structure Round where
  started : Nat
  refresh? : Option Refresh
  resolver : Resolver
  /-- The report and the attempts of the sweep; none if the mapping was due and not rebuilt. -/
  sweep? : Option (SweepReport × List Attempt)

structure RunSummary where
  rounds : Nat
  reloads : Nat
  created : Nat
  patched : Nat
  unchanged : Nat
  deriving DecidableEq, Repr

namespace RunSummary

def zero : RunSummary := ⟨0, 0, 0, 0, 0⟩

def applied (s : RunSummary) : Nat := s.created + s.patched + s.unchanged

def afterRefresh (s : RunSummary) : Option Refresh → RunSummary
  | some (.loaded _) => { s with reloads := s.reloads + 1 }
  | _ => s

def afterSweep (s : RunSummary) (r : SweepReport) : RunSummary :=
  { s with
    created := s.created + r.created
    patched := s.patched + r.patched
    unchanged := s.unchanged + r.unchanged }

end RunSummary

inductive Setback where
  | refresh (error : StoreError)
  | attempt (error : ApplyError)
  deriving DecidableEq, Repr

def Setback.message : Setback → String
  | .refresh error => error.message
  | .attempt error => error.message

structure RunFailure where
  remaining : List Manifest
  needsReload : Bool
  /-- How many manifests the failure's message says are left. -/
  count : Nat
  last? : Option Setback

namespace RunFailure

def last (f : RunFailure) : String :=
  match f.last? with
  | some setback => setback.message
  | none => "deadline passed before any attempt completed"

def message (f : RunFailure) : String :=
  s!"timed out waiting for {f.count} manifest(s) to be applied: {f.last}"

end RunFailure

structure Progress (σ : Type) where
  pending : List Manifest
  resolver : Resolver
  needsReload : Bool
  summary : RunSummary
  last? : Option Setback
  stage : Stage σ

inductive Verdict where
  | finished
  | outOfTime
  | again
  deriving DecidableEq, Repr

structure RunRecord (σ : Type) where
  rounds : List Round
  result : Except RunFailure RunSummary
  resolver : Resolver
  stage : Stage σ

variable {σ : Type}

/-- How a refresh ends that is answered in time or not, and the mapping after it. A new mapping
takes the place of the old one as a whole; without an answer the old one stays. -/
def Resolver.refreshed (r : Resolver) :
    Option (Except StoreError (List ServedGroup)) → Refresh × Resolver
  | some (.ok groups) => (.loaded (Resolver.ofGroups groups).size, .ofGroups groups)
  | some (.error e) => (.failed e, r)
  | none => (.cutOff, r)

namespace Progress

def refresh (services : Services σ) (options : Options) (deadline : Nat) (p : Progress σ) :
    Option Refresh × Progress σ :=
  if p.needsReload then
    let m := p.stage.moment
    let (answer?, moment) := (services.discover m.world).run services.drift deadline m.now
    let (outcome, resolver) := p.resolver.refreshed answer?
    let p' := { p with
      resolver, summary := p.summary.afterRefresh (some outcome), stage := { p.stage with moment } }
    match outcome with
    | .loaded _ => (some outcome, { p' with needsReload := false })
    | .failed e =>
      let sink := p.stage.sink.write options.verbose (.refreshFailed e)
      (some outcome, { p' with last? := some (.refresh e), stage := ⟨moment, sink⟩ })
    | .cutOff => (some outcome, p')
  else (none, p)

def sweep (services : Services σ) (options : Options) (deadline : Nat) (p : Progress σ) :
    (SweepReport × List Attempt) × Verdict × Progress σ :=
  let made := ManifestSync.sweep services options p.resolver deadline p.pending p.stage
  let report := made.report
  let verdict :=
    if made.remaining.isEmpty then .finished
    else if report.interrupted then .outOfTime
    else .again
  ((report, made.attempts), verdict,
    { p with
      pending := made.remaining
      needsReload := report.needsReload
      summary := p.summary.afterSweep report
      last? := (report.lastError?.map .attempt).or p.last?
      stage := made.stage })

/-- One round. Where the mapping is due and cannot be rebuilt, nothing is swept. -/
def round (services : Services σ) (options : Options) (deadline : Nat) (p : Progress σ) :
    Round × Verdict × Progress σ :=
  let started := p.stage.moment.now
  let counted := { p with summary := { p.summary with rounds := p.summary.rounds + 1 } }
  let (refresh?, p') := counted.refresh services options deadline
  match refresh? with
  | some .cutOff => (⟨started, refresh?, p'.resolver, none⟩, .outOfTime, p')
  | some (.failed _) => (⟨started, refresh?, p'.resolver, none⟩, .again, p')
  | _ =>
    let (made, verdict, p'') := p'.sweep services options deadline
    (⟨started, refresh?, p'.resolver, some made⟩, verdict, p'')

def pause (services : Services σ) (options : Options) (deadline : Nat) (p : Progress σ) :
    Progress σ :=
  let m := p.stage.moment
  let woken := m.until services.drift (min (m.now + options.retryInterval) deadline)
  { p with stage := { p.stage with moment := woken } }

def rounds (services : Services σ) (options : Options) (deadline : Nat) :
    Nat → Progress σ → List Round × Bool × Progress σ
  | 0, p => ([], false, p)
  | limit + 1, p =>
    match p.round services options deadline with
    | (r, .finished, p') => ([r], true, p')
    | (r, .outOfTime, p') => ([r], false, p')
    | (r, .again, p') =>
      let rested := p'.pause services options deadline
      if deadline ≤ rested.stage.moment.now then ([r], false, rested)
      else
        let (rs, finished, last) := rounds services options deadline limit rested
        (r :: rs, finished, last)

end Progress

/-- How many rounds a run that never pauses may take beyond one for each unit of time. -/
def patience : Nat := 100000

/-- No run takes more rounds than this in a span of time: each but the last one ends in a pause. -/
def roundLimit (retryInterval span : Nat) : Nat :=
  if retryInterval = 0 then span + patience else span / retryInterval + 1

/-- Runs until every manifest is applied or the deadline passes. A mapping that was never built is
built first. -/
def run (services : Services σ) (options : Options) (deadline : Nat) (manifests : List Manifest)
    (resolver : Resolver) (stage : Stage σ) : RunRecord σ :=
  if manifests.isEmpty then ⟨[], .ok .zero, resolver, stage⟩
  else
    let start : Progress σ := ⟨manifests, resolver, !resolver.loaded, .zero, none, stage⟩
    let limit := roundLimit options.retryInterval (deadline - stage.moment.now)
    let (rounds, finished, last) := start.rounds services options deadline limit
    let result :=
      if finished then .ok last.summary
      else .error ⟨last.pending, last.needsReload, last.pending.length, last.last?⟩
    ⟨rounds, result, last.resolver, last.stage⟩

end ManifestSync
