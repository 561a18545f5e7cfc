import ManifestSync.Reconcile.Ensure
import ManifestSync.Scenario.World

namespace ManifestSync.Scenario

structure Session where
  options : Options
  services : Services World
  resolver : Resolver
  pending : List Manifest
  stage : Stage World

namespace Session

def world (s : Session) : World := s.stage.moment.world

def now (s : Session) : Nat := s.stage.moment.now

def moved (s : Session) (moment : Moment World) : Session :=
  { s with stage := { s.stage with moment } }

def withWorld (s : Session) (w : World) : Session := s.moved { s.stage.moment with world := w }

def change (c : Change) (s : Session) : Session := s.withWorld (s.world.change c)

def schedule (changes : List (Nat × Change)) (s : Session) : Session :=
  let w := s.world
  s.withWorld { w with timeline := w.timeline ++ changes.map fun c => (s.now + c.1, c.2) }

def advance (span : Nat) (s : Session) : Session :=
  s.moved (s.stage.moment.until World.drift (s.now + span))

def await {α : Type} (call : World → Activity World α) (s : Session) : α × Session :=
  let (answer, moment) := (call s.world).await s.services.drift s.now
  (answer, s.moved moment)

def send (r : Request) (s : Session) : Answer × Session := s.await (s.services.send r)

def serverGroups (s : Session) : Except StoreError (List ServedGroup) × Session :=
  s.await s.services.discover

def refresh (s : Session) : Refresh × Session :=
  let (answer, s') := s.serverGroups
  let (outcome, resolver) := s.resolver.refreshed (some answer)
  (outcome, { s' with resolver })

def apply (update : Bool) (m : Manifest) (e : Endpoint) (s : Session) :
    Except ApplyError Outcome × Session :=
  let (result, moment) := (m.apply update e).await s.services s.stage.moment
  (result, s.moved moment)

def sweep (timeout : Nat) (s : Session) : SweepReport × Session :=
  let made := ManifestSync.sweep s.services s.options s.resolver (s.now + timeout) s.pending s.stage
  (made.report, { s with pending := made.remaining, stage := made.stage })

/-- Runs on what is pending; what remains is pending again. -/
def run (timeout : Nat) (s : Session) : Except RunFailure RunSummary × Session :=
  let made := ManifestSync.run s.services s.options (s.now + timeout) s.pending s.resolver s.stage
  let pending := match made.result with
    | .ok _ => []
    | .error failure => failure.remaining
  (made.result, { s with pending, resolver := made.resolver, stage := made.stage })

def ensure (decode : Decoder) (root : Files.Node) (directory : Files.PathText)
    (filters : List (Files.PathText → Bool)) (timeout : Nat) (s : Session) :
    Except LoadError (Except RunFailure RunSummary) × Session :=
  let options := { s.options with filters }
  match ManifestSync.ensure s.services options decode root directory timeout s.stage with
  | .error e => (.error e, s)
  | .ok made => (.ok made.result, { s with stage := made.stage })

def takeOutput (s : Session) : String × Session :=
  let emptied := { s.stage.sink with log := [] }
  (s.stage.sink.text, { s with stage := { s.stage with sink := emptied } })

def takeRequests (s : Session) : List Http.Outgoing × Session :=
  let w := s.world
  (w.server.log.reverse, s.withWorld { w with server := { w.server with log := [] } })

end Session

end ManifestSync.Scenario
