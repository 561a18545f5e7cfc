import ManifestSync.Catalog.Feed
import ManifestSync.Http.Discovery
import ManifestSync.Reconcile.Dialogue
import ManifestSync.Scenario.Server
import ManifestSync.Store.Memory

namespace ManifestSync.Scenario

inductive Change where
  | addObject (endpoint : Endpoint) (object : Tree)
  | addFailure (failure : StagedFailure)
  | clearFailures
  | clearActions
  | addDelay (verb : Verb) (delay : Nat)
  | setGroups (groups : List ServedGroup)
  | addGroup (group : ServedGroup)
  | revealOnCall (call : Nat) (group : ServedGroup)
  | failDiscovery (message : String)
  | clearDiscoveryFailure
  | addRoute (route : Route)
  | clearRoutes

structure World where
  memory : Memory
  feed : Feed
  server : Server
  timeline : List (Nat × Change)

namespace World

def ofGroups (groups : List ServedGroup) : World := ⟨.empty, .ofGroups groups, .empty, []⟩

def change (c : Change) (w : World) : World :=
  match c with
  | .addObject e object => { w with memory := w.memory.addObject e object }
  | .addFailure f => { w with memory := { w.memory with failures := w.memory.failures ++ [f] } }
  | .clearFailures => { w with memory := { w.memory with failures := [] } }
  | .clearActions => { w with memory := { w.memory with log := [] } }
  | .addDelay verb delay =>
    { w with memory := { w.memory with delays := w.memory.delays ++ [(verb, delay)] } }
  | .setGroups groups => { w with feed := w.feed.setGroups groups }
  | .addGroup g => { w with feed := w.feed.addGroup g }
  | .revealOnCall call g => { w with feed := w.feed.revealOnCall call g }
  | .failDiscovery message => { w with feed := w.feed.failWith message }
  | .clearDiscoveryFailure => { w with feed := w.feed.clearFailure }
  | .addRoute r => { w with server := { w.server with routes := w.server.routes ++ [r] } }
  | .clearRoutes => { w with server := { w.server with routes := [] } }

/-- The world at a later instant: what was due by then has happened, in order of time. -/
def drift : Drift World := fun _ instant w =>
  let (due, later) := w.timeline.partition (·.1 ≤ instant)
  let due := due.mergeSort fun a b => a.1 ≤ b.1
  due.foldl (fun w c => w.change c.2) { w with timeline := later }

def stagedServices : Services World where
  send r w := (w.memory.send r).onPart (·.memory) (fun memory w => { w with memory }) w
  discover w :=
    let (answer, feed) := w.feed.serve
    .done answer { w with feed }
  drift := drift

def transport : Http.Transport World := fun o w =>
  (w.server.transport o).onPart (·.server) (fun server w => { w with server }) w

def remoteServices : Services World where
  send := Http.send transport
  discover := Http.discover transport
  drift := drift

end World

end ManifestSync.Scenario
