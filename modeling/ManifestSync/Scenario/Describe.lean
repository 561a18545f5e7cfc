import ManifestSync.Scenario.Session
import ManifestSync.Span

namespace ManifestSync.Scenario

def fields (name : String) (shown : List String) : String :=
  name ++ " \x7b " ++ ", ".intercalate shown ++ " \x7d"

def describeOptions (o : Options) : String :=
  fields "ApplyOptions" [s!"update: {o.update}", s!"verbose: {o.verbose}",
    s!"filters: {o.filters.length}", s!"retry_interval: {Span.text o.retryInterval}", ".."]

def describeReconciler (o : Options) : String :=
  fields "Reconciler" ["engine: " ++ fields "ApplyEngine" [s!"update: {o.update}", ".."],
    "options: " ++ describeOptions o, ".."]

def describeResolver : String := fields "TypeResolver" [".."]

def describeMemory (m : Memory) : String :=
  fields "MockStoreClient" [s!"objects: {m.objects.length}", s!"actions: {m.log.length}"]

def describeFeed (f : Feed) : String :=
  fields "MockDiscovery" [s!"groups: {f.groups.length}", s!"calls: {f.calls}"]

end ManifestSync.Scenario
