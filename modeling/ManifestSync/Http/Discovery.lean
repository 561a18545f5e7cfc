import ManifestSync.Http.Client
import ManifestSync.Http.Documents
import ManifestSync.Http.VersionRank
import ManifestSync.Table

namespace ManifestSync.Http

variable {σ α β ε : Type}

inductive DiscoveryError where
  | invalidUri (fault : UriFault)
  | request (error : RequestError)
  | emptyGroup (name : String)
  deriving DecidableEq, Repr

def DiscoveryError.message : DiscoveryError → String
  | .invalidUri fault => "HttpError: " ++ fault.message
  | .request error => error.message
  | .emptyGroup name => "Error from discovery: Empty Api Group: " ++ name

/-- A part of a discovery: it may fail, and then nothing more is asked. -/
abbrev Inquiry (σ α : Type) := σ → Activity σ (Except DiscoveryError α)

namespace Inquiry

def fail (e : DiscoveryError) : Inquiry σ α := fun s => .done (.error e) s

def bind (first : Inquiry σ α) (next : α → Inquiry σ β) : Inquiry σ β := fun s =>
  (first s).bind fun
    | .ok a => next a
    | .error e => fail e

def map (f : α → β) (q : Inquiry σ α) : Inquiry σ β := fun s => (q s).map (·.map f)

def each (ask : α → Inquiry σ β) : List α → Inquiry σ (List β)
  | [] => fun s => .done (.ok []) s
  | a :: rest => (ask a).bind fun b => (each ask rest).map (b :: ·)

def document (transport : Transport σ) (read? : Draft → Option α) (path : String) : Inquiry σ α :=
  match readUri path with
  | .error fault => fail (.invalidUri fault)
  | .ok uri => fun s =>
    (fetch transport read? ⟨"GET", uri, none, none⟩ s).map (·.mapError .request)

end Inquiry

def ranked (versions : List (String × List ServedResource)) : List (String × List ServedResource) :=
  versions.mergeSort fun a b => (VersionRank.ofName a.1).precedes (VersionRank.ofName b.1)

/-- A group of versions in order of rank. Of equal names the first counts, and the version first in
rank is preferred unless the server prefers another one. -/
def groupOf (name : String) (preferred? : Option String)
    (versions : List (String × List ServedResource)) : ServedGroup where
  name := name
  preferredVersion := preferred?.getD ((versions.head?.map (·.1)).getD "")
  versions := .ofList versions.reverse

def askGroup (transport : Transport σ) (name : String) (preferred? : Option String)
    (versions : List (String × String)) : Inquiry σ ServedGroup :=
  if versions.isEmpty then Inquiry.fail (.emptyGroup name)
  else
    let resources := Inquiry.each fun v : String × String =>
      (Inquiry.document transport resourcesOf? v.2).map fun rs => (v.1, rs)
    (resources versions).map fun found => groupOf name preferred? (ranked found)

def askListedGroup (transport : Transport σ) (g : ListedGroup) : Inquiry σ ServedGroup :=
  let paths := g.versions.map fun v => (v.version, "/apis/" ++ v.groupVersion)
  askGroup transport g.name g.preferred? paths

def askCoreGroup (transport : Transport σ) : Inquiry σ ServedGroup :=
  (Inquiry.document transport versionsOf? "/api").bind fun versions =>
    askGroup transport "" (some "v1") (versions.map fun v => (v, "/api/" ++ v))

/-- All groups, those of the core group being asked for last. Of groups with one name the last
counts. -/
def askGroups (transport : Transport σ) : Inquiry σ (List ServedGroup) :=
  (Inquiry.document transport groupsOf? "/apis").bind fun listed =>
    (Inquiry.each (askListedGroup transport) listed).bind fun others =>
      (askCoreGroup transport).map fun core =>
        ((others ++ [core]).foldl (fun t g => Table.set g.name g t) []).map (·.2)

def discover (transport : Transport σ) (s : σ) :
    Activity σ (Except StoreError (List ServedGroup)) :=
  (askGroups transport s).map (·.mapError fun e => .discovery e.message)

end ManifestSync.Http
