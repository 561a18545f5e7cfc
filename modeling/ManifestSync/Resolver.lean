import ManifestSync.Catalog.Basic
import ManifestSync.Table
import ManifestSync.Text.Quoted

namespace ManifestSync

/-- No collection serves the kind. The kind is the one that was asked for. -/
structure NoMatch where
  kind : Kind
  deriving DecidableEq, Repr

def NoMatch.message (e : NoMatch) : String :=
  s!"no matches for kind {Text.quoted e.kind.name} in version {Text.quoted e.kind.apiVersion}"

structure Resolver where
  loaded : Bool
  endpoints : Table Kind Endpoint
  preferred : Table String String

namespace Resolver

def unloaded : Resolver := ⟨false, [], []⟩

/-- Adds one group. A kind that is known keeps its endpoint; a group's version is replaced. -/
def addGroup (r : Resolver) (g : ServedGroup) : Resolver :=
  { r with
    preferred := r.preferred.set g.name g.preferredVersion
    endpoints := g.endpoints.foldl (fun t e => t.setNew e.servedKind e) r.endpoints }

def ofGroups (groups : List ServedGroup) : Resolver := groups.foldl addGroup ⟨true, [], []⟩

def size (r : Resolver) : Nat := r.endpoints.length

/-- The endpoint of a kind; an empty version stands for the preferred one of the group. -/
def resolve (r : Resolver) (k : Kind) : Except NoMatch Endpoint :=
  let version? := if k.version = "" then r.preferred.find? k.group else some k.version
  match version?.bind fun v => r.endpoints.find? { k with version := v } with
  | some e => .ok e
  | none => .error ⟨k⟩

end Resolver

end ManifestSync
