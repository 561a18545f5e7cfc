import ManifestSync.Catalog.Basic
import ManifestSync.Tree.Draft

namespace ManifestSync

namespace Record

def only? (ms : Draft.Members) (name : String) : Option Draft :=
  match Draft.valuesOf name ms with
  | [d] => some d
  | _ => none

/-- The values of the named fields. An object may have further members; a list may not. -/
def fields? (names : List String) : Draft → Option (List Draft)
  | .list items => if items.length = names.length then some items else none
  | d => d.members?.bind fun ms => names.mapM (only? ms)

end Record

open Record

namespace Kind

def fieldNames : List String := ["group", "version", "kind"]

def toTree (k : Kind) : Tree :=
  .object [("group", .text k.group), ("version", .text k.version), ("kind", .text k.name)]

def ofDraft? (d : Draft) : Option Kind := do
  match ← fields? fieldNames d with
  | [g, v, k] => some ⟨← g.text?, ← v.text?, ← k.text?⟩
  | _ => none

end Kind

namespace Scope

def word : Scope → String
  | .namespaced => "Namespaced"
  | .cluster => "Cluster"

def ofWord? (s : String) : Option Scope :=
  if s = "Namespaced" then some .namespaced else if s = "Cluster" then some .cluster else none

def toTree (s : Scope) : Tree := .text s.word

/-- A scope is its word, or an object whose only member is null and has the word as its key. -/
def ofDraft? : Draft → Option Scope
  | .text s => ofWord? s
  | .object [(some s, .null)] => ofWord? s
  | _ => none

end Scope

namespace Endpoint

def fieldNames : List String := ["group", "version", "kind", "plural", "scope"]

def toTree (e : Endpoint) : Tree :=
  .object [("group", .text e.group), ("version", .text e.version), ("kind", .text e.kind),
    ("plural", .text e.plural), ("scope", e.scope.toTree)]

def ofDraft? (d : Draft) : Option Endpoint := do
  match ← fields? fieldNames d with
  | [g, v, k, p, s] => some ⟨← g.text?, ← v.text?, ← k.text?, ← p.text?, ← Scope.ofDraft? s⟩
  | _ => none

end Endpoint

namespace ServedResource

def fieldNames : List String := ["name", "kind", "namespaced"]

def toTree (r : ServedResource) : Tree :=
  .object [("name", .text r.plural), ("kind", .text r.kind), ("namespaced", .bool r.namespaced)]

def ofDraft? (d : Draft) : Option ServedResource := do
  match ← fields? fieldNames d with
  | [p, k, n] => some ⟨← p.text?, ← k.text?, ← n.bool?⟩
  | _ => none

def listOfDraft? : Draft → Option (List ServedResource)
  | .list ds => ds.mapM ofDraft?
  | _ => none

end ServedResource

namespace ServedGroup

def fieldNames : List String := ["name", "preferred_version", "versions"]

def versionTree (v : String × List ServedResource) : String × Tree :=
  (v.1, .list (v.2.map ServedResource.toTree))

def toTree (g : ServedGroup) : Tree :=
  .object [("name", .text g.name), ("preferred_version", .text g.preferredVersion),
    ("versions", .object (g.versions.entries.map versionTree))]

/-- Of versions with one name the last one counts. -/
def versionsOfDraft? (d : Draft) : Option (NameMap (List ServedResource)) := do
  let ms ← d.members?
  (ms.mapM fun m => (ServedResource.listOfDraft? m.2).map fun rs => (m.1, rs)).map NameMap.ofList

def ofDraft? (d : Draft) : Option ServedGroup := do
  match ← fields? fieldNames d with
  | [n, p, vs] => some ⟨← n.text?, ← p.text?, ← versionsOfDraft? vs⟩
  | _ => none

end ServedGroup

end ManifestSync
