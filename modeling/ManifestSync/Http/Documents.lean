import ManifestSync.Catalog.Basic
import ManifestSync.Http.Object

namespace ManifestSync.Http

structure ListedVersion where
  groupVersion : String
  version : String
  deriving DecidableEq, Repr

structure ListedGroup where
  name : String
  preferred? : Option String
  versions : List ListedVersion
  deriving DecidableEq, Repr

def versionShape : Shape := .record
  (.defaulted "groupVersion" .text emptyText <| .defaulted "version" .text emptyText .nil)

def addressShape : Shape := .record
  (.defaulted "clientCIDR" .text emptyText <| .defaulted "serverAddress" .text emptyText .nil)

def groupShape : Shape := .record
  (.marked "apiVersion" "v1" <| .marked "kind" "APIGroup" <| .defaulted "name" .text emptyText <|
   .optional "preferredVersion" versionShape <|
   .optional "serverAddressByClientCIDRs" (.list addressShape) <|
   .defaulted "versions" (.list versionShape) noItems .nil)

def groupsShape : Shape := .record
  (.marked "apiVersion" "v1" <| .marked "kind" "APIGroupList" <|
   .defaulted "groups" (.list groupShape) noItems .nil)

def resourceShape : Shape := .record
  (.optional "categories" (.list .text) <| .optional "group" .text <|
   .defaulted "kind" .text emptyText <| .defaulted "name" .text emptyText <|
   .defaulted "namespaced" .flag (.bool false) <| .optional "shortNames" (.list .text) <|
   .defaulted "singularName" .text emptyText <| .optional "storageVersionHash" .text <|
   .defaulted "verbs" (.list .text) noItems <| .optional "version" .text .nil)

def resourcesShape : Shape := .record
  (.marked "apiVersion" "v1" <| .marked "kind" "APIResourceList" <|
   .defaulted "groupVersion" .text emptyText <|
   .defaulted "resources" (.list resourceShape) noItems .nil)

def versionsShape : Shape := .record
  (.marked "apiVersion" "v1" <| .marked "kind" "APIVersions" <|
   .defaulted "serverAddressByClientCIDRs" (.list addressShape) noItems <|
   .defaulted "versions" (.list .text) noItems .nil)

def itemsOf (t : Tree) (key : String) : List Tree :=
  match t.member? key with
  | some (.list ts) => ts
  | _ => []

def textOf (t : Tree) (key : String) : String := ((t.member? key).bind Tree.text?).getD ""

def listedVersion (t : Tree) : ListedVersion := ⟨textOf t "groupVersion", textOf t "version"⟩

def listedGroup (t : Tree) : ListedGroup where
  name := textOf t "name"
  preferred? := (t.member? "preferredVersion").map (textOf · "version")
  versions := (itemsOf t "versions").map listedVersion

def groupsOf? (document : Draft) : Option (List ListedGroup) :=
  (groupsShape.fit? document).map fun t => (itemsOf t "groups").map listedGroup

def versionsOf? (document : Draft) : Option (List String) :=
  (versionsShape.fit? document).map fun t => (itemsOf t "versions").filterMap Tree.text?

def isFlagged (t : Tree) (key : String) : Bool :=
  match t.member? key with
  | some (.bool b) => b
  | _ => false

/-- The resources of one version. Parts of resources, which have a slash in their names, are left
out, and of resources with one name the first tells whether they are in namespaces. -/
def resourcesOf? (document : Draft) : Option (List ServedResource) :=
  (resourcesShape.fit? document).map fun t =>
    let listed := itemsOf t "resources"
    (listed.filter fun r => !(textOf r "name").toList.contains '/').map fun r =>
      let name := textOf r "name"
      let first := (listed.find? (textOf · "name" == name)).getD r
      ⟨name, textOf r "kind", isFlagged first "namespaced"⟩

end ManifestSync.Http
