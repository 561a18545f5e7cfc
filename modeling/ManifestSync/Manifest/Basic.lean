import ManifestSync.Kind
import ManifestSync.Tree.Basic

namespace ManifestSync

inductive RequiredField where
  | apiVersion
  | kind
  | name
  deriving DecidableEq, Repr

def RequiredField.display : RequiredField → String
  | .apiVersion => "apiVersion"
  | .kind => "kind"
  | .name => "metadata.name"

structure Manifest where
  path : String
  kind : Kind
  name : String
  inNamespace? : Option String
  object : Tree
  deriving Repr

namespace Tree

def textAt? (t : Tree) (path : List String) : Option String := (t.at? path).bind text?

/-- The text at the path, if there is one and it is not empty. -/
def fullTextAt? (t : Tree) (path : List String) : Option String :=
  (t.textAt? path).filter (· ≠ "")

end Tree

namespace Manifest

/-- The manifest that a tree is, or the first required field that it lacks. -/
def ofTree (path : String) (object : Tree) : Except RequiredField Manifest :=
  match object.fullTextAt? ["apiVersion"] with
  | none => .error .apiVersion
  | some apiVersion =>
    match object.fullTextAt? ["kind"] with
    | none => .error .kind
    | some kind =>
      match object.fullTextAt? ["metadata", "name"] with
      | none => .error .name
      | some name =>
        .ok ⟨path, Kind.ofApiVersion apiVersion kind, name,
          object.fullTextAt? ["metadata", "namespace"], object⟩

def target (m : Manifest) (e : Endpoint) : String :=
  match e.scopedNamespace m.inNamespace? with
  | some ns => s!"{e.display}/{m.name} -n {ns}"
  | none => s!"{e.display}/{m.name}"

end Manifest

end ManifestSync
