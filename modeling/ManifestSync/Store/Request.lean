import ManifestSync.Kind
import ManifestSync.Store.Error
import ManifestSync.Tree.Basic

namespace ManifestSync

inductive Verb where
  | get
  | create
  | patch
  deriving DecidableEq, Repr

/-- A request to a collection. The namespace is left out of account where the collection spans the
cluster. -/
inductive Request where
  | get (endpoint : Endpoint) (inNamespace? : Option String) (name : String)
  | create (endpoint : Endpoint) (inNamespace? : Option String) (object : Tree)
  | patch (endpoint : Endpoint) (inNamespace? : Option String) (name : String) (body : Tree)
  deriving Repr

abbrev Answer := Except StoreError Tree

/-- The name that an object gives itself, empty if it gives none. -/
def Tree.ownName (t : Tree) : String := ((t.at? ["metadata", "name"]).bind text?).getD ""

def Tree.ownNamespace? (t : Tree) : Option String := (t.at? ["metadata", "namespace"]).bind text?

namespace Request

def verb : Request → Verb
  | .get .. => .get
  | .create .. => .create
  | .patch .. => .patch

def endpoint : Request → Endpoint
  | .get e .. => e
  | .create e .. => e
  | .patch e .. => e

def inNamespace? : Request → Option String
  | .get _ ns _ => ns
  | .create _ ns _ => ns
  | .patch _ ns _ _ => ns

/-- The name of the object that the request is about; an object to be created brings its own. -/
def name : Request → String
  | .get _ _ n => n
  | .create _ _ object => object.ownName
  | .patch _ _ n _ => n

def body? : Request → Option Tree
  | .get .. => none
  | .create _ _ object => some object
  | .patch _ _ _ body => some body

end Request

end ManifestSync
