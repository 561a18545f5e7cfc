namespace ManifestSync

def apiVersionOf (group version : String) : String :=
  if group = "" then version else group ++ "/" ++ version

/-- The parts before and after the first slash; a text without one belongs to the core group. -/
def splitApiVersion (cs : List Char) : List Char × List Char :=
  match cs.dropWhile (· ≠ '/') with
  | [] => ([], cs)
  | _ :: version => (cs.takeWhile (· ≠ '/'), version)

structure Kind where
  group : String
  version : String
  name : String
  deriving DecidableEq, Repr

namespace Kind

def ofApiVersion (apiVersion name : String) : Kind :=
  let (group, version) := splitApiVersion apiVersion.toList
  ⟨String.ofList group, String.ofList version, name⟩

def apiVersion (k : Kind) : String := apiVersionOf k.group k.version

def display (k : Kind) : String := k.apiVersion ++ ", Kind=" ++ k.name

def le (a b : Kind) : Bool :=
  if a.group ≠ b.group then a.group < b.group
  else if a.version ≠ b.version then a.version < b.version
  else a.name ≤ b.name

def sorted (ks : List Kind) : List Kind := (ks.mergeSort le).eraseReps

end Kind

inductive Scope where
  | namespaced
  | cluster
  deriving DecidableEq, Repr

structure Endpoint where
  group : String
  version : String
  kind : String
  plural : String
  scope : Scope
  deriving DecidableEq, Repr

namespace Endpoint

def isNamespaced (e : Endpoint) : Bool := e.scope == .namespaced

def apiVersion (e : Endpoint) : String := apiVersionOf e.group e.version

def display (e : Endpoint) : String :=
  if e.group = "" then e.plural ++ "." ++ e.version
  else e.plural ++ "." ++ e.version ++ "." ++ e.group

def servedKind (e : Endpoint) : Kind := ⟨e.group, e.version, e.kind⟩

/-- The namespace that counts: none for a collection of the whole cluster. -/
def scopedNamespace (e : Endpoint) (ns : Option String) : Option String :=
  if e.isNamespaced then ns else none

end Endpoint

end ManifestSync
