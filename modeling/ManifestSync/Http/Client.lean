import ManifestSync.Http.Object
import ManifestSync.Http.Status
import ManifestSync.Store.Request
import ManifestSync.Tree.Written

namespace ManifestSync.Http

variable {σ α β ε : Type}

def fetch (transport : Transport σ) (read? : Draft → Option α) (o : Outgoing) (s : σ) :
    Activity σ (Except RequestError α) :=
  (transport o s).map fun
    | .error reason => .error (.failed (.transport reason))
    | .ok reply => do
      let text ← reply.read
      match (Draft.read? text).bind read? with
      | some a => .ok a
      | none => .error (.failed (.unreadable "unexpected document"))

def collectionPath (e : Endpoint) (ns : Option String) : String :=
  let root := if e.group = "" then "/api/" else "/apis/"
  let area := match e.scopedNamespace ns with
    | some n => "namespaces/" ++ n ++ "/"
    | none => ""
  root ++ e.apiVersion ++ "/" ++ area ++ e.plural

def outgoing (method written : String) (contentType? : Option String) (body? : Option Tree) :
    Except StoreError Outgoing :=
  match readUri written with
  | .ok uri => .ok ⟨method, uri, contentType?, body?.map Tree.written⟩
  | .error fault => .error (.client (.invalidUri fault))

/-- The location of an object, whose name must not be empty. -/
def objectPath (e : Endpoint) (ns : Option String) (name : String) : Except StoreError String :=
  if name = "" then .error (.client .emptyName) else .ok (collectionPath e ns ++ "/" ++ name)

def describe (e : Endpoint) (ns : Option String) (name : String) : String :=
  match e.scopedNamespace ns with
  | some n => e.display ++ " " ++ n ++ "/" ++ name
  | none => e.display ++ " " ++ name

structure Prepared where
  outgoing : Outgoing
  target : String
  deriving DecidableEq, Repr

/-- Prepares a request. An object to be created is sent in the form in which the server knows it; a
patch is sent as it is. -/
def prepare : Request → Except StoreError Prepared
  | .get e ns name => do
    let path ← objectPath e ns name
    pure ⟨← outgoing "GET" path none none, describe e ns name⟩
  | .create e ns object =>
    match objectOf? (.ofTree object) with
    | none => .error (.serialization "unexpected object")
    | some typed => do
      let out ← outgoing "POST" (collectionPath e ns ++ "?") (some "application/json") (some typed)
      pure ⟨out, describe e ns typed.ownName⟩
  | .patch e ns name body => do
    let path ← objectPath e ns name
    let out ← outgoing "PATCH" (path ++ "?") (some "application/merge-patch+json") (some body)
    pure ⟨out, describe e ns name⟩

/-- The error of a store for a failed request. Two codes have a meaning of their own. -/
def storeError (target : String) : RequestError → StoreError
  | .refused status =>
    if status.code = 404 then .notFound target
    else if status.code = 409 then .alreadyExists target
    else .rejected status.code status.message
  | .failed failure => .client failure

def send (transport : Transport σ) (r : Request) (s : σ) : Activity σ Answer :=
  match prepare r with
  | .error e => .done (.error e) s
  | .ok p => (fetch transport objectOf? p.outgoing s).map (·.mapError (storeError p.target))

end ManifestSync.Http
