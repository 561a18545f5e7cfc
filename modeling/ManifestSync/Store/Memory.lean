import ManifestSync.Activity
import ManifestSync.Store.Request
import ManifestSync.Table
import ManifestSync.Tree.Merge

namespace ManifestSync

/-- Where an object is stored. The version and the kind of a collection are no part of it. -/
structure ObjectKey where
  group : String
  plural : String
  inNamespace : String
  name : String
  deriving DecidableEq, Repr

def ObjectKey.of (e : Endpoint) (ns : Option String) (name : String) : ObjectKey :=
  ⟨e.group, e.plural, (e.scopedNamespace ns).getD "", name⟩

def Request.key (r : Request) : ObjectKey := .of r.endpoint r.inNamespace? r.name

structure Action where
  verb : Verb
  plural : String
  inNamespace? : Option String
  name : String
  body? : Option Tree
  deriving Repr

namespace Action

def ofRequest (r : Request) : Action :=
  ⟨r.verb, r.endpoint.plural, r.endpoint.scopedNamespace r.inNamespace?, r.name, r.body?⟩

def path (a : Action) : String :=
  match a.inNamespace? with
  | some ns => a.plural ++ "/" ++ ns ++ "/" ++ a.name
  | none => a.plural ++ "/" ++ a.name

end Action

/-- A failure of the requests of one verb, about one name or about any. -/
structure StagedFailure where
  verb : Verb
  name? : Option String
  code : Nat
  message : String
  deriving DecidableEq, Repr

def StagedFailure.concerns (f : StagedFailure) (r : Request) : Bool :=
  f.verb == r.verb && f.name?.all (· == r.name)

structure Memory where
  objects : Table ObjectKey Tree
  /-- The requests so far, the last one first. -/
  log : List Action
  failures : List StagedFailure
  delays : List (Verb × Nat)

namespace Memory

def empty : Memory := ⟨[], [], [], []⟩

/-- Puts an object where its own name and namespace say, in place of one that is there. -/
def addObject (e : Endpoint) (object : Tree) (m : Memory) : Memory :=
  { m with objects := m.objects.set (.of e object.ownNamespace? object.ownName) object }

def object? (m : Memory) (key : ObjectKey) : Option Tree := m.objects.find? key

def actions (m : Memory) : List Action := m.log.reverse

def record (r : Request) (m : Memory) : Memory := { m with log := .ofRequest r :: m.log }

@[simp] theorem actions_record (r : Request) (m : Memory) :
    (m.record r).actions = m.actions ++ [.ofRequest r] := by
  simp [actions, record]

def failureOf? (m : Memory) (r : Request) : Option StoreError :=
  (m.failures.find? (·.concerns r)).map fun f => .rejected f.code f.message

def delayOf? (m : Memory) (r : Request) : Option Nat := (m.delays.find? (·.1 == r.verb)).map (·.2)

def describe (r : Request) (state : String) : String :=
  s!"{r.endpoint.display} \"{r.name}\" {state}"

def perform (r : Request) (m : Memory) : Answer × Memory :=
  match r with
  | .get .. =>
    match m.object? r.key with
    | some object => (.ok object, m)
    | none => (.error (.notFound (describe r "not found")), m)
  | .create _ _ object =>
    if r.name = "" then (.error (.rejected 422 "metadata.name: Required value"), m)
    else
      match m.object? r.key with
      | some _ => (.error (.alreadyExists (describe r "already exists")), m)
      | none => (.ok object, { m with objects := m.objects.set r.key object })
  | .patch _ _ _ body =>
    match m.object? r.key with
    | some object =>
      let merged := object.merge body
      (.ok merged, { m with objects := m.objects.set r.key merged })
    | none => (.error (.notFound (describe r "not found")), m)

def settle (r : Request) (m : Memory) : Answer × Memory :=
  match m.failureOf? r with
  | some e => (.error e, m)
  | none => m.perform r

def send (r : Request) (m : Memory) : Activity Memory Answer :=
  let recorded := m.record r
  match recorded.delayOf? r with
  | some delay => .wait delay recorded fun m' => .done (m'.settle r).1 (m'.settle r).2
  | none => .done (recorded.settle r).1 (recorded.settle r).2

end Memory

end ManifestSync
