import ManifestSync.Catalog.Basic
import ManifestSync.Store.Error

namespace ManifestSync

structure Feed where
  groups : List ServedGroup
  pending : List (Nat × ServedGroup)
  failure? : Option String
  calls : Nat

namespace Feed

def ofGroups (groups : List ServedGroup) : Feed := ⟨groups, [], none, 0⟩

def setGroups (groups : List ServedGroup) (f : Feed) : Feed := { f with groups }

def addGroup (g : ServedGroup) (f : Feed) : Feed := { f with groups := f.groups ++ [g] }

/-- Serves the group from that call on; calls are counted from one. -/
def revealOnCall (call : Nat) (g : ServedGroup) (f : Feed) : Feed :=
  { f with pending := f.pending ++ [(call, g)] }

def failWith (message : String) (f : Feed) : Feed := { f with failure? := some message }

def clearFailure (f : Feed) : Feed := { f with failure? := none }

/-- The feed at its next call: what is due by then is served after all that was served before. -/
def advance (f : Feed) : Feed :=
  let call := f.calls + 1
  let (due, later) := f.pending.partition (·.1 ≤ call)
  { f with calls := call, pending := later, groups := f.groups ++ due.map (·.2) }

/-- One call. Groups become due at a failing call as well. -/
def serve (f : Feed) : Except StoreError (List ServedGroup) × Feed :=
  let f' := f.advance
  match f'.failure? with
  | some message => (.error (.discovery message), f')
  | none => (.ok f'.groups, f')

end Feed

end ManifestSync
