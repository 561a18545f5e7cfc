import ManifestSync.Tree.Basic

namespace ManifestSync

/-- A tree as a text spells it, with members in the order in which they are written and repeated
keys included. What is well formed but cannot be part of a tree does no harm in a part that the
reader of the draft leaves out. -/
inductive Draft where
  /-- A number out of range, a text that is none or collections that are too deep. -/
  | broken
  | null
  | bool (b : Bool)
  | number (n : Number)
  | text (s : String)
  | list (items : List Draft)
  /-- A broken key is none. -/
  | object (members : List (Option String × Draft))
  deriving Repr

namespace Draft

instance : Inhabited Draft := ⟨.null⟩

abbrev Members := List (String × Draft)

def isNull : Draft → Bool
  | .null => true
  | _ => false

def text? : Draft → Option String
  | .text s => some s
  | _ => none

def bool? : Draft → Option Bool
  | .bool b => some b
  | _ => none

def members? : Draft → Option Members
  | .object ms => ms.mapM fun m => m.1.map (·, m.2)
  | _ => none

def valuesOf (key : String) (ms : Members) : List Draft := (ms.filter (·.1 == key)).map (·.2)

mutual

/-- The tree that the draft spells, if nothing in it is broken. Of members with one key the last
counts. -/
def tree? : Draft → Option Tree
  | .broken => none
  | .null => some .null
  | .bool b => some (.bool b)
  | .number n => some (.number n)
  | .text s => some (.text s)
  | .list ds => (itemTrees? ds).map .list
  | .object ms => (memberTrees? ms).map Tree.ofPairs

def itemTrees? : List Draft → Option (List Tree)
  | [] => some []
  | d :: r => do
    let t ← d.tree?
    let ts ← itemTrees? r
    some (t :: ts)

def memberTrees? : List (Option String × Draft) → Option (List (String × Tree))
  | [] => some []
  | (key?, d) :: r => do
    let key ← key?
    let t ← d.tree?
    let ts ← memberTrees? r
    some ((key, t) :: ts)

end

mutual

def ofTree : Tree → Draft
  | .null => .null
  | .bool b => .bool b
  | .number n => .number n
  | .text s => .text s
  | .list ts => .list (ofItems ts)
  | .object ms => .object (ofMembers ms)

def ofItems : List Tree → List Draft
  | [] => []
  | t :: r => ofTree t :: ofItems r

def ofMembers : ManifestSync.Members → List (Option String × Draft)
  | [] => []
  | (key, t) :: r => (some key, ofTree t) :: ofMembers r

end

end Draft

end ManifestSync
