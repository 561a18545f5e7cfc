import ManifestSync.Decimal.Binary64

namespace ManifestSync

/-- A number's class is part of it: no whole number equals a binary one. `below n` is `-(n + 1)`. -/
inductive Number where
  | whole (n : Nat)
  | below (n : Nat)
  | binary (x : Binary64)
  deriving DecidableEq, Repr

/-- Whole numbers are below this. -/
def Number.wholeLimit : Nat := 0x10000000000000000

/-- Negative numbers are no less than minus this. -/
def Number.belowLimit : Nat := 0x8000000000000000

def Number.same : Number → Number → Bool
  | .whole m, .whole n => m == n
  | .below m, .below n => m == n
  | .binary x, .binary y => x.same y
  | _, _ => false

inductive Tree where
  | null
  | bool (b : Bool)
  | number (n : Number)
  | text (s : String)
  | list (items : List Tree)
  | object (members : List (String × Tree))
  deriving Repr

abbrev Members := List (String × Tree)

namespace Tree

instance : Inhabited Tree := ⟨.null⟩

def empty : Tree := .object []

mutual

/-- Equality of trees, numbers being compared by class and value. -/
def same : Tree → Tree → Bool
  | .null, .null => true
  | .bool a, .bool b => a == b
  | .number a, .number b => a.same b
  | .text a, .text b => a == b
  | .list a, .list b => sameItems a b
  | .object a, .object b => sameMembers a b
  | _, _ => false

def sameItems : List Tree → List Tree → Bool
  | [], [] => true
  | a :: r, b :: s => a.same b && sameItems r s
  | _, _ => false

def sameMembers : Members → Members → Bool
  | [], [] => true
  | (k, a) :: r, (l, b) :: s => k == l && a.same b && sameMembers r s
  | _, _ => false

end

def isNull : Tree → Bool
  | .null => true
  | _ => false

def isObject : Tree → Bool
  | .object _ => true
  | _ => false

def members : Tree → Members
  | .object ms => ms
  | _ => []

def text? : Tree → Option String
  | .text s => some s
  | _ => none

end Tree

namespace Members

def find? (key : String) : Members → Option Tree
  | [] => none
  | (k, v) :: r => if k = key then some v else find? key r

/-- Gives the key its value, in place of the old one or before the first greater key. -/
def set (key : String) (value : Tree) : Members → Members
  | [] => [(key, value)]
  | (k, v) :: r =>
    if k = key then (key, value) :: r
    else if key < k then (key, value) :: (k, v) :: r
    else (k, v) :: set key value r

def erase (key : String) : Members → Members
  | [] => []
  | (k, v) :: r => if k = key then erase key r else (k, v) :: erase key r

/-- The members in order of keys; of equal keys the last one stays. -/
def ofList (pairs : List (String × Tree)) : Members :=
  pairs.foldl (fun ms p => ms.set p.1 p.2) []

end Members

namespace Tree

def ofPairs (pairs : List (String × Tree)) : Tree := .object (Members.ofList pairs)

mutual

def normalize : Tree → Tree
  | .list items => .list (normalizeItems items)
  | .object ms => .object (Members.ofList (normalizeMembers ms))
  | t => t

def normalizeItems : List Tree → List Tree
  | [] => []
  | t :: r => t.normalize :: normalizeItems r

def normalizeMembers : Members → Members
  | [] => []
  | (k, t) :: r => (k, t.normalize) :: normalizeMembers r

end

def member? (t : Tree) (key : String) : Option Tree := t.members.find? key

def at? (t : Tree) : List String → Option Tree
  | [] => some t
  | key :: path => (t.member? key).bind (·.at? path)

/-- The members with the value put at the end of the path. Steps that are missing or no objects
become objects. -/
def insertAt (ms : Members) : List String → Tree → Members
  | [], _ => ms
  | [key], value => ms.set key value
  | key :: path, value =>
    ms.set key (.object (insertAt ((ms.find? key).getD empty).members path value))

end Tree

end ManifestSync
