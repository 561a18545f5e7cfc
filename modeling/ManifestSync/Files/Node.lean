import ManifestSync.Files.Path
import ManifestSync.Table

namespace ManifestSync.Files

inductive Fault where
  | missing
  | notFolder
  | nameTooLong
  | tooManyLinks
  | zeroOctet
  | isFolder
  | denied
  deriving DecidableEq, Repr

def Fault.message : Fault → String
  | .missing => "No such file or directory (os error 2)"
  | .notFolder => "Not a directory (os error 20)"
  | .nameTooLong => "File name too long (os error 36)"
  | .tooManyLinks => "Too many levels of symbolic links (os error 40)"
  | .zeroOctet => "file name contained an unexpected NUL byte"
  | .isFolder => "Is a directory (os error 21)"
  | .denied => "Permission denied (os error 13)"

inductive Node where
  | file (content : List UInt8)
  | sealed
  | link (target : PathText)
  | folder (entries : List (Name × Node))
  deriving Repr

namespace Node

def entries : Node → List (Name × Node)
  | .folder es => es
  | _ => []

def isFolder : Node → Bool
  | .folder _ => true
  | _ => false

def isFile : Node → Bool
  | .file _ => true
  | .sealed => true
  | _ => false

def content : Node → Except Fault (List UInt8)
  | .file content => .ok content
  | .sealed => .error .denied
  | .folder _ => .error .isFolder
  | .link _ => .error .missing

/-- The node that the names lead to, links not being followed. -/
def at? (t : Node) : List Name → Option Node
  | [] => some t
  | n :: names => (Table.find? n t.entries).bind (·.at? names)

/-- The tree with a node put at the end of the names. Folders come into being on the way; a folder
that is there already keeps its entries if it is put again. -/
def put (old new : Node) : List Name → Node
  | [] => if new.isFolder && old.isFolder then old else new
  | n :: names =>
    let child := (Table.find? n old.entries).getD (.folder [])
    .folder (Table.set n (child.put new names) old.entries)

end Node

inductive Step where
  | enter (name : Name)
  | up
  | stay
  deriving DecidableEq, Repr

def Step.ofName (n : Name) : Step :=
  if n = [] ∨ n = dot then .stay else if n = dotDot then .up else .enter n

/-- The place where a path starts, relative paths at the given one, and its steps from there. The empty
path leads nowhere. -/
def route? (place : List Name) : PathText → Option (List Name × List Step)
  | [] => none
  | b :: r => some (if b = slash then [] else place, (pieces (b :: r)).map .ofName)

def linkLimit : Nat := 40

def nameLimit : Nat := 255

/-- A path has fewer octets than this. -/
def pathLimit : Nat := 4096

/-- What a step from a place comes to, where `links` more links may be followed: how many may be
followed after it, the place it leads to, and the steps that a link inserts. -/
def advance (root : Node) (links : Nat) (place : List Name) (step : Step) :
    Except Fault (Nat × List Name × List Step) :=
  match root.at? place with
  | some (.folder entries) =>
    match step with
    | .stay => .ok (links, place, [])
    | .up => .ok (links, place.dropLast, [])
    | .enter n =>
      if nameLimit < n.length then .error .nameTooLong
      else
        match Table.find? n entries with
        | none => .error .missing
        | some (.link target) =>
          match links with
          | 0 => .error .tooManyLinks
          | links + 1 =>
            match route? place target with
            | none => .error .missing
            | some (start, detour) => .ok (links, start, detour)
        | some _ => .ok (links, place ++ [n], [])
  | some _ => .error .notFolder
  | none => .error .missing

theorem advance_eq_ok {root : Node} {links l : Nat} {place p : List Name} {step : Step}
    {detour : List Step} (h : advance root links place step = .ok (l, p, detour)) :
    l < links ∨ l = links ∧ detour = [] := by
  unfold advance at h
  split at h
  · cases step with
    | stay =>
      cases h
      exact .inr ⟨rfl, rfl⟩
    | up =>
      cases h
      exact .inr ⟨rfl, rfl⟩
    | enter n =>
      simp only at h
      split at h
      · cases h
      · split at h
        · cases h
        · cases links with
          | zero => cases h
          | succ links =>
            simp only at h
            split at h
            · cases h
            · cases h
              exact .inl (Nat.lt_succ_self _)
        · cases h
          exact .inr ⟨rfl, rfl⟩
  · cases h
  · cases h

def follow (root : Node) (links : Nat) (place : List Name) (path : List Step) :
    Except Fault (List Name) :=
  match path with
  | [] => if (root.at? place).isSome then .ok place else .error .missing
  | step :: rest =>
    match _h : advance root links place step with
    | .error e => .error e
    | .ok (links, place, detour) => follow root links place (detour ++ rest)
termination_by (links, path.length)
decreasing_by
  obtain hl | ⟨rfl, rfl⟩ := advance_eq_ok _h
  · exact Prod.Lex.left _ _ hl
  · exact Prod.Lex.right _ (Nat.lt_succ_self _)

structure Disk where
  top : Node
  home : List Name

namespace Disk

def ofHome (root : Node) : Disk :=
  let name : Name := [0x77]
  ⟨.folder [(name, root)], [name]⟩

def find (d : Disk) (path : PathText) : Except Fault Node :=
  if path.contains 0 then .error .zeroOctet
  else if pathLimit ≤ path.length then .error .nameTooLong
  else
    match route? d.home path with
    | none => .error .missing
    | some (start, steps) => do
      let place ← follow d.top linkLimit start steps
      match d.top.at? place with
      | some node => .ok node
      | none => .error .missing

def read (d : Disk) (path : PathText) : Except Fault (List UInt8) := do
  (← d.find path).content

end Disk

namespace Node

def landing (root : Node) (place : List Name) (n : Name) : List Name :=
  match follow root linkLimit place [.enter n] with
  | .ok target => target
  | .error _ => place ++ [n]

/-- The tree with a node put at the end of the names from a place on. Links are followed, and
folders that are missing on the way come into being. -/
def writeFrom (root new : Node) (place : List Name) : List Name → Node
  | [] => root
  | [n] => root.put new (root.landing place n)
  | n :: names =>
    let next := root.landing place n
    (root.put (.folder []) next).writeFrom new next names

def write (root new : Node) (names : List Name) : Node := root.writeFrom new [] names

end Node

end ManifestSync.Files
