import ManifestSync.Files.Node

namespace ManifestSync.Files

namespace Node

mutual

/-- The node and all nodes below it, with the names that lead to them. Links are not followed. -/
def walk : Node → List (List Name × Node)
  | .folder entries => ([], .folder entries) :: walkEntries entries
  | t => [([], t)]

def walkEntries : List (Name × Node) → List (List Name × Node)
  | [] => []
  | (n, t) :: r => t.walk.map (fun p => (n :: p.1, p.2)) ++ walkEntries r

end

def inOrder (t : Node) : List (List Name × Node) := t.walk.mergeSort fun a b => !decide (b.1 < a.1)

end Node

namespace Disk

def isFileAt (d : Disk) (path : PathText) : Bool :=
  match d.find path with
  | .ok t => t.isFile
  | .error _ => false

def counts (d : Disk) (directory : PathText) : List Name × Node → Bool
  | (names, .link _) => d.isFileAt (extend directory names)
  | (_, t) => t.isFile

def isShut (directory : PathText) (p : List Name × Node) : Bool :=
  p.2.isFolder && decide (pathLimit ≤ (extend directory p.1).length)

def filesAmong (d : Disk) (directory : PathText) (met : List (List Name × Node)) :
    Except (PathText × Fault) (List (List Name)) :=
  match met.find? (isShut directory) with
  | some p => .error (extend directory p.1, .nameTooLong)
  | none => .ok ((met.filter (d.counts directory)).map (·.1))

/-- The names that lead to the files below a directory, in ascending order. Links to files count as
files, and links to folders are not entered. A directory that is a file is the only one. -/
def filesBelow (d : Disk) (directory : PathText) : Except (PathText × Fault) (List (List Name)) := do
  let top ← (d.find directory).mapError (directory, ·)
  d.filesAmong directory top.inOrder

end Disk

end ManifestSync.Files
