import ManifestSync.Tree.Basic

namespace ManifestSync

/-- The paths that an update may carry. Everything else belongs to whoever manages the object. -/
def updatablePaths : List (List String) :=
  [["spec", "managementState"], ["status", "observedGeneration"]]

/-- The members of a patch with the path added if the desired object has it and the live one
differs there. Absent and null are the same state of a live object. -/
def addDifference (desired live : Tree) (patch : Members) (path : List String) : Members :=
  match desired.at? path with
  | none => patch
  | some want =>
    if ((live.at? path).getD .null).same want then patch else Tree.insertAt patch path want

def updatePatch (desired live : Tree) : Option Tree :=
  match updatablePaths.foldl (addDifference desired live) [] with
  | [] => none
  | patch => some (.object patch)

end ManifestSync
