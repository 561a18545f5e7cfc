import ManifestSync.Tree.Basic

namespace ManifestSync.Tree

mutual

def merge : Tree → Tree → Tree
  | target, .object patch => .object (mergeMembers target.members patch)
  | _, patch => patch

/-- A key that the target lacks is merged into as if it held null. -/
def mergeMembers : Members → Members → Members
  | target, [] => target
  | target, (key, .null) :: rest => mergeMembers (target.erase key) rest
  | target, (key, value) :: rest =>
    mergeMembers (target.set key (merge ((target.find? key).getD .null) value)) rest

end

end ManifestSync.Tree
