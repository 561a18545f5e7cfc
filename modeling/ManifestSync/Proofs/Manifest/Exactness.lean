import ManifestSync.Proofs.Manifest.Effect
import ManifestSync.Proofs.Tree.Equality

namespace ManifestSync

/-- Whether the live object has the tree at the path. A path that it does not have counts as null. -/
def Tree.HasAt (live : Tree) (path : List String) (want : Tree) : Prop :=
  ((live.at? path).getD .null).Equal want

theorem difference?_eq_some_iff {desired live want : Tree} {path : List String} :
    difference? desired live path = some want ↔
      desired.at? path = some want ∧ ¬ live.HasAt path want := by
  rw [difference?_eq_some, ← Bool.not_eq_true, Tree.same_iff_equal]
  rfl

theorem difference?_eq_none_iff {desired live : Tree} {path : List String} :
    difference? desired live path = none ↔
      ∀ want, desired.at? path = some want → live.HasAt path want := by
  simp only [difference?_eq_none, Tree.same_iff_equal]
  rfl

theorem member_patchOf {state? generation? : Option Tree} {p : String × Tree}
    (h : p ∈ patchOf state? generation?) :
    (p.1 = "spec" ∧ ∃ state, p.2 = .object [("managementState", state)]) ∨
      (p.1 = "status" ∧ ∃ generation, p.2 = .object [("observedGeneration", generation)]) := by
  obtain h | h := List.mem_append.mp h
  · obtain ⟨state, -, rfl⟩ := Option.map_eq_some_iff.mp (Option.mem_toList.mp h)
    exact .inl ⟨rfl, state, rfl⟩
  · obtain ⟨generation, -, rfl⟩ := Option.map_eq_some_iff.mp (Option.mem_toList.mp h)
    exact .inr ⟨rfl, generation, rfl⟩

/-- The patch holds what is desired at the updatable paths at which the live object has something
else, and nothing besides. -/
structure Exact (desired live patch : Tree) : Prop where
  at?_iff : ∀ path ∈ updatablePaths, ∀ found, patch.at? path = some found ↔
    desired.at? path = some found ∧ ¬ live.HasAt path found
  members : ∃ ms : Members, patch = .object ms ∧ ms ≠ [] ∧ ms.Ascending ∧ ∀ p ∈ ms,
    (p.1 = "spec" ∧ ∃ state, p.2 = .object [("managementState", state)]) ∨
      (p.1 = "status" ∧ ∃ generation, p.2 = .object [("observedGeneration", generation)])

theorem exact_of_updatePatch {desired live patch : Tree}
    (h : updatePatch desired live = some patch) : Exact desired live patch := by
  constructor
  case at?_iff =>
    intro path hp found
    rw [at?_updatePatch h path hp]
    exact difference?_eq_some_iff
  case members =>
    have he := updatePatch_eq_some h
    have hne : updatablePaths.foldl (addDifference desired live) [] ≠ [] := by
      intro hnil
      rw [updatePatch, hnil] at h
      cases h
    rw [foldl_addDifference] at he hne
    exact ⟨_, he, hne, ascending_patchOf _ _, fun p hp => member_patchOf hp⟩

/-- There is a patch exactly if some updatable path is set to what is not there, and it holds that
and nothing else. -/
theorem updatePatch_exact (desired live : Tree) :
    (updatePatch desired live = none ↔ ∀ path ∈ updatablePaths, ∀ want,
      desired.at? path = some want → live.HasAt path want) ∧
    ∀ patch, updatePatch desired live = some patch → Exact desired live patch := by
  constructor
  · rw [updatePatch_eq_none]
    exact forall₂_congr fun path _ => difference?_eq_none_iff
  · intro patch h
    exact exact_of_updatePatch h

def countedMap : Tree :=
  .object [("spec", .object [("managementState", .null)]),
    ("status", .object [("observedGeneration", .number (.whole 2))])]

def measuredMap : Tree :=
  .object [("spec", .text "none"),
    ("status", .object [("observedGeneration", .number (.binary ⟨false, 0x10000000000000, -51⟩))])]

theorem updatePatch_exact_counted : ∃ patch,
    updatePatch countedMap measuredMap = some patch ∧ Exact countedMap measuredMap patch ∧
      countedMap.at? ["spec", "managementState"] = some .null ∧
      measuredMap.HasAt ["spec", "managementState"] .null ∧
      patch = .object [("status", .object [("observedGeneration", .number (.whole 2))])] :=
  ⟨_, rfl, (updatePatch_exact countedMap measuredMap).2 _ rfl, rfl, .null, rfl⟩

end ManifestSync
