import ManifestSync.Manifest.Basic
import ManifestSync.Manifest.Update
import ManifestSync.Proofs.Tree.Path

namespace ManifestSync

/-- What the desired object wants to have at a path where the live one differs. -/
def difference? (desired live : Tree) (path : List String) : Option Tree :=
  (desired.at? path).filter fun want => !((live.at? path).getD .null).same want

theorem difference?_eq_none {desired live : Tree} {path : List String} :
    difference? desired live path = none ↔
      ∀ want, desired.at? path = some want → ((live.at? path).getD .null).same want = true := by
  simp [difference?, Option.filter_eq_none_iff]

theorem at?_of_difference? {desired live want : Tree} {path : List String}
    (h : difference? desired live path = some want) : desired.at? path = some want :=
  (Option.filter_eq_some_iff.mp h).1

theorem addDifference_eq (desired live : Tree) (patch : Members) (path : List String) :
    addDifference desired live patch path =
      (difference? desired live path).elim patch (Tree.insertAt patch path) := by
  unfold addDifference difference?
  cases desired.at? path with
  | none => rfl
  | some want => cases hs : ((live.at? path).getD .null).same want <;> simp [hs, Option.filter]

def patchOf (state? generation? : Option Tree) : Members :=
  (state?.map fun t => ("spec", Tree.object [("managementState", t)])).toList ++
    (generation?.map fun t => ("status", Tree.object [("observedGeneration", t)])).toList

theorem foldl_addDifference (desired live : Tree) :
    updatablePaths.foldl (addDifference desired live) [] =
      patchOf (difference? desired live ["spec", "managementState"])
        (difference? desired live ["status", "observedGeneration"]) := by
  have hlt : ¬ "status" < "spec" := by decide
  simp only [updatablePaths, List.foldl_cons, List.foldl_nil, addDifference_eq]
  cases difference? desired live ["spec", "managementState"] <;>
    cases difference? desired live ["status", "observedGeneration"] <;>
    simp [patchOf, Tree.insertAt, Members.set, Members.find?, Tree.members, Tree.empty, hlt]

theorem updatePatch_eq_none {desired live : Tree} :
    updatePatch desired live = none ↔
      ∀ path ∈ updatablePaths, difference? desired live path = none := by
  rw [updatePatch, foldl_addDifference]
  simp only [updatablePaths, List.mem_cons, List.not_mem_nil, or_false, forall_eq_or_imp, forall_eq]
  cases difference? desired live ["spec", "managementState"] <;>
    cases difference? desired live ["status", "observedGeneration"] <;> simp [patchOf]

theorem updatePatch_eq_some {desired live patch : Tree} (h : updatePatch desired live = some patch) :
    patch = .object (updatablePaths.foldl (addDifference desired live) []) := by
  unfold updatePatch at h
  split at h
  · cases h
  · exact (Option.some.inj h).symm

theorem ascending_patchOf (state? generation? : Option Tree) :
    (patchOf state? generation?).Ascending := by
  have hlt : "spec" < "status" := by decide
  cases state? <;> cases generation?
  · exact .nil
  · exact List.pairwise_singleton ..
  · exact List.pairwise_singleton ..
  · exact List.pairwise_pair.mpr hlt

theorem find?_patchOf_spec (state? generation? : Option Tree) :
    (patchOf state? generation?).find? "spec" =
      state?.map fun t => Tree.object [("managementState", t)] := by
  cases state? <;> cases generation? <;> simp [patchOf, Members.find?_cons]

theorem find?_patchOf_status (state? generation? : Option Tree) :
    (patchOf state? generation?).find? "status" =
      generation?.map fun t => Tree.object [("observedGeneration", t)] := by
  cases state? <;> cases generation? <;> simp [patchOf, Members.find?_cons]

theorem find?_patchOf_other (state? generation? : Option Tree) {key : String}
    (hspec : key ≠ "spec") (hstatus : key ≠ "status") :
    (patchOf state? generation?).find? key = none := by
  cases state? <;> cases generation? <;>
    simp [patchOf, Members.find?_cons, hspec.symm, hstatus.symm]

theorem at?_merge_single (t : Tree) {ms : Members} (h : ms.Ascending) {key next : String}
    {value? : Option Tree}
    (hf : ms.find? key = value?.map fun value => Tree.object [(next, value)]) :
    (t.merge (.object ms)).at? [key, next] =
      value?.elim (t.at? [key, next]) (Tree.mergedWith (t.at? [key, next])) := by
  rw [Tree.at?_pair, Tree.at?_pair, Tree.merge, Tree.members_object,
    Tree.find?_mergeMembers_of_ascending _ h, hf]
  cases value? with
  | none => rfl
  | some value =>
    have hs : Members.Ascending [(next, value)] := List.pairwise_singleton ..
    have hm := Tree.find?_mergeMembers_of_ascending
      ((t.members.find? key).getD .null).members hs next
    simp only [Members.find?_cons, ↓reduceIte, Option.elim_some] at hm
    exact hm

theorem at?_merge_updatePatch {desired live patch : Tree}
    (h : updatePatch desired live = some patch) (t : Tree) :
    ∀ path ∈ updatablePaths, (t.merge patch).at? path =
      (difference? desired live path).elim (t.at? path) (Tree.mergedWith (t.at? path)) := by
  have ha := ascending_patchOf (difference? desired live ["spec", "managementState"])
    (difference? desired live ["status", "observedGeneration"])
  rw [updatePatch_eq_some h, foldl_addDifference]
  simp only [updatablePaths, List.mem_cons, List.not_mem_nil, or_false, forall_eq_or_imp, forall_eq]
  exact ⟨at?_merge_single t ha (find?_patchOf_spec ..),
    at?_merge_single t ha (find?_patchOf_status ..)⟩

theorem at?_updatePatch {desired live patch : Tree} (h : updatePatch desired live = some patch) :
    ∀ path ∈ updatablePaths, patch.at? path = difference? desired live path := by
  have hpair : ∀ {ms : Members} {key next : String} {value? : Option Tree},
      ms.find? key = value?.map (fun value => Tree.object [(next, value)]) →
        (Tree.object ms).at? [key, next] = value? := by
    intro ms key next value? hf
    rw [Tree.at?_pair, Tree.members_object, hf]
    cases value? with
    | none => rfl
    | some value => simp [Tree.members, Members.find?_cons]
  rw [updatePatch_eq_some h, foldl_addDifference]
  simp only [updatablePaths, List.mem_cons, List.not_mem_nil, or_false, forall_eq_or_imp, forall_eq]
  exact ⟨hpair (find?_patchOf_spec ..), hpair (find?_patchOf_status ..)⟩

theorem misses_foldl_addDifference (desired live : Tree) {path : List String}
    {targets : List (List String)}
    (ha : ∀ target ∈ targets, (difference? desired live target).isSome = true →
      Tree.Apart path target)
    {ms : Members} (hm : (Tree.object ms).Misses path) :
    (Tree.object (targets.foldl (addDifference desired live) ms)).Misses path := by
  induction targets generalizing ms with
  | nil => exact hm
  | cons target targets ih =>
    refine ih (fun u hu => ha u (List.mem_cons_of_mem _ hu)) ?_
    rw [addDifference_eq]
    cases hw : difference? desired live target with
    | none => exact hm
    | some want =>
      have hapart := ha target List.mem_cons_self (Option.isSome_of_mem hw)
      exact Tree.misses_insertAt want hapart hm

theorem misses_of_updatePatch {desired live patch : Tree}
    (h : updatePatch desired live = some patch) {path : List String}
    (ha : ∀ target ∈ updatablePaths, (difference? desired live target).isSome = true →
      Tree.Apart path target) : patch.Misses path := by
  have hsome : ∃ target ∈ updatablePaths, (difference? desired live target).isSome = true := by
    by_contra hnone
    have hn : updatePatch desired live = none :=
      updatePatch_eq_none.mpr fun target ht => by simpa using fun hs => hnone ⟨target, ht, hs⟩
    exact nomatch hn.symm.trans h
  obtain ⟨target, ht, hs⟩ := hsome
  have hne : path ≠ [] := (ha target ht hs).ne_nil
  rw [updatePatch_eq_some h]
  exact misses_foldl_addDifference desired live ha (Tree.misses_nil hne)

theorem at?_of_single {next : String} {value? : Option Tree} {child found : Tree}
    (hc : value?.map (fun value => Tree.object [(next, value)]) = some child)
    {path : List String} (h : child.at? path = some found) :
    path = [] ∧ found.isObject = true ∨
      ∃ rest value, path = next :: rest ∧ value? = some value ∧ value.at? rest = some found := by
  obtain ⟨value, rfl, rfl⟩ := Option.map_eq_some_iff.mp hc
  cases path with
  | nil =>
    cases h
    exact .inl ⟨rfl, rfl⟩
  | cons key rest =>
    by_cases hk : next = key
    · subst hk
      refine .inr ⟨rest, value, rfl, rfl, ?_⟩
      simpa [Tree.at?, Tree.member?, Tree.members, Members.find?_cons] using h
    · simp [Tree.at?, Tree.member?, Tree.members, Members.find?_cons, hk] at h

/-- Whatever is in the tree is on the way to an updatable path, or at or below one and there as
desired. -/
def Tree.Updates (desired patch : Tree) : Prop :=
  ∀ path found, patch.at? path = some found → ∃ target ∈ updatablePaths,
    path <+: target ∧ path ≠ target ∧ found.isObject = true ∨
      target <+: path ∧ desired.at? path = some found

theorem updates_of_updatePatch {desired live patch : Tree}
    (h : updatePatch desired live = some patch) : desired.Updates patch := by
  intro path found hf
  rw [updatePatch_eq_some h, foldl_addDifference] at hf
  have hone : ∀ {key next : String} {child : Tree} {path : List String},
      [key, next] ∈ updatablePaths → (difference? desired live [key, next]).map
        (fun value => Tree.object [(next, value)]) = some child → child.at? path = some found →
      ∃ target ∈ updatablePaths,
        key :: path <+: target ∧ key :: path ≠ target ∧ found.isObject = true ∨
          target <+: key :: path ∧ desired.at? (key :: path) = some found := by
    intro key next child path ht hc hp
    obtain ⟨rfl, ho⟩ | ⟨rest, value, rfl, hv, hr⟩ := at?_of_single hc hp
    · exact ⟨_, ht, .inl ⟨⟨[next], rfl⟩, nofun, ho⟩⟩
    · refine ⟨_, ht, .inr ⟨⟨rest, rfl⟩, ?_⟩⟩
      have hd := desired.at?_append [key, next] rest
      rw [at?_of_difference? hv] at hd
      exact hd.trans hr
  cases path with
  | nil =>
    cases hf
    exact ⟨_, List.mem_cons_self, .inl ⟨List.nil_prefix, nofun, rfl⟩⟩
  | cons key path =>
    obtain ⟨child, hc, hp⟩ := Option.bind_eq_some_iff.mp hf
    have hc : (patchOf _ _).find? key = some child := hc
    by_cases hspec : key = "spec"
    · subst hspec
      rw [find?_patchOf_spec] at hc
      exact hone List.mem_cons_self hc hp
    · by_cases hstatus : key = "status"
      · subst hstatus
        rw [find?_patchOf_status] at hc
        exact hone (List.mem_cons_of_mem _ List.mem_cons_self) hc hp
      · rw [find?_patchOf_other _ _ hspec hstatus] at hc
        cases hc

def stateMap (state : Tree) : Tree :=
  .object [("apiVersion", .text "v1"), ("kind", .text "ConfigMap"),
    ("metadata", .object [("name", .text "ca"), ("namespace", .text "apps")]),
    ("spec", .object [("managementState", state)])]

example : updatePatch (stateMap (.text "Managed")) (stateMap .null) =
    some (.object [("spec", .object [("managementState", .text "Managed")])]) := rfl

def stateMaps : Endpoint := ⟨"", "v1", "ConfigMap", "configmaps", .namespaced⟩

def stateManifest (state : Tree) : Manifest :=
  ⟨"ca.yaml", ⟨"", "v1", "ConfigMap"⟩, "ca", some "apps", stateMap state⟩

theorem ofTree_stateMap (state : Tree) :
    Manifest.ofTree "ca.yaml" (stateMap state) = .ok (stateManifest state) := rfl

end ManifestSync
