import ManifestSync.Proofs.Manifest.Update
import ManifestSync.Proofs.Store.Answers
import ManifestSync.Proofs.Tree.Order

namespace ManifestSync

namespace Tree

theorem mergedWith_mergedWith {value : Tree} (found? : Option Tree)
    (h : ((found?.getD .null).merge value).merge value = (found?.getD .null).merge value) :
    mergedWith (mergedWith found? value) value = mergedWith found? value := by
  by_cases hv : value = .null
  · subst hv
    rfl
  · rw [mergedWith_of_ne_null found? hv, mergedWith_of_ne_null _ hv, Option.getD_some, h]

theorem mergeMembers_mergeMembers {target patch : Members} (ht : target.Ascending)
    (hp : patch.Ascending)
    (h : ∀ p ∈ patch, mergedWith (mergedWith (target.find? p.1) p.2) p.2 =
      mergedWith (target.find? p.1) p.2) :
    mergeMembers (mergeMembers target patch) patch = mergeMembers target patch := by
  have hm : (mergeMembers target patch).Ascending := ascending_mergeMembers ht patch
  apply Members.Ascending.ext (ascending_mergeMembers hm patch) hm
  intro key
  rw [find?_mergeMembers_of_ascending _ hp, find?_mergeMembers_of_ascending target hp]
  cases hv : Members.find? key patch with
  | none => rfl
  | some value => exact h (key, value) (Members.mem_of_find? hv)

theorem merge_merge {t patch : Tree} (ht : t.InOrder) (hp : patch.InOrder) :
    (t.merge patch).merge patch = t.merge patch := by
  induction patch using Tree.induct generalizing t with
  | null | bool | number | text | list => rfl
  | object ms ih =>
    have hm : mergeMembers (mergeMembers t.members ms) ms = mergeMembers t.members ms := by
      apply mergeMembers_mergeMembers ht.ascending hp.1
      intro p hmem
      have hvalue : p.2.InOrder := membersInOrder_iff.mp hp.2 p hmem
      exact mergedWith_mergedWith _ (ih p hmem (ht.getD p.1) hvalue)
    rw [merge, merge, members_object, hm]

end Tree

theorem Table.set_set {κ α : Type} [DecidableEq κ] (key : κ) (value : α) (t : Table κ α) :
    (t.set key value).set key value = t.set key value := by
  induction t with
  | nil => simp only [set, ↓reduceIte]
  | cons p t ih => by_cases hp : p.1 = key <;> simp only [set, hp, ih, ↓reduceIte]

theorem Memory.put_put (key : ObjectKey) (t? : Option Tree) (m : Memory) :
    (m.put key t?).put key t? = m.put key t? := by
  cases t? with
  | none => rfl
  | some t => simp only [put, Table.set_set]

/-- A request that comes to the same on what it has stored is answered as before when it is sent
again, and leaves the store as it has left it. -/
theorem Memory.settle_settle {m : Memory} {r : Request}
    (h : r.settled m.failures
        ((r.settled m.failures (m.object? r.key)).2.or (m.object? r.key)) =
      r.settled m.failures (m.object? r.key)) :
    (m.settle r).2.settle r = m.settle r := by
  rw [settle_eq r m, settle_eq, object?_put, if_pos rfl, failures_put, h, put_put]

theorem Request.settled_patch_again {e : Endpoint} {ns : Option String} {name : String}
    {patch : Tree} (failures : List StagedFailure) {live? : Option Tree}
    (h : ∀ live, live? = some live → (live.merge patch).merge patch = live.merge patch) :
    (Request.patch e ns name patch).settled failures
        (((Request.patch e ns name patch).settled failures live?).2.or live?) =
      (Request.patch e ns name patch).settled failures live? := by
  unfold settled
  cases failures.find? (·.concerns (.patch e ns name patch)) with
  | some f => rfl
  | none =>
    cases live? with
    | none => rfl
    | some live => simp only [effect, Option.some_or, h live rfl]

/-- Merging a patch is idempotent, and so is sending one to a store. -/
theorem merge_idempotent {t patch : Tree} (ht : t.InOrder) (hp : patch.InOrder) :
    (t.merge patch).merge patch = t.merge patch ∧
    ∀ (m : Memory) (e : Endpoint) (ns : Option String) (name : String),
      m.object? (.of e ns name) = some t →
      (m.settle (.patch e ns name patch)).2.settle (.patch e ns name patch) =
        m.settle (.patch e ns name patch) := by
  have hm : (t.merge patch).merge patch = t.merge patch := Tree.merge_merge ht hp
  refine ⟨hm, fun m e ns name ho => ?_⟩
  apply Memory.settle_settle
  apply Request.settled_patch_again
  intro live hl
  obtain rfl : t = live := Option.some.inj (ho.symm.trans hl)
  exact hm

def recast : Tree :=
  .object [("kind", .null),
    ("spec", .object [("managementState", .object [("mode", .text "Managed"), ("since", .null)]),
      ("replicas", .null)]),
    ("status", .object [("seen", .object [])])]

theorem merge_idempotent_recast :
    let live := stateMap (.text "Removed")
    let memory := Memory.empty.addObject stateMaps live
    live.InOrder ∧ recast.InOrder ∧ memory.object? (.of stateMaps (some "apps") "ca") = some live ∧
      (live.merge recast).at? ["spec"] =
        some (.object [("managementState", .object [("mode", .text "Managed")])]) ∧
      (live.merge recast).merge recast = live.merge recast ∧
      (memory.settle (.patch stateMaps (some "apps") "ca" recast)).2.settle
          (.patch stateMaps (some "apps") "ca" recast) =
        memory.settle (.patch stateMaps (some "apps") "ca" recast) := by
  intro live memory
  have hl : live.InOrder := Draft.inOrder_of_tree? (d := .ofTree live) rfl
  have hr : recast.InOrder := Draft.inOrder_of_tree? (d := .ofTree recast) rfl
  have ho : memory.object? (.of stateMaps (some "apps") "ca") = some live := rfl
  obtain ⟨htwice, hsent⟩ := merge_idempotent hl hr
  exact ⟨hl, hr, ho, rfl, htwice, hsent memory stateMaps (some "apps") "ca" ho⟩

end ManifestSync
