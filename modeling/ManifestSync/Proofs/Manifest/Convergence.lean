import ManifestSync.Proofs.Manifest.Update
import ManifestSync.Proofs.Store.Calm
import ManifestSync.Proofs.Tree.Order

namespace ManifestSync

open Scenario

namespace Tree

theorem same_merge_iff {want t : Tree} (hw : want.InOrder) (ht : t.InOrder) :
    (t.merge want).same want = true ↔ want.overrides t = true := by
  refine ⟨overrides_of_same_merge hw, fun h => ?_⟩
  rw [merge_eq_of_overrides hw ht h]
  exact same_refl want

theorem InOrder.at? {t v : Tree} {path : List String} (h : t.InOrder) (hv : t.at? path = some v) :
    v.InOrder := by
  induction path generalizing t with
  | nil =>
    cases hv
    exact h
  | cons key path ih =>
    obtain ⟨u, hu, huv⟩ := Option.bind_eq_some_iff.mp (at?_cons t key path ▸ hv)
    exact ih (h.of_find? hu) huv

end Tree

theorem inOrder_single {t : Tree} (h : t.InOrder) (key : String) :
    (Tree.object [(key, t)]).InOrder := ⟨List.pairwise_singleton .., h, trivial⟩

theorem inOrder_of_updatePatch {desired live patch : Tree} (hd : desired.InOrder)
    (h : updatePatch desired live = some patch) : patch.InOrder := by
  have hv : ∀ path want, difference? desired live path = some want → want.InOrder :=
    fun path want hw => hd.at? (at?_of_difference? hw)
  rw [updatePatch_eq_some h, foldl_addDifference]
  refine Tree.inOrder_object (ascending_patchOf ..) fun p hp => ?_
  obtain hp | hp := List.mem_append.mp hp
  all_goals
    obtain ⟨want, hw, rfl⟩ := Option.map_eq_some_iff.mp (Option.mem_toList.mp hp)
    exact inOrder_single (hv _ want hw) _

/-- Whether every tree that the desired object wants in place of a live one has the last word there.
An object may not have it: what the live object has beside it is kept, and its nulls are dropped. -/
def settles (desired live : Tree) : Bool :=
  updatablePaths.all fun path =>
    (difference? desired live path).all fun want => want.overrides ((live.at? path).getD .null)

theorem difference?_merge_eq_none_iff {desired live patch : Tree} (hd : desired.InOrder)
    (hl : live.InOrder) (h : updatePatch desired live = some patch) {path : List String}
    (hp : path ∈ updatablePaths) :
    difference? desired (live.merge patch) path = none ↔
      (difference? desired live path).all
        (fun want => want.overrides ((live.at? path).getD .null)) = true := by
  have hm := at?_merge_updatePatch h live path hp
  cases hw : difference? desired live path with
  | none =>
    rw [hw, Option.elim_none] at hm
    simpa [difference?, hm] using hw
  | some want =>
    have ha := at?_of_difference? hw
    rw [hw, Option.elim_some] at hm
    simp only [difference?_eq_none, hm, ha, Option.some.injEq, forall_eq', Option.all_some]
    by_cases hn : want = .null
    · subst hn
      exact iff_of_true rfl rfl
    · rw [Tree.mergedWith_of_ne_null _ hn, Option.getD_some]
      have hv : ((live.at? path).getD .null).InOrder := by
        cases hf : live.at? path with
        | none => trivial
        | some v => exact hl.at? hf
      exact Tree.same_merge_iff (hd.at? ha) hv

theorem updatePatch_merge_eq_none_iff {desired live patch : Tree} (hd : desired.InOrder)
    (hl : live.InOrder) (h : updatePatch desired live = some patch) :
    updatePatch desired (live.merge patch) = none ↔ settles desired live = true := by
  rw [updatePatch_eq_none, settles, List.all_eq_true]
  exact forall₂_congr fun path hp => difference?_merge_eq_none_iff hd hl h hp

theorem settles_of_updatePatch_eq_none {desired live : Tree}
    (h : updatePatch desired live = none) : settles desired live = true := by
  rw [updatePatch_eq_none] at h
  refine List.all_eq_true.mpr fun path hp => ?_
  rw [h path hp]
  rfl

theorem overrides_of_not_isObject {want : Tree} (h : want.isObject = false) (t : Tree) :
    want.overrides t = true := by
  cases want with
  | object ms => cases h
  | _ => rfl

/-- Desired objects without an object at an updatable path settle on everything. -/
theorem settles_of_not_isObject {desired : Tree} (h : ∀ path ∈ updatablePaths, ∀ want,
    desired.at? path = some want → want.isObject = false) (live : Tree) :
    settles desired live = true := by
  refine List.all_eq_true.mpr fun path hp => ?_
  cases hw : difference? desired live path with
  | none => rfl
  | some want => exact overrides_of_not_isObject (h path hp want (at?_of_difference? hw)) _

theorem updatePatch_self (t : Tree) : updatePatch t t = none := by
  refine updatePatch_eq_none.mpr fun path _ => difference?_eq_none.mpr fun want hw => ?_
  rw [hw]
  exact want.same_refl

theorem await_apply_stored {m : Manifest} {memory : Memory} (h : memory.Calm) {e : Endpoint}
    {stored : Tree} (hk : memory.object? (m.key e) = some stored) (feed : Feed) (now : Nat) :
    (updatePatch m.object stored = none →
      (m.apply true e).await World.stagedServices ⟨now, .still memory feed⟩ =
        (.ok .unchanged, ⟨now, .still (memory.record (.get e m.inNamespace? m.name)) feed⟩)) ∧
    (updatePatch m.object stored ≠ none →
      ((m.apply true e).await World.stagedServices ⟨now, .still memory feed⟩).1 = .ok .patched) := by
  rw [Dialogue.await_of_calm _ h]
  refine ⟨fun hp => ?_, fun hp => ?_⟩
  · rw [Manifest.converse_apply_unchanged h.failures hk fun _ => hp]
    rfl
  · obtain ⟨patch, hp⟩ := Option.ne_none_iff_exists'.mp hp
    rw [Manifest.converse_apply_patched h.failures hk hp]

/-- Whether the manifest settles on what is stored at its key, if anything is. -/
def Manifest.settlesIn (m : Manifest) (e : Endpoint) (memory : Memory) : Bool :=
  (memory.object? (m.key e)).all (settles m.object)

theorem converse_apply {m : Manifest} (hn : m.Named) (hd : m.object.InOrder) {memory : Memory}
    (hc : memory.Calm) (e : Endpoint)
    (ho : ∀ live, memory.object? (m.key e) = some live → live.InOrder) :
    ∃ outcome memory' stored,
      (m.apply true e).converse memory = (.ok outcome, memory') ∧
      memory'.object? (m.key e) = some stored ∧ stored.InOrder ∧
      (updatePatch m.object stored = none ↔ m.settlesIn e memory = true) := by
  unfold Manifest.settlesIn
  cases hk : memory.object? (m.key e) with
  | none =>
    have hs : (memory.objects.set (m.key e) m.object).find? (m.key e) = some m.object := by
      rw [Table.find?_set, if_pos rfl]
    exact ⟨_, _, m.object, Manifest.converse_apply_created hn hc.failures true hk, hs, hd,
      iff_of_true (updatePatch_self m.object) rfl⟩
  | some live =>
    have hl := ho live hk
    rw [Option.all_some]
    cases hp : updatePatch m.object live with
    | none =>
      exact ⟨_, _, live, Manifest.converse_apply_unchanged hc.failures hk fun _ => hp, hk, hl,
        iff_of_true hp (settles_of_updatePatch_eq_none hp)⟩
    | some patch =>
      have hs : (memory.objects.set (m.key e) (live.merge patch)).find? (m.key e) =
          some (live.merge patch) := by
        rw [Table.find?_set, if_pos rfl]
      exact ⟨_, _, live.merge patch, Manifest.converse_apply_patched hc.failures hk hp, hs,
        hl.merge (inOrder_of_updatePatch hd hp), updatePatch_merge_eq_none_iff hd hl hp⟩

/-- Applying a manifest to a calm store succeeds. The object that is stored then is up to date, so
that applying it again only looks at it, exactly if the manifest settles on what was stored. -/
theorem apply_converges_iff {m : Manifest} (hn : m.Named) (hd : m.object.InOrder)
    {memory : Memory} (hc : memory.Calm) (e : Endpoint)
    (ho : ∀ live, memory.object? (m.key e) = some live → live.InOrder) (feed : Feed) (now : Nat) :
    ∃ outcome memory' stored,
      (m.apply true e).await World.stagedServices ⟨now, .still memory feed⟩ =
        (.ok outcome, ⟨now, .still memory' feed⟩) ∧
      memory'.object? (m.key e) = some stored ∧ stored.InOrder ∧
      (updatePatch m.object stored = none ↔ m.settlesIn e memory = true) ∧
      (m.settlesIn e memory = true →
        (m.apply true e).await World.stagedServices ⟨now, .still memory' feed⟩ =
          (.ok .unchanged, ⟨now, .still (memory'.record (.get e m.inNamespace? m.name)) feed⟩)) ∧
      (m.settlesIn e memory = false →
        ((m.apply true e).await World.stagedServices ⟨now, .still memory' feed⟩).1 =
          .ok .patched) := by
  obtain ⟨outcome, memory', stored, hfirst, hk, hs, hiff⟩ := converse_apply hn hd hc e ho
  have hc' : memory'.Calm := by
    have h := Dialogue.converse_calm (m.apply true e) hc
    rwa [hfirst] at h
  obtain ⟨hsame, hagain⟩ := await_apply_stored hc' hk feed now
  refine ⟨outcome, memory', stored, ?_, hk, hs, hiff, fun h => hsame (hiff.mpr h), fun h => ?_⟩
  · rw [Dialogue.await_of_calm _ hc, hfirst]
  · refine hagain fun hnone => ?_
    rw [hiff.mp hnone] at h
    cases h

def stateWorld (state : Tree) : World :=
  .still (Memory.empty.addObject stateMaps (stateMap state)) (.ofGroups [])

theorem text_state_patched_once :
    ∃ memory,
      ((stateManifest (.text "Managed")).apply true stateMaps).await World.stagedServices
        ⟨0, stateWorld .null⟩ = (.ok .patched, ⟨0, .still memory (.ofGroups [])⟩) ∧
      (((stateManifest (.text "Managed")).apply true stateMaps).await World.stagedServices
        ⟨0, .still memory (.ofGroups [])⟩).1 = .ok .unchanged := by
  have hd : (stateMap (.text "Managed")).InOrder :=
    Draft.inOrder_of_tree? (d := .ofTree (stateMap (.text "Managed"))) rfl
  have hs : (stateMap .null).InOrder := Draft.inOrder_of_tree? (d := .ofTree (stateMap .null)) rfl
  have hc : (Memory.empty.addObject stateMaps (stateMap .null)).Calm := ⟨rfl, rfl⟩
  obtain ⟨outcome, memory, stored, hfirst, _, _, _, hsame, _⟩ :=
    apply_converges_iff (Manifest.named_of_ofTree (ofTree_stateMap _)) hd hc stateMaps
      (fun live hl => Option.some.inj hl ▸ hs) (.ofGroups []) 0
  have ho : outcome = .patched := by
    have h : (.ok outcome : Except ApplyError Outcome) = .ok .patched :=
      (congrArg Prod.fst hfirst).symm
    injection h
  subst ho
  exact ⟨memory, hfirst, by rw [hsame rfl]⟩

def nestedNull : Tree := .object [("mode", .text "Managed"), ("since", .null)]

/-- A null inside of an object that is wanted is dropped by the store, so that what is stored is not
up to date and is patched again. -/
theorem nested_null_patched_again :
    ∃ memory stored,
      ((stateManifest nestedNull).apply true stateMaps).await World.stagedServices
        ⟨0, stateWorld .null⟩ = (.ok .patched, ⟨0, .still memory (.ofGroups [])⟩) ∧
      memory.object? ((stateManifest nestedNull).key stateMaps) = some stored ∧
      updatePatch (stateManifest nestedNull).object stored ≠ none ∧
      (((stateManifest nestedNull).apply true stateMaps).await World.stagedServices
        ⟨0, .still memory (.ofGroups [])⟩).1 = .ok .patched :=
  ⟨_, _, rfl, rfl, nofun, rfl⟩

end ManifestSync
